import Mathlib.Data.List.Nodup

/-! What is found under a key in a list of pairs, in which the first pair for a key counts. -/

namespace MillGateway

section

variable [BEq α] [LawfulBEq α] {k k' : α} {v w : β} {l : List (α × β)}

theorem lookup_cons_of_ne (h : k' ≠ k) : ((k, w) :: l).lookup k' = l.lookup k' := by
  rw [List.lookup_cons, beq_eq_false_iff_ne.2 h]

theorem lookup_filter_self (k : α) (l : List (α × β)) : (l.filter (·.1 != k)).lookup k = none := by
  rw [List.lookup_eq_none_iff]
  intro p hp
  have hne := (List.mem_filter.1 hp).2
  rwa [bne_comm] at hne

theorem lookup_filter_ne (h : k' ≠ k) : (l.filter (·.1 != k)).lookup k' = l.lookup k' := by
  induction l with
  | nil => rfl
  | cons p l ih =>
    obtain ⟨x, v⟩ := p
    by_cases hx : x = k
    · rw [List.filter_cons_of_neg (by simpa using hx), ih, hx, lookup_cons_of_ne h]
    · rw [List.filter_cons_of_pos (by simpa using hx), List.lookup_cons, List.lookup_cons, ih]

theorem eq_of_lookup (hkeys : (l.map Prod.fst).Nodup) (hlookup : l.lookup k = some v) {p : α × β}
    (hp : p ∈ l) (hk : p.1 = k) : p.2 = v := by
  obtain ⟨l₁, l₂, rfl, -⟩ := List.lookup_eq_some_iff.1 hlookup
  have hentry : (k, v) ∈ l₁ ++ (k, v) :: l₂ := List.mem_append_right _ List.mem_cons_self
  exact congrArg Prod.snd (List.inj_on_of_nodup_map hkeys hp hentry hk)

end

end MillGateway
