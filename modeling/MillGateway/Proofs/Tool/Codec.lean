import Mathlib.Data.List.Basic
import Mathlib.Data.List.Nodup
import Mathlib.Data.List.Perm.Basic
import MillGateway.Tool.Codec

/-! Tools as JSON objects. Main statement: the object of a record reads back as the record. -/

namespace MillGateway

namespace Json

theorem insert_perm {k : String} (v : Json) {ms : Members} (hk : k ∉ ms.map Prod.fst) :
    (Members.insert k v ms).Perm ((k, v) :: ms) := by
  induction ms with
  | nil => rfl
  | cons m ms ih =>
    rw [List.map_cons, List.mem_cons, not_or] at hk
    rw [Members.insert]
    split
    · rfl
    · rw [if_neg hk.1]
      exact ((ih hk.2).cons m).trans (.swap _ _ _)

theorem foldl_insert_perm (acc : Members) {ms : Members}
    (hms : ((ms ++ acc).map Prod.fst).Nodup) :
    (ms.foldl (fun acc (k, v) => Members.insert k v acc) acc).Perm (ms ++ acc) := by
  induction ms generalizing acc with
  | nil => rfl
  | cons m ms ih =>
    have hmiddle : (ms ++ m :: acc).Perm (m :: ms ++ acc) := List.perm_middle
    have hnew : m.1 ∉ acc.map Prod.fst := by
      rw [List.cons_append, List.map_cons, List.nodup_cons, List.map_append] at hms
      exact fun h => hms.1 (List.mem_append_right _ h)
    have hinsert := (insert_perm m.2 hnew).append_left ms
    have hnodup : ((ms ++ Members.insert m.1 m.2 acc).map Prod.fst).Nodup :=
      ((hinsert.trans hmiddle).map Prod.fst).nodup_iff.2 hms
    exact (ih _ hnodup).trans (hinsert.trans hmiddle)

theorem exists_members_perm {ms : Members} (hms : (ms.map Prod.fst).Nodup) :
    ∃ ms', ofMembers ms = .obj ms' ∧ ms'.Perm ms := by
  have hnodup : ((ms ++ []).map Prod.fst).Nodup := by rwa [List.append_nil]
  have hperm := foldl_insert_perm [] hnodup
  rw [List.append_nil] at hperm
  exact ⟨_, rfl, hperm⟩

theorem list_arr_map {α : Type} {f : α → Json} {item : Shape α} (h : ∀ a, item (f a) = .ok a)
    (as : List α) : list item (.arr (as.map f)) = .ok as := by
  rw [list]
  induction as with
  | nil => rfl
  | cons a as ih =>
    rw [List.map_cons, List.mapM_cons, h, ih]
    rfl

end Json

namespace Tool.Record

def member (f : Key × String) : String × Json :=
  (f.1.symbol.toString, .str f.2)

theorem keyOfName?_symbol (k : Key) : keyOfName? k.symbol.toString = some k := by
  have hlist : (String.singleton k.symbol).toList = [k.symbol] := String.toList_singleton _
  show keyOfName? (String.singleton k.symbol) = some k
  rw [keyOfName?, hlist]
  exact Key.ofSymbol?_symbol k

theorem symbol_injective {k k' : Key} (h : k.symbol.toString = k'.symbol.toString) : k = k' := by
  have hsome := keyOfName?_symbol k
  rw [h, keyOfName?_symbol k'] at hsome
  exact (Option.some.inj hsome).symm

theorem nodup_members (r : Record) : ((r.fields.map member).map Prod.fst).Nodup := by
  have hall : Key.all.Nodup := by decide
  have hkeys : (r.fields.map Prod.fst).Nodup := by
    rw [fields, List.map_filterMap]
    refine hall.filterMap fun k k' k'' hk hk' => ?_
    simp only [Option.mem_def, Option.map_map, Option.map_eq_some_iff] at hk hk'
    obtain ⟨_, _, rfl⟩ := hk
    obtain ⟨_, _, hk'⟩ := hk'
    exact hk'.symm
  have hnames := hkeys.map (f := fun k => k.symbol.toString) fun _ _ => symbol_injective
  rwa [List.map_map] at hnames ⊢

theorem takeMember_member (s : Record) (k : Key) (v : String) :
    takeMember s (member (k, v)) = .ok (s.set k v) := by
  rw [member, takeMember, keyOfName?_symbol]
  rfl

theorem exists_foldlM_takeMember (r : Record) {ms : Json.Members}
    (hms : ∀ m ∈ ms, ∃ k v, r.get k = some v ∧ member (k, v) = m) (s : Record) :
    ∃ s', ms.foldlM takeMember s = .ok s' ∧
      ∀ k, s'.get k = r.get k ∨ s'.get k = s.get k ∧ ∀ v, member (k, v) ∉ ms := by
  induction ms generalizing s with
  | nil => exact ⟨s, rfl, fun k => .inr ⟨rfl, fun v => List.not_mem_nil⟩⟩
  | cons m ms ih =>
    obtain ⟨k, v, hv, rfl⟩ := hms m List.mem_cons_self
    obtain ⟨s', hs', hget⟩ := ih (fun m h => hms m (List.mem_cons_of_mem _ h)) (s.set k v)
    rw [List.foldlM_cons, takeMember_member]
    refine ⟨s', hs', fun k' => ?_⟩
    rcases hget k' with h | ⟨h, hnot⟩
    · exact .inl h
    · by_cases hk : k' = k
      · have hne : v ≠ "" := fun h => r.ne_empty k (h ▸ hv)
        left
        rw [h, hk, get_set, if_pos rfl, if_neg hne, hv]
      · rw [get_set, if_neg hk] at h
        refine .inr ⟨h, fun v' hv' => ?_⟩
        rcases List.mem_cons.1 hv' with hv' | hv'
        · exact hk (symbol_injective (congrArg Prod.fst hv'))
        · exact hnot v' hv'

theorem shape_toJson (r : Record) : shape r.toJson = .ok r := by
  obtain ⟨ms, hobj, hperm⟩ := Json.exists_members_perm r.nodup_members
  have hmem : ∀ m, m ∈ ms ↔ ∃ k v, r.get k = some v ∧ member (k, v) = m := by
    intro m
    simp only [hperm.mem_iff, List.mem_map, Prod.exists, mem_fields]
  obtain ⟨s, hs, hget⟩ := exists_foldlM_takeMember r (fun m => (hmem m).1) empty
  have hread : shape r.toJson = .ok s := (congrArg shape hobj).trans hs
  rw [hread]
  refine congrArg Except.ok (Record.ext (funext fun k => ?_))
  rcases hget k with h | ⟨h, hnot⟩
  · exact h
  · -- a field without member has no value
    rw [h, get_empty]
    cases hv : r.get k with
    | none => rfl
    | some v => exact absurd ((hmem _).2 ⟨k, v, hv, rfl⟩) (hnot v)

theorem list_shape_toJson (rs : List Record) :
    Json.list shape (.arr (rs.map toJson)) = .ok rs :=
  Json.list_arr_map shape_toJson rs

end Tool.Record

end MillGateway
