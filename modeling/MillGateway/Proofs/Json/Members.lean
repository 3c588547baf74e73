import Mathlib.Data.List.Basic
import MillGateway.Json.Basic

/-! The members of an object. Main statement: their keys ascend, so each of them has one value. -/

namespace MillGateway.Json

/-- Each key comes before those that follow it. Texts are in the order of their characters, which
is the order of their UTF-8 bytes. -/
def Members.Sorted (ms : Members) : Prop :=
  ms.Pairwise fun m m' => m.1 < m'.1

namespace Members

variable {k name : String} {v w : Json} {ms : Members}

theorem mem_of_mem_insert {m : String × Json} (h : m ∈ Members.insert k v ms) :
    m = (k, v) ∨ m ∈ ms := by
  induction ms with
  | nil => exact .inl (List.mem_singleton.1 h)
  | cons m' ms ih =>
    rw [Members.insert] at h
    split at h
    · exact List.mem_cons.1 h
    · split at h
      · exact (List.mem_cons.1 h).imp_right (List.mem_cons_of_mem _)
      · rcases List.mem_cons.1 h with rfl | h
        · exact .inr List.mem_cons_self
        · exact (ih h).imp_right (List.mem_cons_of_mem _)

theorem Sorted.insert (hms : ms.Sorted) : (Members.insert k v ms).Sorted := by
  induction ms with
  | nil => exact List.pairwise_singleton ..
  | cons m ms ih =>
    have hrest := List.pairwise_cons.1 hms
    rw [Members.insert]
    split
    next hlt =>
      refine List.pairwise_cons.2 ⟨fun m' hm' => ?_, hms⟩
      rcases List.mem_cons.1 hm' with rfl | hm'
      · exact hlt
      · exact String.lt_trans hlt (hrest.1 m' hm')
    next hlt =>
      split
      next heq => exact List.pairwise_cons.2 ⟨fun m' hm' => heq ▸ hrest.1 m' hm', hrest.2⟩
      next hne =>
        have hbefore : m.1 < k := Std.lt_of_le_of_ne (String.not_lt.1 hlt) (Ne.symm hne)
        refine List.pairwise_cons.2 ⟨fun m' hm' => ?_, ih hrest.2⟩
        rcases mem_of_mem_insert hm' with rfl | hm'
        · exact hbefore
        · exact hrest.1 m' hm'

theorem Sorted.foldl_insert {acc : Members} (hacc : acc.Sorted) (l : List (String × Json)) :
    (l.foldl (fun acc (k, v) => Members.insert k v acc) acc).Sorted := by
  induction l generalizing acc with
  | nil => exact hacc
  | cons m l ih => exact ih hacc.insert

theorem Sorted.lookup_eq_some_iff (hms : ms.Sorted) :
    ms.lookup name = some v ↔ (name, v) ∈ ms := by
  rw [List.lookup_eq_some_iff]
  constructor
  · rintro ⟨us, vs, rfl, -⟩
    exact List.mem_append_right _ List.mem_cons_self
  · intro hmem
    obtain ⟨us, vs, rfl⟩ := List.append_of_mem hmem
    refine ⟨us, vs, rfl, fun u hu => ?_⟩
    have hlt : u.1 < name := (List.pairwise_append.1 hms).2.2 u hu _ List.mem_cons_self
    exact bne_iff_ne.2 fun heq => String.lt_irrefl _ (heq ▸ hlt)

theorem Sorted.lookup_eq_none (hms : Sorted ((k, w) :: ms)) (h : ¬ k < name) :
    ms.lookup name = none := by
  refine List.lookup_eq_none_iff.2 fun m hm => bne_iff_ne.2 fun heq => h ?_
  exact heq ▸ (List.pairwise_cons.1 hms).1 m hm

end Members

theorem exists_sorted_members (l : List (String × Json)) :
    ∃ ms : Members, ofMembers l = .obj ms ∧ ms.Sorted :=
  ⟨_, rfl, Members.Sorted.foldl_insert List.Pairwise.nil l⟩

end MillGateway.Json
