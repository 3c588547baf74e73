import Mathlib.Data.List.Basic
import MillGateway.Proofs.Text.Words
import MillGateway.Text.Line

/-! The segments of a text under appending and leaving out. Main statements: a text can be put
together from any of its segments in order, and cutting it again gives just those. -/

namespace MillGateway.Text

/-- Whether stretches are the segments of a text: all end in their only line feed, but perhaps the
last one, which holds none then. -/
def AreSegments : List (List Char) → Prop
  | [] => True
  | s :: ss => s ≠ [] ∧ '\n' ∉ s.dropLast ∧ (ss ≠ [] → s.getLast? = some '\n') ∧ AreSegments ss

theorem segments_eq_nil_iff {s : List Char} : segments s = [] ↔ s = [] := by
  cases s with
  | nil => simp [segments]
  | cons c r =>
    rw [segments]
    split
    · simp
    · split <;> simp

theorem areSegments_segments (s : List Char) : AreSegments (segments s) := by
  induction s with
  | nil => trivial
  | cons c r ih =>
    rw [segments]
    split
    next hc => exact ⟨by simp, by simp, fun _ => by simp [hc], ih⟩
    next hc =>
      split
      next => exact ⟨by simp, by simp, by simp, trivial⟩
      -- the character joins the first segment of the rest
      next t ts hts =>
        rw [hts] at ih
        obtain ⟨hne, hfree, hlast, hrest⟩ := ih
        obtain ⟨d, u, rfl⟩ := List.exists_cons_of_ne_nil hne
        refine ⟨by simp, ?_, fun h => ?_, hrest⟩
        · rw [List.dropLast_cons_of_ne_nil hne, List.mem_cons, not_or]
          exact ⟨fun h => hc h.symm, hfree⟩
        · rw [List.getLast?_cons_cons]
          exact hlast h

theorem AreSegments.filter {ss : List (List Char)} (h : AreSegments ss) (p : List Char → Bool) :
    AreSegments (ss.filter p) := by
  induction ss with
  | nil => trivial
  | cons s ss ih =>
    obtain ⟨hne, hfree, hlast, hrest⟩ := h
    rw [List.filter_cons]
    split
    · refine ⟨hne, hfree, fun hf => hlast ?_, ih hrest⟩
      rintro rfl
      exact hf rfl
    · exact ih hrest

theorem segments_line {l : List Char} (hl : '\n' ∉ l) (t : List Char) :
    segments (l ++ '\n' :: t) = (l ++ ['\n']) :: segments t := by
  induction l with
  | nil => simp [segments]
  | cons c r ih =>
    rw [List.mem_cons, not_or] at hl
    rw [List.cons_append, segments, if_neg fun h => hl.1 h.symm, ih hl.2]
    rfl

theorem segments_of_none {l : List Char} (hl : '\n' ∉ l) (hne : l ≠ []) : segments l = [l] := by
  induction l with
  | nil => contradiction
  | cons c r ih =>
    rw [List.mem_cons, not_or] at hl
    rw [segments, if_neg fun h => hl.1 h.symm]
    by_cases hr : r = []
    · rw [hr]
      rfl
    · rw [ih hl.2 hr]

theorem segments_flatten {ss : List (List Char)} (h : AreSegments ss) :
    segments ss.flatten = ss := by
  induction ss with
  | nil => rfl
  | cons s ss ih =>
    obtain ⟨hne, hfree, hlast, hrest⟩ := h
    -- only the last segment may be without a line feed
    by_cases hss : ss = []
    · have hs : s.dropLast ++ [s.getLast hne] = s := List.dropLast_append_getLast hne
      rw [hss, List.flatten_cons, List.flatten_nil, List.append_nil]
      by_cases hfeed : s.getLast hne = '\n'
      · rw [hfeed] at hs
        rw [← hs, segments_line hfree]
        rfl
      · refine segments_of_none ?_ hne
        rw [← hs, List.mem_append, List.mem_singleton, not_or]
        exact ⟨hfree, fun h => hfeed h.symm⟩
    · have hs : s.dropLast ++ ['\n'] = s := List.dropLast_append_getLast? _ (hlast hss)
      rw [List.flatten_cons, ← hs, List.append_assoc, List.singleton_append,
        segments_line hfree, ih hrest]

theorem segments_flatten_filter (s : List Char) (p : List Char → Bool) :
    segments ((segments s).filter p).flatten = (segments s).filter p :=
  segments_flatten ((areSegments_segments s).filter p)

def Ended (s : List Char) : Prop :=
  s = [] ∨ s.getLast? = some '\n'

theorem Ended.of_cons {c : Char} {r : List Char} (hc : c ≠ '\n') (h : Ended (c :: r)) :
    r ≠ [] ∧ Ended r := by
  cases r with
  | nil => simp [Ended, hc] at h
  | cons d u => simpa [Ended, List.getLast?_cons_cons] using h

theorem segments_append {s : List Char} (hs : Ended s) (t : List Char) :
    segments (s ++ t) = segments s ++ segments t := by
  induction s with
  | nil => rfl
  | cons c r ih =>
    rw [List.cons_append, segments, segments]
    by_cases hc : c = '\n'
    · rw [if_pos hc, if_pos hc]
      have hr : Ended r := by
        cases r with
        | nil => exact .inl rfl
        | cons d u => simpa [Ended, List.getLast?_cons_cons] using hs
      rw [ih hr, List.cons_append]
    · obtain ⟨hne, hr⟩ := hs.of_cons hc
      rw [if_neg hc, if_neg hc, ih hr]
      have hseg : segments r ≠ [] := fun h => hne (segments_eq_nil_iff.1 h)
      obtain ⟨u, us, hu⟩ := List.exists_cons_of_ne_nil hseg
      rw [hu]
      rfl

theorem ended_cons {c : Char} {r : List Char} (hr : Ended r) (h : r ≠ [] ∨ c = '\n') :
    Ended (c :: r) := by
  cases r with
  | nil => simpa [Ended] using h
  | cons d u => simpa [Ended, List.getLast?_cons_cons] using hr

theorem exists_open_line {s : List Char} (hs : ¬ Ended s) :
    ∃ r l, s = r ++ l ∧ Ended r ∧ '\n' ∉ l ∧ l ≠ [] := by
  induction s with
  | nil => exact absurd (.inl rfl) hs
  | cons c u ih =>
    -- induction on the text from its end: the open line starts at the last line feed
    by_cases hu : Ended u
    · have hc : ¬ (u ≠ [] ∨ c = '\n') := fun h => hs (ended_cons hu h)
      simp only [not_or, ne_eq, not_not] at hc
      exact ⟨[], [c], by rw [hc.1]; rfl, .inl rfl, by simpa using fun h => hc.2 h.symm, by simp⟩
    · obtain ⟨r, l, rfl, hr, hl, hne⟩ := ih hu
      by_cases hc : r ≠ [] ∨ c = '\n'
      · exact ⟨c :: r, l, rfl, ended_cons hr hc, hl, hne⟩
      · simp only [not_or, ne_eq, not_not] at hc
        refine ⟨[], c :: l, by rw [hc.1]; rfl, .inl rfl, ?_, by simp⟩
        rw [List.mem_cons, not_or]
        exact ⟨fun h => hc.2 h.symm, hl⟩

theorem isBlank_feed : ∀ c ∈ ['\n'], isBlank c = true :=
  List.forall_mem_singleton.2 rfl

theorem isBlank_carriageFeed : ∀ c ∈ ['\r', '\n'], isBlank c = true :=
  List.forall_mem_cons.2 ⟨rfl, isBlank_feed⟩

theorem exists_terminator (s : List Char) :
    ∃ w, s = dropTerminator s ++ w ∧ ∀ c ∈ w, isBlank c = true := by
  have hs : s = s.reverse.reverse := (List.reverse_reverse s).symm
  rw [dropTerminator]
  split
  next r h =>
    refine ⟨['\r', '\n'], ?_, isBlank_carriageFeed⟩
    rw [hs, h]
    simp
  next r _ h =>
    refine ⟨['\n'], ?_, isBlank_feed⟩
    rw [hs, h]
    simp
  next => exact ⟨[], by simp, by simp⟩

end MillGateway.Text
