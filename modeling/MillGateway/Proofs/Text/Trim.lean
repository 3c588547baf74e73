import MillGateway.Proofs.Text.Words

/-! Texts without blanks at their ends, and the first place where a mark stands. Main statements:
trimming takes away the blanks around such a text and no more, and a text is cut at a mark behind
any text in which the mark does not begin. -/

namespace MillGateway.Text

theorem trimEnd_eq_self {s : List Char} (h : ∀ c, s.getLast? = some c → isBlank c = false) :
    trimEnd s = s := by
  rw [trimEnd, List.reverse_eq_iff, List.dropWhile_eq_self_iff]
  intro hlen hblank
  have hlast : s.getLast? = some s.reverse[0] := by
    rw [← List.head?_reverse, List.head?_eq_getElem?, List.getElem?_eq_getElem hlen]
  rw [h _ hlast] at hblank
  cases hblank

theorem not_isBlank_getLast_trimEnd {s : List Char} {c : Char}
    (hc : (trimEnd s).getLast? = some c) : isBlank c = false := by
  rw [trimEnd, List.getLast?_reverse] at hc
  have h := List.head?_dropWhile_not isBlank s.reverse
  rw [hc] at h
  simpa using h

structure IsTrimmed (s : List Char) : Prop where
  head : ∀ c, s.head? = some c → isBlank c = false
  last : ∀ c, s.getLast? = some c → isBlank c = false

instance (s : List Char) : Decidable (IsTrimmed s) :=
  decidable_of_iff ((s.head?.all fun c => !isBlank c) && (s.getLast?.all fun c => !isBlank c)) <| by
    rw [Bool.and_eq_true, Option.all_eq_true, Option.all_eq_true]
    exact ⟨fun h => ⟨fun c hc => by simpa using h.1 c hc, fun c hc => by simpa using h.2 c hc⟩,
      fun h => ⟨fun c hc => by simpa using h.head c hc, fun c hc => by simpa using h.last c hc⟩⟩

theorem trimStart_blanks_append {w : List Char} (hw : ∀ c ∈ w, isBlank c = true) (s : List Char) :
    trimStart (w ++ s) = trimStart s :=
  List.dropWhile_append_of_pos hw

theorem trim_append_blanks (s : List Char) {w : List Char} (hw : ∀ c ∈ w, isBlank c = true) :
    trim (s ++ w) = trim s := by
  unfold trim trimStart
  by_cases hs : s.dropWhile isBlank = []
  · have hall : ∀ c ∈ s, isBlank c = true := List.dropWhile_eq_nil_iff.1 hs
    rw [List.dropWhile_append_of_pos hall, List.dropWhile_eq_nil_iff.2 hw, hs]
  · rw [List.dropWhile_append, List.isEmpty_eq_false_iff.2 hs]
    exact trimEnd_append_blanks _ hw

theorem trim_blanks_append {w : List Char} (hw : ∀ c ∈ w, isBlank c = true) (s : List Char) :
    trim (w ++ s) = trim s := by
  rw [trim, trim, trimStart_blanks_append hw]

theorem IsTrimmed.trim_eq {s : List Char} (h : IsTrimmed s) : trim s = s := by
  have hstart : trimStart s = s := by
    cases s with
    | nil => rfl
    | cons c r => exact List.dropWhile_cons_of_neg (by simp [h.head c rfl])
  rw [trim, hstart, trimEnd_eq_self h.last]

theorem IsTrimmed.trim_between {s w w' : List Char} (h : IsTrimmed s)
    (hw : ∀ c ∈ w, isBlank c = true) (hw' : ∀ c ∈ w', isBlank c = true) :
    trim (w ++ s ++ w') = s := by
  rw [trim_append_blanks _ hw', trim_blanks_append hw, h.trim_eq]

theorem exists_trimEnd (s : List Char) :
    ∃ w, s = trimEnd s ++ w ∧ ∀ c ∈ w, isBlank c = true := by
  refine ⟨(s.reverse.takeWhile isBlank).reverse, ?_, fun c hc => ?_⟩
  · rw [trimEnd, ← List.reverse_append, List.takeWhile_append_dropWhile, List.reverse_reverse]
  · exact List.mem_takeWhile_imp (List.mem_reverse.1 hc)

theorem exists_trim (s : List Char) :
    ∃ w w', s = w ++ trim s ++ w' ∧ (∀ c ∈ w, isBlank c = true) ∧ ∀ c ∈ w', isBlank c = true := by
  obtain ⟨w', hend, hw'⟩ := exists_trimEnd (trimStart s)
  refine ⟨s.takeWhile isBlank, w', ?_, fun c => List.mem_takeWhile_imp, hw'⟩
  rw [trim, List.append_assoc, ← hend, trimStart, List.takeWhile_append_dropWhile]

theorem trim_trimEnd (s : List Char) : trim (trimEnd s) = trim s := by
  obtain ⟨w, hs, hw⟩ := exists_trimEnd s
  calc trim (trimEnd s) = trim (trimEnd s ++ w) := (trim_append_blanks _ hw).symm
    _ = trim s := by rw [← hs]

theorem trimEnd_append_cons (s : List Char) {c : Char} (hc : isBlank c = false) (t : List Char) :
    trimEnd (s ++ c :: t) = s ++ c :: trimEnd t := by
  obtain ⟨w, ht, hw⟩ := exists_trimEnd t
  have hcut : trimEnd (s ++ c :: t) = trimEnd (s ++ c :: trimEnd t) := by
    have hsame := trimEnd_append_blanks (s ++ c :: trimEnd t) hw
    rwa [List.append_assoc, List.cons_append, ← ht] at hsame
  rw [hcut]
  refine trimEnd_eq_self fun d hd => ?_
  rw [List.getLast?_append, List.getLast?_cons, Option.some_or] at hd
  cases hlast : (trimEnd t).getLast? with
  | none =>
    rw [hlast] at hd
    exact Option.some.inj hd ▸ hc
  | some e =>
    rw [hlast] at hd
    exact not_isBlank_getLast_trimEnd (hlast.trans hd)

/-! ### Cutting at a mark -/

theorem cutAt?_eq_none {mark s : List Char} (h : ¬ mark <:+: s) : cutAt? mark s = none := by
  induction s with
  | nil =>
    have hmark : mark ≠ [] := fun hnil => h (hnil ▸ List.infix_refl [])
    simp [cutAt?, hmark]
  | cons c r ih =>
    have hhere : mark.isPrefixOf (c :: r) = false := by
      rw [Bool.eq_false_iff, ne_eq, List.isPrefixOf_iff_prefix]
      exact fun hprefix => h hprefix.isInfix
    rw [cutAt?, hhere, ih fun hmark => h (List.infix_cons hmark)]
    rfl

theorem cutAt?_append {mark s : List Char} (hmark : mark ≠ []) (h : ¬ mark <:+: s ++ mark.dropLast)
    (r : List Char) : cutAt? mark (s ++ (mark ++ r)) = some (s, r) := by
  induction s with
  | nil =>
    obtain ⟨c, m, rfl⟩ := List.exists_cons_of_ne_nil hmark
    have hhere : (c :: m).isPrefixOf (c :: (m ++ r)) = true :=
      List.isPrefixOf_iff_prefix.2 (List.prefix_append (c :: m) r)
    rw [List.nil_append, List.cons_append, cutAt?, hhere, if_pos rfl, ← List.cons_append,
      List.drop_left]
  | cons c s ih =>
    -- a mark that began here would end before the one behind `s` does
    have hlength : mark.length ≤ (c :: s ++ mark.dropLast).length := by
      rw [List.length_append, List.length_cons, List.length_dropLast]
      omega
    have hhere : mark.isPrefixOf (c :: (s ++ (mark ++ r))) = false := by
      rw [Bool.eq_false_iff, ne_eq, List.isPrefixOf_iff_prefix]
      intro hprefix
      have hsplit : c :: s ++ mark.dropLast <+: c :: (s ++ (mark ++ r)) :=
        (List.prefix_append_right_inj (c :: s)).2
          ((List.dropLast_prefix mark).trans (List.prefix_append mark r))
      exact h (List.prefix_of_prefix_length_le hprefix hsplit hlength).isInfix
    rw [List.cons_append, cutAt?, hhere, ih fun hmark => h (List.infix_cons hmark)]
    rfl

end MillGateway.Text
