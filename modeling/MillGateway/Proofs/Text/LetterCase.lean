import Mathlib.Data.List.Basic
import Mathlib.Data.Nat.Bitwise
import MillGateway.Proofs.Text.Trim
import MillGateway.Text.LetterCase

/-! Small letters of a text. Main statements: they are their own small letters, and none is blank
unless it comes of a blank. -/

namespace MillGateway.Text

/-! ### Code points -/

namespace CapitalRun

def members (r : CapitalRun) : List Nat :=
  (List.range ((r.last - r.first) / r.step + 1)).map fun k => r.first + k * r.step

def small (r : CapitalRun) (n : Nat) : Nat :=
  ((n : Int) + r.shift).toNat

end CapitalRun

def capitals : List Nat :=
  capitalRuns.toList.flatMap CapitalRun.members

/-- What becomes of the capitals of all runs, and of the other characters that have small letters.
Zero stands for what is no code point. -/
def smalls : List Nat :=
  [0, 0x69, 0x307, 0x3C2, 0x3C3] ++ capitalRuns.toList.flatMap fun r => r.members.map r.small

def blanks : List Nat :=
  List.range' 9 5 ++ [0x20, 0x85, 0xA0, 0x1680] ++ List.range' 0x2000 11 ++
    [0x2028, 0x2029, 0x202F, 0x205F, 0x3000]

def bits (ns : List Nat) : Nat :=
  ns.foldr (fun n m => m ||| 1 <<< n) 0

theorem testBit_bits {ns : List Nat} {n : Nat} (hn : n ∈ ns) : (bits ns).testBit n = true := by
  induction ns with
  | nil => cases hn
  | cons m ns ih =>
    show (bits ns ||| 1 <<< m).testBit n = true
    rw [Nat.testBit_or, Bool.or_eq_true]
    rcases List.mem_cons.1 hn with rfl | hn
    · right
      rw [Nat.testBit_shiftLeft, Nat.sub_self]
      simp
    · exact .inl (ih hn)

/-- A small letter is no capital and no blank. The sets are compared bit by bit, since there are too
many pairs. -/
theorem not_mem_of_mem_smalls {n : Nat} (hn : n ∈ smalls) :
    n ≠ 0x130 ∧ n ∉ capitals ∧ n ∉ blanks := by
  have hdisjoint : bits smalls &&& bits (0x130 :: (capitals ++ blanks)) = 0 := by
    decide +kernel
  have hother : n ∉ 0x130 :: (capitals ++ blanks) := by
    intro hother
    have hboth := congrArg (Nat.testBit · n) hdisjoint
    rw [Nat.testBit_and, testBit_bits hn, testBit_bits hother] at hboth
    cases hboth.trans (Nat.zero_testBit n)
  rw [List.mem_cons, List.mem_append, not_or, not_or] at hother
  exact hother

theorem mem_blanks {c : Char} (hc : isBlank c = true) : c.toNat ∈ blanks := by
  simp only [isBlank, Bool.or_eq_true, Bool.and_eq_true, decide_eq_true_eq, beq_iff_eq] at hc
  simp only [blanks, List.mem_append, List.mem_range'_1, List.mem_cons, List.not_mem_nil, or_false]
  omega

theorem mem_of_capitalRun? {c : Char} {r : CapitalRun} (h : capitalRun? c = some r) :
    r ∈ capitalRuns.toList ∧ c.toNat ∈ r.members := by
  rw [capitalRun?, ← Array.find?_toList] at h
  have hholds := List.find?_some h
  simp only [Bool.and_eq_true, decide_eq_true_eq, beq_iff_eq] at hholds
  obtain ⟨⟨hfirst, hlast⟩, hstep⟩ := hholds
  refine ⟨List.mem_of_find?_eq_some h, List.mem_map.2 ⟨(c.toNat - r.first) / r.step, ?_, ?_⟩⟩
  · have hle := Nat.div_le_div_right (c := r.step) (Nat.sub_le_sub_right hlast r.first)
    exact List.mem_range.2 (Nat.lt_succ_of_le hle)
  · rw [Nat.div_mul_cancel (Nat.dvd_of_mod_eq_zero hstep)]
    omega

theorem capitalRun?_eq_none {c : Char} (hc : c.toNat ∉ capitals) : capitalRun? c = none := by
  cases h : capitalRun? c with
  | none => rfl
  | some r =>
    obtain ⟨hr, hmem⟩ := mem_of_capitalRun? h
    exact absurd (List.mem_flatMap.2 ⟨r, hr, hmem⟩) hc

/-! ### Characters -/

def IsSmall (c : Char) : Prop :=
  lowerChar c = [c] ∧ c ≠ capitalSigma

def latinRun : CapitalRun :=
  ⟨0x41, 0x5A, 1, 32⟩

theorem latinRun_mem : latinRun ∈ capitalRuns.toList :=
  List.mem_cons_self

theorem mem_latinRun {n : Nat} (hfirst : 0x41 ≤ n) (hlast : n ≤ 0x5A) : n ∈ latinRun.members := by
  simp only [CapitalRun.members, latinRun, List.mem_map, List.mem_range]
  exact ⟨n - 0x41, by omega, by omega⟩

theorem toNat_ofNat {n : Nat} (h : n.isValidChar) : (Char.ofNat n).toNat = n := by
  rw [Char.ofNat, dif_pos h]
  rfl

theorem toNat_ofNat_cases (n : Nat) : (Char.ofNat n).toNat = n ∨ (Char.ofNat n).toNat = 0 := by
  by_cases h : n.isValidChar
  · exact .inl (toNat_ofNat h)
  · right
    rw [Char.ofNat, dif_neg h]
    rfl

theorem toLower_of_upper {c : Char} (hfirst : 0x41 ≤ c.toNat) (hlast : c.toNat ≤ 0x5A) :
    c.toLower = Char.ofNat (latinRun.small c.toNat) := by
  have hvalid : (c.toNat + 32).isValidChar := .inl (by omega)
  have hup : c.val ≥ 'A'.val ∧ c.val ≤ 'Z'.val := ⟨hfirst, hlast⟩
  have hval : c.val.toNat ≤ 0x5A := hlast
  refine Eq.trans (dif_pos hup) (Char.toNat_inj.1 ?_)
  show (c.val + 32).toNat = (Char.ofNat (c.toNat + 32)).toNat
  rw [toNat_ofNat hvalid, UInt32.toNat_add]
  exact Nat.mod_eq_of_lt (by simp only [UInt32.reduceToNat]; omega)

theorem toLower_of_not_upper {c : Char} (h : ¬ (0x41 ≤ c.toNat ∧ c.toNat ≤ 0x5A)) :
    c.toLower = c := by
  have hup : ¬ (c.val ≥ 'A'.val ∧ c.val ≤ 'Z'.val) := h
  exact dif_neg hup

theorem isSmall_of_capitalRun? {c : Char} (hrun : capitalRun? c = none) (hdot : c.toNat ≠ 0x130) :
    IsSmall c := by
  have hsigma : c ≠ capitalSigma := by
    rintro rfl
    have hsome : (capitalRun? capitalSigma).isSome = true := by decide +kernel
    rw [hrun] at hsome
    cases hsome
  have hupper : ¬ (0x41 ≤ c.toNat ∧ c.toNat ≤ 0x5A) := by
    rw [capitalRun?, ← Array.find?_toList, List.find?_eq_none] at hrun
    rintro ⟨hfirst, hlast⟩
    exact hrun latinRun latinRun_mem (by simp [latinRun, Nat.mod_one, hfirst, hlast])
  refine ⟨?_, hsigma⟩
  rw [lowerChar, hrun, if_neg hdot, toLower_of_not_upper hupper]
  split <;> rfl

theorem isSmall_of_mem_smalls {n : Nat} (hn : n ∈ smalls) :
    IsSmall (Char.ofNat n) ∧ isBlank (Char.ofNat n) = false := by
  have hmem : (Char.ofNat n).toNat ∈ smalls := by
    rcases toNat_ofNat_cases n with h | h
    · rwa [h]
    · rw [h]
      exact List.mem_cons_self
  obtain ⟨hdot, hcapital, hblank⟩ := not_mem_of_mem_smalls hmem
  refine ⟨isSmall_of_capitalRun? (capitalRun?_eq_none hcapital) hdot, ?_⟩
  exact eq_false_of_ne_true fun h => hblank (mem_blanks h)

theorem mem_smalls_of_run {r : CapitalRun} {n : Nat} (hr : r ∈ capitalRuns.toList)
    (hn : n ∈ r.members) : r.small n ∈ smalls :=
  List.mem_append_right _ (List.mem_flatMap.2 ⟨r, hr, List.mem_map_of_mem hn⟩)

theorem capitalRun?_of_ascii {c : Char} (hascii : c.toNat < 0x80)
    (h : ¬ (0x41 ≤ c.toNat ∧ c.toNat ≤ 0x5A)) : capitalRun? c = none := by
  have hall : (capitalRuns.toList.all fun q => decide (0x80 ≤ q.first) ||
      (q.first == 0x41 && q.last == 0x5A)) = true := by
    decide +kernel
  rw [capitalRun?, ← Array.find?_toList, List.find?_eq_none]
  intro q hq hholds
  have hq := List.all_eq_true.1 hall q hq
  simp only [Bool.or_eq_true, Bool.and_eq_true, decide_eq_true_eq, beq_iff_eq] at hq hholds
  omega

theorem mem_lowerChar_cases {c d : Char} (hd : d ∈ lowerChar c) :
    (∃ n ∈ smalls, d = Char.ofNat n) ∨ d = c ∧ IsSmall c := by
  rw [lowerChar] at hd
  split at hd
  next hascii =>
    rw [List.mem_singleton] at hd
    by_cases hupper : 0x41 ≤ c.toNat ∧ c.toNat ≤ 0x5A
    · rw [toLower_of_upper hupper.1 hupper.2] at hd
      exact .inl ⟨_, mem_smalls_of_run latinRun_mem (mem_latinRun hupper.1 hupper.2), hd⟩
    · rw [toLower_of_not_upper hupper] at hd
      exact .inr ⟨hd, isSmall_of_capitalRun? (capitalRun?_of_ascii hascii hupper) (by omega)⟩
  next =>
    split at hd
    next =>
      have hn : ∃ n ∈ [0x69, 0x307], d = Char.ofNat n := by simpa using hd
      obtain ⟨n, hn, rfl⟩ := hn
      refine .inl ⟨n, List.mem_append_left _ ?_, rfl⟩
      revert n
      decide
    next hdot =>
      split at hd
      next r hrun =>
        obtain ⟨hr, hmem⟩ := mem_of_capitalRun? hrun
        exact .inl ⟨_, mem_smalls_of_run hr hmem, List.mem_singleton.1 hd⟩
      next hrun => exact .inr ⟨List.mem_singleton.1 hd, isSmall_of_capitalRun? hrun hdot⟩

/-! ### Texts -/

def smallBetween (before : List Char) (c : Char) (after : List Char) : List Char :=
  if c = capitalSigma then
    [Char.ofNat (if startsCased before && !startsCased after then 0x3C2 else 0x3C3)]
  else lowerChar c

theorem lowerAfter_cons (before : List Char) (c : Char) (r : List Char) :
    lowerAfter before (c :: r) = smallBetween before c r ++ lowerAfter (c :: before) r :=
  rfl

theorem mem_smallBetween_cases {before after : List Char} {c d : Char}
    (hd : d ∈ smallBetween before c after) :
    (∃ n ∈ smalls, d = Char.ofNat n) ∨ d = c ∧ IsSmall c := by
  rw [smallBetween] at hd
  split at hd
  next =>
    refine .inl ⟨_, List.mem_append_left _ ?_, List.mem_singleton.1 hd⟩
    split <;> decide
  next => exact mem_lowerChar_cases hd

theorem isSmall_of_mem_smallBetween {before after : List Char} {c d : Char}
    (hd : d ∈ smallBetween before c after) : IsSmall d ∧ (isBlank d = true → isBlank c = true) := by
  rcases mem_smallBetween_cases hd with ⟨n, hn, rfl⟩ | ⟨rfl, hsmall⟩
  · obtain ⟨hsmall, hblank⟩ := isSmall_of_mem_smalls hn
    refine ⟨hsmall, fun h => ?_⟩
    rw [hblank] at h
    cases h
  · exact ⟨hsmall, id⟩

theorem isSmall_of_mem_lowerAfter {before s : List Char} {d : Char}
    (hd : d ∈ lowerAfter before s) : IsSmall d := by
  induction s generalizing before with
  | nil => cases hd
  | cons c r ih =>
    rw [lowerAfter_cons] at hd
    rcases List.mem_append.1 hd with hd | hd
    · exact (isSmall_of_mem_smallBetween hd).1
    · exact ih hd

theorem lowerAfter_of_isSmall {before s : List Char} (hs : ∀ c ∈ s, IsSmall c) :
    lowerAfter before s = s := by
  induction s generalizing before with
  | nil => rfl
  | cons c r ih =>
    obtain ⟨hsmall, hsigma⟩ := hs c List.mem_cons_self
    rw [lowerAfter_cons, smallBetween, if_neg hsigma, hsmall,
      ih fun d hd => hs d (List.mem_cons_of_mem _ hd)]
    rfl

theorem lower_lower (s : List Char) : lower (lower s) = lower s :=
  lowerAfter_of_isSmall fun _ => isSmall_of_mem_lowerAfter

theorem lowerChar_ne_nil (c : Char) : lowerChar c ≠ [] := by
  rw [lowerChar]
  split_ifs
  · simp
  · simp
  · cases capitalRun? c <;> simp

theorem smallBetween_ne_nil (before : List Char) (c : Char) (after : List Char) :
    smallBetween before c after ≠ [] := by
  rw [smallBetween]
  split
  · simp
  · exact lowerChar_ne_nil c

theorem isBlank_getLast_lowerAfter {before s : List Char} {d : Char}
    (hd : (lowerAfter before s).getLast? = some d) (hblank : isBlank d = true) :
    ∃ c, s.getLast? = some c ∧ isBlank c = true := by
  induction s generalizing before with
  | nil => cases hd
  | cons c r ih =>
    rw [lowerAfter_cons] at hd
    cases r with
    | nil =>
      have hd : d ∈ smallBetween before c [] := by
        rw [lowerAfter, List.append_nil] at hd
        exact List.mem_of_getLast? hd
      exact ⟨c, rfl, (isSmall_of_mem_smallBetween hd).2 hblank⟩
    | cons c' r =>
      have hne : lowerAfter (c :: before) (c' :: r) ≠ [] := by
        rw [lowerAfter_cons]
        exact List.append_ne_nil_of_left_ne_nil (smallBetween_ne_nil _ _ _) _
      rw [List.getLast?_append_of_ne_nil _ hne] at hd
      obtain ⟨e, he, hblank⟩ := ih hd
      exact ⟨e, by rw [List.getLast?_cons_cons, he], hblank⟩

theorem trimEnd_lower_trimEnd (s : List Char) :
    trimEnd (lower (trimEnd s)) = lower (trimEnd s) := by
  refine trimEnd_eq_self fun d hd => ?_
  by_contra hblank
  obtain ⟨c, hc, hcblank⟩ := isBlank_getLast_lowerAfter hd (eq_true_of_ne_false hblank)
  rw [not_isBlank_getLast_trimEnd hc] at hcblank
  cases hcblank

end MillGateway.Text
