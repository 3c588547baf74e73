import Mathlib.Data.List.TakeWhile
import MillGateway.Text.Blank

/-! How a text is cut into words, and which of its blanks count for nothing. Main statement: a text
has just those words that it writes with blanks between and around them. -/

namespace MillGateway.Text

variable {sep : Char → Bool}

theorem pieces_ne_nil (s : List Char) : pieces sep s ≠ [] := by
  cases s with
  | nil => simp [pieces]
  | cons c r =>
    rw [pieces]
    split
    · simp
    · cases pieces sep r <;> simp [consHead]

theorem consHead_append (c : Char) {ps : List (List Char)} (qs : List (List Char)) (h : ps ≠ []) :
    consHead c (ps ++ qs) = consHead c ps ++ qs := by
  cases ps with
  | nil => contradiction
  | cons p ps => rfl

theorem pieces_append_sep {b : Char} (hb : sep b = true) (s t : List Char) :
    pieces sep (s ++ b :: t) = pieces sep s ++ pieces sep t := by
  induction s with
  | nil => simp [pieces, hb]
  | cons c r ih =>
    rw [List.cons_append, pieces, pieces, ih]
    split
    · rfl
    · exact consHead_append c _ (pieces_ne_nil r)

theorem pieces_of_none {w : List Char} (hw : ∀ c ∈ w, sep c = false) : pieces sep w = [w] := by
  induction w with
  | nil => rfl
  | cons c r ih =>
    have hr : pieces sep r = [r] := ih fun d hd => hw d (List.mem_cons_of_mem _ hd)
    have hc : sep c = false := hw c List.mem_cons_self
    rw [pieces, hr, hc]
    rfl

theorem mem_pieces {s p : List Char} (hp : p ∈ pieces sep s) {c : Char} (hc : c ∈ p) :
    sep c = false ∧ c ∈ s := by
  induction s generalizing p with
  | nil =>
    rw [List.mem_singleton.1 hp] at hc
    contradiction
  | cons d r ih =>
    rw [pieces] at hp
    split at hp
    · rcases List.mem_cons.1 hp with rfl | hp
      · contradiction
      · exact (ih hp hc).imp_right (List.mem_cons_of_mem d)
    · rename_i hd
      have hne : pieces sep r ≠ [] := pieces_ne_nil r
      obtain ⟨q, qs, hq⟩ := List.exists_cons_of_ne_nil hne
      rw [hq, consHead] at hp
      -- the first piece has grown by `d`, which is no separator
      rcases List.mem_cons.1 hp with rfl | hp
      · rcases List.mem_cons.1 hc with rfl | hc
        · exact ⟨by simpa using hd, List.mem_cons_self⟩
        · exact (ih (by simp [hq]) hc).imp_right (List.mem_cons_of_mem d)
      · exact (ih (by simp [hq, hp]) hc).imp_right (List.mem_cons_of_mem d)

theorem mem_words {s w : List Char} (hw : w ∈ words s) {c : Char} (hc : c ∈ w) :
    isBlank c = false ∧ c ∈ s :=
  mem_pieces (List.mem_filter.1 hw).1 hc

theorem words_append_blank {b : Char} (hb : isBlank b = true) (s t : List Char) :
    words (s ++ b :: t) = words s ++ words t := by
  rw [words, pieces_append_sep hb, List.filter_append]
  rfl

theorem words_of_none {w : List Char} (hw : ∀ c ∈ w, isBlank c = false) (hne : w ≠ []) :
    words w = [w] := by
  rw [words, pieces_of_none hw]
  simpa using hne

theorem words_of_blanks {w : List Char} (hw : ∀ c ∈ w, isBlank c = true) : words w = [] := by
  induction w with
  | nil => rfl
  | cons c r ih =>
    have hc := words_append_blank (hw c List.mem_cons_self) [] r
    rw [List.nil_append] at hc
    rw [hc, ih fun d hd => hw d (List.mem_cons_of_mem _ hd)]
    rfl

theorem words_append_blanks (s : List Char) {w : List Char} (hw : ∀ c ∈ w, isBlank c = true) :
    words (s ++ w) = words s := by
  cases w with
  | nil => rw [List.append_nil]
  | cons c r =>
    rw [words_append_blank (hw c List.mem_cons_self),
      words_of_blanks fun d hd => hw d (List.mem_cons_of_mem _ hd), List.append_nil]

/-- Whether a text writes these words in this order. A word goes on up to a blank or the end of the
text, and there may be any blanks around it. -/
inductive Spells : List (List Char) → List Char → Prop
  | nil : Spells [] []
  | blank {ws s} (b : Char) (hb : isBlank b = true) (h : Spells ws s) : Spells ws (b :: s)
  | word {ws s} (w : List Char) (hne : w ≠ []) (hw : ∀ c ∈ w, isBlank c = false)
      (hs : ∀ b ∈ s.head?, isBlank b = true) (h : Spells ws s) : Spells (w :: ws) (w ++ s)

theorem Spells.words_eq {ws : List (List Char)} {s : List Char} (h : Spells ws s) :
    words s = ws := by
  induction h with
  | nil => rfl
  | @blank ws s b hb _ ih =>
    have hcons := words_append_blank hb [] s
    rw [List.nil_append] at hcons
    rw [hcons, ih]
    rfl
  | @word ws s w hne hw hs _ ih =>
    cases s with
    | nil =>
      rw [List.append_nil, words_of_none hw hne, ← ih]
      rfl
    | cons b r =>
      have hb : isBlank b = true := hs b rfl
      have hcons := words_append_blank hb [] r
      rw [List.nil_append] at hcons
      rw [words_append_blank hb, words_of_none hw hne, ← ih, hcons]
      rfl

theorem exists_spells (s : List Char) : ∃ ws, Spells ws s := by
  induction s with
  | nil => exact ⟨[], .nil⟩
  | cons c r ih =>
    obtain ⟨ws, h⟩ := ih
    by_cases hc : isBlank c = true
    · exact ⟨ws, .blank c hc h⟩
    · have hc : isBlank c = false := by simpa using hc
      have hone : ∀ d ∈ [c], isBlank d = false := List.forall_mem_singleton.2 hc
      -- the character begins a word of its own, or the word that the rest begins with
      cases h with
      | nil => exact ⟨_, .word [c] (by simp) hone (by simp) .nil⟩
      | blank b hb h => exact ⟨_, .word [c] (by simp) hone (by simpa using hb) (.blank b hb h)⟩
      | word w hne hw hs h =>
        exact ⟨_, .word (c :: w) (by simp) (List.forall_mem_cons.2 ⟨hc, hw⟩) hs h⟩

theorem spells_iff {ws : List (List Char)} {s : List Char} : Spells ws s ↔ words s = ws := by
  constructor
  · exact Spells.words_eq
  · rintro rfl
    obtain ⟨ws, h⟩ := exists_spells s
    rwa [h.words_eq]

theorem trimEnd_append_blanks (s : List Char) {w : List Char} (hw : ∀ c ∈ w, isBlank c = true) :
    trimEnd (s ++ w) = trimEnd s := by
  have h : ∀ c ∈ w.reverse, isBlank c = true := fun c hc => hw c (List.mem_reverse.1 hc)
  rw [trimEnd, trimEnd, List.reverse_append, List.dropWhile_append_of_pos h]

theorem trim_eq_nil_iff {s : List Char} : trim s = [] ↔ ∀ c ∈ s, isBlank c = true := by
  rw [trim, trimEnd, List.reverse_eq_nil_iff, List.dropWhile_eq_nil_iff]
  simp only [trimStart, List.mem_reverse]
  constructor
  · intro h
    have hall : s.dropWhile isBlank = [] := by
      by_contra hne
      have hhead := List.head_dropWhile_not isBlank hne
      rw [h _ (List.head_mem hne)] at hhead
      contradiction
    exact List.dropWhile_eq_nil_iff.1 hall
  · intro h c hc
    exact h c (List.dropWhile_subset isBlank hc)

end MillGateway.Text
