import Mathlib.Data.List.Infix
import MillGateway.Ini
import MillGateway.Proofs.Text.Segments
import MillGateway.Proofs.Text.Trim

/-! Settings as a document: sections with entries, and the texts that write them, with white space,
remarks and lines of other kinds wherever they may stand. Main statements: a text has the entries of
the document that it writes, a lookup finds the value of the first of them, and what is appended to
a text does not hide what stood there before. -/

namespace MillGateway.Ini

open Text

/-! ### Documents -/

structure Label where
  text : String
  trimmed : IsTrimmed text.toList
  oneLine : '\n' ∉ text.toList

structure Setting where
  key : Label
  value : Label
  key_bare : '=' ∉ key.text.toList
  key_opening : ∀ c, key.text.toList.head? = some c → c ≠ '#' ∧ c ≠ ';' ∧ c ≠ '['
  value_bare : ¬ [' ', '#'] <:+: value.text.toList
  value_opening : value.text.toList.head? ≠ some '#'

structure Chapter where
  name : Label
  settings : List Setting

structure Document where
  opening : List Setting
  chapters : List Chapter

def Setting.entry (sect : String) (x : Setting) : Entry :=
  ⟨sect, x.key.text, x.value.text⟩

def Chapter.entries (c : Chapter) : List Entry :=
  c.settings.map (Setting.entry c.name.text)

def Document.entries (d : Document) : List Entry :=
  d.opening.map (Setting.entry "") ++ d.chapters.flatMap Chapter.entries

def Entry.IsFor (e : Entry) (sect key : String) : Prop :=
  e.sect = sect ∧ e.key = key

/-- Whether the first of the entries for a key in a section has this value. -/
def Tells (es : List Entry) (sect key value : String) : Prop :=
  ∃ before after, es = before ++ ⟨sect, key, value⟩ :: after ∧ ∀ e ∈ before, ¬ e.IsFor sect key

/-! ### Texts -/

inductive Statement where
  | header (name : Label)
  | setting (x : Setting)

def Chapter.statements (c : Chapter) : List Statement :=
  .header c.name :: c.settings.map .setting

def Document.statements (d : Document) : List Statement :=
  d.opening.map .setting ++ d.chapters.flatMap Chapter.statements

def IsGap (w : List Char) : Prop :=
  ∀ c ∈ w, isBlank c = true ∧ c ≠ '\n'

instance (w : List Char) : Decidable (IsGap w) :=
  decidable_of_iff (w.all fun c => isBlank c && c != '\n') (by simp [IsGap])

def IsRemark (r : List Char) : Prop :=
  r = [] ∨ ∃ s, r = ' ' :: '#' :: s ∧ '\n' ∉ s

inductive Statement.IsLine : Statement → List Char → Prop
  | header {name : Label} {w w₁ w₂ w' : List Char} (hw : IsGap w) (hw₁ : IsGap w₁)
      (hw₂ : IsGap w₂) (hw' : IsGap w') :
      IsLine (.header name) (w ++ '[' :: (w₁ ++ name.text.toList ++ w₂ ++ ']' :: w'))
  | setting {x : Setting} {w w₁ w₂ w' r : List Char} (hw : IsGap w) (hw₁ : IsGap w₁)
      (hw₂ : IsGap w₂) (hw' : IsGap w') (hr : IsRemark r) :
      IsLine (.setting x) (w ++ (x.key.text.toList ++ w₁ ++
        '=' :: (w₂ ++ x.value.text.toList ++ w' ++ r)))

def InBrackets (l : List Char) : Prop :=
  ∃ w s w', l = w ++ '[' :: (s ++ ']' :: w') ∧ IsGap w ∧ IsGap w'

inductive IsVoid : List Char → Prop
  | blank {w : List Char} (hw : IsGap w) : IsVoid w
  | comment {w s : List Char} {c : Char} (hw : IsGap w) (hc : c = '#' ∨ c = ';') (hs : '\n' ∉ s) :
      IsVoid (w ++ c :: s)
  | other {l : List Char} (hline : '\n' ∉ l) (hbare : '=' ∉ l) (hheader : ¬ InBrackets l) :
      IsVoid l

/-- Whether `e` may end a line in front of the rest of a text. The last line may be without end. -/
def IsLineEnd (e rest : List Char) : Prop :=
  e = ['\n'] ∨ e = ['\r', '\n'] ∨ e = [] ∧ rest = []

/-- Whether a text writes these statements, each in a line, with other lines between them. -/
inductive Writes : List Statement → List Char → Prop
  | nil : Writes [] []
  | void {l e t : List Char} {ss : List Statement} (hl : IsVoid l) (he : IsLineEnd e t)
      (h : Writes ss t) : Writes ss (l ++ (e ++ t))
  | statement {x : Statement} {l e t : List Char} {ss : List Statement} (hl : x.IsLine l)
      (he : IsLineEnd e t) (h : Writes ss t) : Writes (x :: ss) (l ++ (e ++ t))

/-! ### Lines -/

section

variable {w w' s : List Char}

theorem IsGap.blank (h : IsGap w) : ∀ c ∈ w, isBlank c = true :=
  fun c hc => (h c hc).1

theorem IsGap.oneLine (h : IsGap w) : '\n' ∉ w :=
  fun hc => (h _ hc).2 rfl

theorem IsVoid.oneLine {l : List Char} (h : IsVoid l) : '\n' ∉ l := by
  cases h with
  | blank hw => exact hw.oneLine
  | @comment w s c hw hc hs =>
    have hmark : '\n' ≠ c := by
      rintro rfl
      simp at hc
    simp [hw.oneLine, hs, hmark]
  | other hline => exact hline

theorem Statement.IsLine.oneLine {x : Statement} {l : List Char} (h : x.IsLine l) : '\n' ∉ l := by
  cases h with
  | @header name w w₁ w₂ w' hw hw₁ hw₂ hw' =>
    simp [hw.oneLine, hw₁.oneLine, hw₂.oneLine, hw'.oneLine, name.oneLine]
  | @setting x w w₁ w₂ w' r hw hw₁ hw₂ hw' hr =>
    have hremark : '\n' ∉ r := by
      rcases hr with rfl | ⟨s, rfl, hs⟩
      · simp
      · simpa using hs
    simp [hw.oneLine, hw₁.oneLine, hw₂.oneLine, hw'.oneLine, x.key.oneLine, x.value.oneLine,
      hremark]

theorem readLine_append_blanks (s : List Char) (hw : ∀ c ∈ w, isBlank c = true) :
    readLine (s ++ w) = readLine s := by
  rw [readLine, readLine, trim_append_blanks s hw]

theorem readTrimmed_of_head (hs : s ≠ [])
    (hopening : ∀ c, s.head? = some c → c ≠ '#' ∧ c ≠ ';') :
    readTrimmed s = match bracketed? s with
      | some name => .header (String.ofList (trim name))
      | none => match cutAt? ['='] s with
        | some (k, v) =>
          .entry (String.ofList (trim k)) (String.ofList (trim (dropRemark v)))
        | none => .void := by
  unfold readTrimmed
  split
  · exact absurd rfl hs
  · exact absurd rfl (hopening '#' rfl).1
  · exact absurd rfl (hopening ';' rfl).2
  · rfl

theorem bracketed?_of_head (h : s.head? ≠ some '[') : bracketed? s = none := by
  unfold bracketed?
  split
  · exact absurd rfl h
  · rfl

theorem bracketed?_brackets (s : List Char) : bracketed? ('[' :: (s ++ [']'])) = some s := by
  simp [bracketed?]

theorem eq_brackets_of_bracketed? {name : List Char} (h : bracketed? s = some name) :
    s = '[' :: (name ++ [']']) := by
  unfold bracketed? at h
  split at h
  next r =>
    split at h
    next r' hr =>
      cases h
      rw [← List.reverse_reverse r, hr, List.reverse_cons]
    next => cases h
  next => cases h

/-! ### What lines say -/

theorem isTrimmed_brackets (s : List Char) : IsTrimmed ('[' :: (s ++ [']'])) := by
  refine ⟨fun c hc => ?_, fun c hc => ?_⟩
  · cases hc
    rfl
  · rw [← List.cons_append, List.getLast?_concat] at hc
    cases hc
    rfl

theorem readLine_header {name : Label} {l : List Char} (h : (Statement.header name).IsLine l) :
    readLine l = .header name.text := by
  cases h with
  | @header _ w w₁ w₂ w' hw hw₁ hw₂ hw' =>
    have hline : w ++ '[' :: (w₁ ++ name.text.toList ++ w₂ ++ ']' :: w') =
        w ++ '[' :: ((w₁ ++ name.text.toList ++ w₂) ++ [']']) ++ w' := by simp
    rw [hline, readLine, (isTrimmed_brackets _).trim_between hw.blank hw'.blank,
      readTrimmed_of_head (List.cons_ne_nil _ _) (by simp), bracketed?_brackets]
    dsimp only
    rw [name.trimmed.trim_between hw₁.blank hw₂.blank, String.ofList_toList]

theorem readLine_void {l : List Char} (h : IsVoid l) : readLine l = .void := by
  cases h with
  | blank hw =>
    rw [readLine, trim_eq_nil_iff.2 hw.blank]
    rfl
  | @comment w s c hw hc hs =>
    have hblank : isBlank c = false := by
      rcases hc with rfl | rfl
      · rfl
      · rfl
    rw [readLine, trim_blanks_append hw.blank, trim]
    have hstart : trimStart (c :: s) = c :: s := List.dropWhile_cons_of_neg (by simp [hblank])
    rw [hstart]
    have hend := trimEnd_append_cons [] hblank s
    rw [List.nil_append, List.nil_append] at hend
    rw [hend]
    rcases hc with rfl | rfl
    · rfl
    · rfl
  | other hline hbare hheader =>
    obtain ⟨w, w', hl, hw, hw'⟩ := exists_trim l
    have hgaps : IsGap w ∧ IsGap w' := by
      refine ⟨fun c hc => ⟨hw c hc, ?_⟩, fun c hc => ⟨hw' c hc, ?_⟩⟩
      · rintro rfl
        exact hline (hl ▸ by simp [hc])
      · rintro rfl
        exact hline (hl ▸ by simp [hc])
    have hbrackets : bracketed? (trim l) = none := by
      by_contra hsome
      obtain ⟨name, hname⟩ := Option.ne_none_iff_exists'.1 hsome
      rw [eq_brackets_of_bracketed? hname] at hl
      exact hheader ⟨w, name, w', by simpa using hl, hgaps⟩
    have hcut : cutAt? ['='] (trim l) = none := by
      refine cutAt?_eq_none fun hmark => hbare ?_
      rw [hl]
      simp [hmark.subset List.mem_cons_self]
    rw [readLine]
    unfold readTrimmed
    split
    · rfl
    · rfl
    · rfl
    · rw [hbrackets, hcut]

theorem Setting.noRemark (x : Setting) (hw : ∀ c ∈ w, isBlank c = true)
    (hw' : ∀ c ∈ w', isBlank c = true) : ¬ [' ', '#'] <:+: w ++ x.value.text.toList ++ w' := by
  have hmark : ∀ {u : List Char}, (∀ c ∈ u, isBlank c = true) → '#' ∉ u := fun hu hc =>
    absurd (hu _ hc) (by decide)
  intro h
  have hinner : [' ', '#'] <:+: w ++ x.value.text.toList := by
    rcases List.infix_append_iff.1 h with h | h | ⟨m₁, m₂, hm, hm₁, hm₂⟩
    · exact h
    · exact absurd (h.subset (by simp)) (hmark hw')
    · -- the number sign is no blank, so the mark ends in front of the blanks
      rcases List.eq_nil_or_concat m₂ with rfl | ⟨m, c, rfl⟩
      · rw [List.append_nil] at hm
        exact hm ▸ hm₁.isInfix
      · rw [List.concat_eq_append, ← List.append_assoc] at hm
        obtain rfl : '#' = c := by
          have hlast := congrArg List.getLast? hm
          simpa using hlast
        exact absurd (hm₂.subset (by simp)) (hmark hw')
  rcases List.infix_append_iff.1 hinner with h | h | ⟨m₁, m₂, hm, hm₁, hm₂⟩
  · exact absurd (h.subset (by simp)) (hmark hw)
  · exact x.value_bare h
  · rcases m₁ with _ | ⟨c, _ | ⟨d, m₁⟩⟩
    · exact x.value_bare (by simpa using hm ▸ hm₂.isInfix)
    · obtain ⟨-, rfl⟩ := List.cons.inj hm
      obtain ⟨t, ht⟩ := hm₂
      exact x.value_opening (by simp [← ht])
    · obtain ⟨-, hm⟩ := List.cons.inj hm
      obtain ⟨rfl, -⟩ := List.cons.inj hm
      exact absurd (hm₁.subset (by simp)) (hmark hw)

theorem Setting.trim_dropRemark (x : Setting) {w w' r : List Char} (hw : ∀ c ∈ w, isBlank c = true)
    (hw' : ∀ c ∈ w', isBlank c = true) (hr : IsRemark r) :
    trim (dropRemark (trimEnd (w ++ x.value.text.toList ++ w' ++ r))) = x.value.text.toList := by
  rcases hr with rfl | ⟨s, rfl, -⟩
  · have hnone : ¬ [' ', '#'] <:+: trimEnd (w ++ x.value.text.toList ++ w') := by
      obtain ⟨u, hu, -⟩ := exists_trimEnd (w ++ x.value.text.toList ++ w')
      exact fun h => x.noRemark hw hw' (h.trans (hu ▸ List.prefix_append _ u).isInfix)
    rw [List.append_nil, dropRemark, cutAt?_eq_none hnone]
    dsimp only
    rw [trim_trimEnd, x.value.trimmed.trim_between hw hw']
  · have hspace : ∀ c ∈ w' ++ [' '], isBlank c = true := by
      intro c hc
      rcases List.mem_append.1 hc with hc | hc
      · exact hw' c hc
      · rw [List.mem_singleton.1 hc]
        rfl
    have hcut : cutAt? [' ', '#'] (w ++ x.value.text.toList ++ w' ++ ([' ', '#'] ++ trimEnd s)) =
        some (w ++ x.value.text.toList ++ w', trimEnd s) := by
      refine cutAt?_append (List.cons_ne_nil _ _) ?_ _
      have hnone := x.noRemark hw hspace
      rwa [← List.append_assoc] at hnone
    have hline : w ++ x.value.text.toList ++ w' ++ ' ' :: '#' :: s =
        (w ++ x.value.text.toList ++ w' ++ [' ']) ++ '#' :: s := by simp
    have hend : trimEnd (w ++ x.value.text.toList ++ w' ++ ' ' :: '#' :: s) =
        w ++ x.value.text.toList ++ w' ++ ([' ', '#'] ++ trimEnd s) := by
      rw [hline, trimEnd_append_cons _ (by rfl)]
      simp
    rw [hend, dropRemark, hcut]
    exact x.value.trimmed.trim_between hw hw'

theorem Setting.exists_trimStart (x : Setting) (hw : ∀ c ∈ w, isBlank c = true)
    (hw' : ∀ c ∈ w', isBlank c = true) (v : List Char) :
    ∃ k, trimStart (w ++ (x.key.text.toList ++ w' ++ '=' :: v)) = k ++ '=' :: v ∧
      trim k = x.key.text.toList ∧ '=' ∉ k ∧
      ∀ c, k.head? = some c → c ≠ '#' ∧ c ≠ ';' ∧ c ≠ '[' := by
  rw [trimStart_blanks_append hw]
  have hbare : '=' ∉ x.key.text.toList ++ w' := by
    rw [List.mem_append, not_or]
    exact ⟨x.key_bare, fun hc => absurd (hw' _ hc) (by decide)⟩
  have hopening := x.key_opening
  have htrimmed := x.key.trimmed
  cases hkey : x.key.text.toList with
  | nil =>
    refine ⟨[], ?_, rfl, List.not_mem_nil, nofun⟩
    rw [List.nil_append, trimStart_blanks_append hw']
    rfl
  | cons c r =>
    rw [hkey] at hbare hopening htrimmed
    have hc : isBlank c = false := htrimmed.head c rfl
    refine ⟨c :: r ++ w', List.dropWhile_cons_of_neg (by simp [hc]), ?_, hbare, hopening⟩
    rw [trim_append_blanks _ hw', htrimmed.trim_eq]

theorem readLine_setting {x : Setting} {l : List Char} (h : (Statement.setting x).IsLine l) :
    readLine l = .entry x.key.text x.value.text := by
  cases h with
  | @setting _ w w₁ w₂ w' r hw hw₁ hw₂ hw' hr =>
    obtain ⟨k, hstart, hk, hbare, hopening⟩ := x.exists_trimStart hw.blank hw₁.blank
      (w₂ ++ x.value.text.toList ++ w' ++ r)
    have htrim : trim (w ++ (x.key.text.toList ++ w₁ ++
        '=' :: (w₂ ++ x.value.text.toList ++ w' ++ r))) =
          k ++ (['='] ++ trimEnd (w₂ ++ x.value.text.toList ++ w' ++ r)) := by
      rw [trim, hstart, trimEnd_append_cons _ (by rfl)]
      rfl
    have hopening' : ∀ c, (k ++ (['='] ++ trimEnd (w₂ ++ x.value.text.toList ++ w' ++ r))).head? =
        some c → c ≠ '#' ∧ c ≠ ';' ∧ c ≠ '[' := by
      intro c hc
      cases k with
      | nil =>
        cases hc
        decide
      | cons d k => exact hopening c hc
    have hcut : cutAt? ['='] (k ++ (['='] ++ trimEnd (w₂ ++ x.value.text.toList ++ w' ++ r))) =
        some (k, trimEnd (w₂ ++ x.value.text.toList ++ w' ++ r)) := by
      refine cutAt?_append (List.cons_ne_nil _ _) ?_ _
      rw [List.dropLast_singleton, List.append_nil]
      exact fun hmark => hbare (hmark.subset List.mem_cons_self)
    rw [readLine, htrim, readTrimmed_of_head (by simp)
        fun c hc => ⟨(hopening' c hc).1, (hopening' c hc).2.1⟩,
      bracketed?_of_head fun hc => (hopening' _ hc).2.2 rfl, hcut]
    dsimp only
    rw [hk, x.trim_dropRemark hw₂.blank hw'.blank hr, String.ofList_toList, String.ofList_toList]

end

/-! ### Texts and lookups -/

section

variable {sect : String} {l l' : List Char} {ls ls' : List (List Char)}

theorem entriesOf_cons_of_readLine (h : readLine l = readLine l') :
    entriesOf sect (l :: ls) = entriesOf sect (l' :: ls) := by
  rw [entriesOf, entriesOf, h]

theorem entriesOf_map_dropTerminator (sect : String) (ls : List (List Char)) :
    entriesOf sect (ls.map dropTerminator) = entriesOf sect ls := by
  induction ls generalizing sect with
  | nil => rfl
  | cons l ls ih =>
    obtain ⟨w, hl, hw⟩ := exists_terminator l
    have hline : readLine (dropTerminator l) = readLine l := by
      have hsame := readLine_append_blanks (dropTerminator l) hw
      rw [← hl] at hsame
      exact hsame.symm
    rw [List.map_cons, entriesOf, entriesOf, hline]
    split
    · exact ih sect
    · exact ih _
    · rw [ih sect]

theorem entries_parse (text : String) :
    (parse text).entries = entriesOf "" (segments text.toList) :=
  entriesOf_map_dropTerminator "" (segments text.toList)

theorem exists_entriesOf_append (sect : String) (ls ls' : List (List Char)) :
    ∃ es, entriesOf sect (ls ++ ls') = entriesOf sect ls ++ es := by
  induction ls generalizing sect with
  | nil => exact ⟨_, rfl⟩
  | cons l ls ih =>
    rw [List.cons_append, entriesOf, entriesOf]
    split
    · exact ih sect
    · exact ih _
    · obtain ⟨es, hes⟩ := ih sect
      exact ⟨es, by rw [hes, List.cons_append]⟩

theorem entriesOf_line {e t : List Char} (hl : '\n' ∉ l) (he : IsLineEnd e t) :
    entriesOf sect (segments (l ++ (e ++ t))) = entriesOf sect (l :: segments t) := by
  rcases he with rfl | rfl | ⟨rfl, rfl⟩
  · rw [List.singleton_append, segments_line hl]
    exact entriesOf_cons_of_readLine (readLine_append_blanks l isBlank_feed)
  · have hl' : '\n' ∉ l ++ ['\r'] := by simpa using hl
    have hline : l ++ (['\r', '\n'] ++ t) = (l ++ ['\r']) ++ '\n' :: t := by simp
    rw [hline, segments_line hl', List.append_assoc]
    exact entriesOf_cons_of_readLine (readLine_append_blanks l isBlank_carriageFeed)
  · by_cases hnil : l = []
    · rw [hnil]
      rfl
    · rw [List.append_nil, List.append_nil, segments_of_none hl hnil]
      rfl

end

def entriesFrom (sect : String) : List Statement → List Entry
  | [] => []
  | .header name :: xs => entriesFrom name.text xs
  | .setting x :: xs => x.entry sect :: entriesFrom sect xs

theorem entriesFrom_settings (sect : String) (ys : List Setting) (xs : List Statement) :
    entriesFrom sect (ys.map .setting ++ xs) =
      ys.map (Setting.entry sect) ++ entriesFrom sect xs := by
  induction ys with
  | nil => rfl
  | cons y ys ih => rw [List.map_cons, List.cons_append, entriesFrom, ih, List.map_cons,
      List.cons_append]

theorem entriesFrom_chapters (sect : String) (cs : List Chapter) :
    entriesFrom sect (cs.flatMap Chapter.statements) = cs.flatMap Chapter.entries := by
  induction cs generalizing sect with
  | nil => rfl
  | cons c cs ih =>
    rw [List.flatMap_cons, List.flatMap_cons, Chapter.statements, List.cons_append, entriesFrom,
      entriesFrom_settings, ih]
    rfl

theorem Document.entriesFrom_statements (d : Document) :
    entriesFrom "" d.statements = d.entries := by
  rw [statements, entriesFrom_settings, entriesFrom_chapters]
  rfl

theorem Writes.entriesOf_eq {xs : List Statement} {t : List Char} (h : Writes xs t)
    (sect : String) : entriesOf sect (segments t) = entriesFrom sect xs := by
  induction h generalizing sect with
  | nil => rfl
  | void hl he _ ih => rw [entriesOf_line hl.oneLine he, entriesOf, readLine_void hl, ih]
  | @statement x l e t xs hl he _ ih =>
    rw [entriesOf_line hl.oneLine he, entriesOf]
    cases x with
    | header name =>
      rw [readLine_header hl]
      exact ih _
    | setting x =>
      rw [readLine_setting hl]
      exact congrArg (x.entry sect :: ·) (ih sect)

theorem entries_of_writes {d : Document} {text : String} (h : Writes d.statements text.toList) :
    (parse text).entries = d.entries := by
  rw [entries_parse, h.entriesOf_eq, d.entriesFrom_statements]

/-! ### Lookups -/

section

variable {ini ini' : Ini} {es : List Entry} {sect key value : String}

theorem tells_iff : Tells es sect key value ↔
    es.find? (fun e => e.sect == sect && e.key == key) = some ⟨sect, key, value⟩ := by
  rw [List.find?_eq_some_iff_append]
  simp [Tells, Entry.IsFor, imp_iff_not_or]

theorem find_eq_some_iff :
    ini.find sect key = some value ↔ Tells ini.entries sect key value ∧ value ≠ "" := by
  rw [find, Option.filter_eq_some_iff, Option.map_eq_some_iff, tells_iff]
  refine and_congr ⟨?_, fun h => ⟨_, h, rfl⟩⟩ (by simp)
  rintro ⟨⟨s, k, v⟩, hfirst, rfl⟩
  obtain ⟨rfl, rfl⟩ := by simpa using List.find?_some hfirst
  exact hfirst

theorem find_eq_none_iff : ini.find sect key = none ↔
    (∀ e ∈ ini.entries, ¬ e.IsFor sect key) ∨ Tells ini.entries sect key "" := by
  rw [find, tells_iff]
  cases hfirst : ini.entries.find? fun e => e.sect == sect && e.key == key with
  | none => simpa [Entry.IsFor] using hfirst
  | some e =>
    have hfor : e.IsFor sect key := by simpa [Entry.IsFor] using List.find?_some hfirst
    obtain ⟨rfl, rfl⟩ := hfor
    have hsome : ¬ ∀ e' ∈ ini.entries, ¬ e'.IsFor e.sect e.key :=
      fun hall => hall e (List.mem_of_find?_eq_some hfirst) ⟨rfl, rfl⟩
    rcases e with ⟨s, k, v⟩
    simp [hsome]

theorem find_append (hentries : ini'.entries = ini.entries ++ es)
    (h : ∃ e ∈ ini.entries, e.IsFor sect key) : ini'.find sect key = ini.find sect key := by
  have hsome : (ini.entries.find? fun e => e.sect == sect && e.key == key).isSome = true := by
    rw [List.find?_isSome]
    obtain ⟨e, he, rfl, rfl⟩ := h
    exact ⟨e, he, by simp⟩
  rw [find, find, hentries, List.find?_append, Option.or_of_isSome hsome]

end

/-- A lookup in a text that writes a document finds the value of the first entry for the key in the
section, and nothing if there is none or its value is empty. If a text has an entry, another text
that is appended to it does not change the lookup. -/
theorem find_first_entry (sect key : String) :
    (∀ (d : Document) (text : String), Writes d.statements text.toList →
      (∀ value, (parse text).find sect key = some value ↔
        Tells d.entries sect key value ∧ value ≠ "") ∧
      ((parse text).find sect key = none ↔
        (∀ e ∈ d.entries, ¬ e.IsFor sect key) ∨ Tells d.entries sect key "")) ∧
    ∀ a b : String, Ended a.toList → (∃ e ∈ (parse a).entries, e.IsFor sect key) →
      (parse (a ++ b)).find sect key = (parse a).find sect key := by
  refine ⟨fun d text h => ⟨fun value => ?_, ?_⟩, fun a b ha hentry => ?_⟩
  · rw [find_eq_some_iff, entries_of_writes h]
  · rw [find_eq_none_iff, entries_of_writes h]
  · obtain ⟨es, hes⟩ := exists_entriesOf_append "" (segments a.toList) (segments b.toList)
    have hentries : (parse (a ++ b)).entries = (parse a).entries ++ es := by
      rw [entries_parse, entries_parse, String.toList_append, segments_append ha, hes]
    exact find_append hentries hentry

theorem find_first_entry_hidden :
    let name : Label := ⟨"A", by decide, by decide⟩
    let empty : Setting := ⟨⟨"k", by decide, by decide⟩,
      ⟨"", by decide, by decide⟩, by decide, by simp, by decide, by decide⟩
    let later : Setting := ⟨⟨"k", by decide, by decide⟩,
      ⟨"x y", by decide, by decide⟩, by decide, by simp, by decide, by decide⟩
    let d : Document := ⟨[later], [⟨name, [empty]⟩, ⟨name, [later]⟩]⟩
    let text := "\tk = x y # set\r\n\n[ A ]\n; k = 1\nk\nk =\n[A]\nk=x y"
    Writes d.statements text.toList ∧ (parse text).find "" "k" = some "x y" ∧
      (parse text).find "A" "k" = none ∧
      (parse (text ++ "\n" ++ "[A]\nk = z")).find "A" "k" = none := by
  intro name empty later d text
  have hnone : IsGap [] := by decide
  have hspace : IsGap [' '] := by decide
  have hother : ¬ InBrackets ['k'] := by
    rintro ⟨w, s, w', hl, -⟩
    have hmem : '[' ∈ ['k'] := hl ▸ by simp
    simp at hmem
  have hwide : (Statement.header name).IsLine _ := .header hnone hspace hspace hnone
  have hnarrow : (Statement.header name).IsLine _ := .header hnone hnone hnone hnone
  have hlines :=
    Writes.statement (e := ['\r', '\n'])
      (.setting (x := later) (w := ['\t']) (by decide) hspace hspace hnone
        (.inr ⟨" set".toList, rfl, by decide⟩)) (.inr (.inl rfl)) <|
    .void (e := ['\n']) (.blank hnone) (.inl rfl) <|
    .statement (e := ['\n']) hwide (.inl rfl) <|
    .void (e := ['\n']) (.comment (s := " k = 1".toList) hnone (.inr rfl) (by decide)) (.inl rfl) <|
    .void (e := ['\n']) (.other (l := ['k']) (by decide) (by decide) hother) (.inl rfl) <|
    .statement (e := ['\n']) (.setting (x := empty) hnone hspace hnone hnone (.inl rfl))
      (.inl rfl) <|
    .statement (e := ['\n']) hnarrow (.inl rfl) <|
    .statement (e := []) (.setting (x := later) hnone hnone hnone hnone (.inl rfl))
      (.inr (.inr ⟨rfl, rfl⟩)) .nil
  have hwrites : Writes d.statements text.toList :=
    (congrArg (Writes d.statements) (by decide)).mp hlines
  obtain ⟨hfound, -⟩ := (find_first_entry "" "k").1 d text hwrites
  obtain ⟨hsection, hmore⟩ := find_first_entry "A" "k"
  obtain ⟨-, hhidden⟩ := hsection d text hwrites
  have hbefore : (parse (text ++ "\n")).find "A" "k" = none ∧
      (parse (text ++ "\n")).entries.any (fun e => e.sect == "A" && e.key == "k") = true := by
    decide +kernel
  have hentry : ∃ e ∈ (parse (text ++ "\n")).entries, e.IsFor "A" "k" := by
    simpa only [List.any_eq_true, Bool.and_eq_true, beq_iff_eq, Entry.IsFor] using hbefore.2
  refine ⟨hwrites, (hfound "x y").2 ⟨⟨[], _, rfl, by simp⟩, by decide⟩, hhidden.2 (.inr ?_),
    (hmore _ _ (.inr (by decide +kernel)) hentry).trans hbefore.1⟩
  exact ⟨[later.entry ""], _, rfl, by simp [Entry.IsFor, Setting.entry]⟩

end MillGateway.Ini
