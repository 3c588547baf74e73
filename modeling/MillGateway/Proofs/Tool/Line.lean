import Mathlib.Data.List.Nodup
import Mathlib.Data.List.TakeWhile
import MillGateway.Proofs.Text.Words
import MillGateway.Tool.Line

/-! Tools and their lines. Main statement: the line of a record whose values stand as words reads
back as the record with its comment in small letters. -/

namespace MillGateway.Tool.Record

open Text

@[ext]
theorem ext_get {r s : Record} (h : ∀ k, r.get k = s.get k) : r = s :=
  Record.ext (funext h)

/-! ### Reading -/

theorem body_of_none {s : List Char} (hs : ';' ∉ s) : body s = s := by
  rw [body, List.takeWhile_eq_self_iff]
  intro c hc
  simpa using fun h : c = ';' => hs (h ▸ hc)

theorem body_append_semicolon {s : List Char} (hs : ';' ∉ s) (t : List Char) :
    body (s ++ ';' :: t) = s := by
  have h : ∀ c ∈ s, (c != ';') = true := fun c hc => by simpa using fun h : c = ';' => hs (h ▸ hc)
  rw [body, List.takeWhile_append_of_pos h]
  simp

theorem remark?_of_none {s : List Char} (hs : ';' ∉ s) : remark? s = none := by
  have h : s.dropWhile (· != ';') = [] := by
    rw [List.dropWhile_eq_nil_iff]
    intro c hc
    simpa using fun h : c = ';' => hs (h ▸ hc)
  rw [remark?, h]

theorem remark?_append_semicolon {s : List Char} (hs : ';' ∉ s) (t : List Char) :
    remark? (s ++ ';' :: t) = some t := by
  have h : ∀ c ∈ s, (c != ';') = true := fun c hc => by simpa using fun h : c = ';' => hs (h ▸ hc)
  rw [remark?, List.dropWhile_append_of_pos h]
  simp

theorem ofChars_of_none {s : List Char} (hs : ';' ∉ s) :
    ofChars s = (words s).foldl takeWord empty := by
  rw [ofChars, body_of_none hs, remark?_of_none hs]

theorem ofChars_append_semicolon {s : List Char} (hs : ';' ∉ s) (t : List Char) :
    ofChars (s ++ ';' :: t) =
      ((words s).foldl takeWord empty).set .comment (String.ofList (normComment t)) := by
  rw [ofChars, body_append_semicolon hs, remark?_append_semicolon hs]

theorem get_comment_takeWord {r : Record} (h : r.get .comment = none) (w : List Char) :
    (takeWord r w).get .comment = none := by
  cases w with
  | nil => exact h
  | cons c v =>
    rw [takeWord]
    split
    · exact h
    · exact h
    next k hk _ =>
      split
      · exact h
      · have hcomment : Key.comment ≠ k := fun hk' => hk hk'.symm
        rw [get_set, if_neg hcomment, h]

theorem get_comment_foldl_takeWord {r : Record} (h : r.get .comment = none)
    (ws : List (List Char)) : (ws.foldl takeWord r).get .comment = none := by
  induction ws generalizing r with
  | nil => exact h
  | cons w ws ih => exact ih (get_comment_takeWord h w)

theorem normComment_append_blanks (s : List Char) {w : List Char}
    (hw : ∀ c ∈ w, isBlank c = true) : normComment (s ++ w) = normComment s := by
  rw [normComment, normComment, trimEnd_append_blanks s hw]

theorem ofChars_append_blanks (s : List Char) {w : List Char} (hw : ∀ c ∈ w, isBlank c = true) :
    ofChars (s ++ w) = ofChars s := by
  by_cases hs : ';' ∈ s
  -- the blanks are part of the comment if there is one, and make no word otherwise
  · obtain ⟨a, b, rfl, ha⟩ := List.eq_append_cons_of_mem hs
    rw [List.append_assoc, List.cons_append, ofChars_append_semicolon ha,
      ofChars_append_semicolon ha, normComment_append_blanks b hw]
  · have hsw : ';' ∉ s ++ w := by
      rw [List.mem_append, not_or]
      exact ⟨hs, fun h => absurd (hw _ h) (by decide)⟩
    rw [ofChars_of_none hsw, ofChars_of_none hs, words_append_blanks s hw]

/-! ### Writing -/

/-- The record as it reads back from its line: its comment in small letters, without blanks at the
end. -/
def norm (r : Record) : Record :=
  match r.get .comment with
  | none => r
  | some c => r.set .comment (String.ofList (normComment c.toList))

theorem norm_get {r : Record} {k : Key} (hk : k ≠ .comment) : r.norm.get k = r.get k := by
  rw [norm]
  split
  · rfl
  · rw [get_set, if_neg hk]

theorem toolNumber_norm (r : Record) : r.norm.toolNumber = r.toolNumber := by
  rw [toolNumber, toolNumber, norm_get (by decide)]

theorem malformedField_eq_none_iff {r : Record} :
    r.malformedField = none ↔ ∀ k v, r.get k = some v → malformed k v = false := by
  simp only [malformedField, Option.map_eq_none_iff, List.find?_eq_none, Prod.forall, mem_fields,
    Bool.not_eq_true]

theorem malformed_eq_false_iff {k : Key} {v : String} (hk : k ≠ .comment) :
    malformed k v = false ↔ ∀ c ∈ v.toList, isBlank c = false ∧ c ≠ ';' := by
  simp only [malformed, breaksLine, hk, bne_iff_ne, ne_eq, not_false_eq_true,
    Bool.or_eq_false_iff, Bool.and_eq_false_imp, List.any_eq_false, Bool.not_eq_true,
    beq_eq_false_iff_ne, forall_const]
  constructor
  · intro h c hc
    exact ⟨(h.2 c hc).2, (h.2 c hc).1⟩
  · intro h
    refine ⟨fun c hc => ⟨?_, ?_⟩, fun c hc => ⟨(h c hc).2, (h c hc).1⟩⟩
    -- what breaks a line is blank
    · rintro rfl
      exact absurd (h _ hc).1 (by decide)
    · rintro rfl
      exact absurd (h _ hc).1 (by decide)

def Fits (r : Record) : Prop :=
  ∀ k v, k ≠ .comment → r.get k = some v → ∀ c ∈ v.toList, isBlank c = false ∧ c ≠ ';'

theorem fits_of_malformedField {r : Record} (h : r.malformedField = none) : r.Fits :=
  fun k v hk hv => (malformed_eq_false_iff hk).1 (malformedField_eq_none_iff.1 h k v hv)

theorem not_malformed_line {k : Key} {v : String} (h : malformed k v = false) :
    '\n' ∉ v.toList ∧ '\r' ∉ v.toList := by
  simp only [malformed, breaksLine, Bool.or_eq_false_iff, List.any_eq_false] at h
  exact ⟨fun hc => absurd (h.1 _ hc) (by decide), fun hc => absurd (h.1 _ hc) (by decide)⟩

def letters : List Key :=
  [.t, .p, .x, .y, .z, .a, .b, .c, .u, .v, .w, .d, .i, .j, .q]

theorem ne_comment_of_mem_letters {k : Key} (h : k ∈ letters) : k ≠ .comment := by
  rintro rfl
  exact absurd h (by decide)

theorem mem_letters_iff {k : Key} : k ∈ letters ↔ k ≠ .comment := by
  cases k <;> decide

def fieldWords (r : Record) (ks : List Key) : List (List Char) :=
  ks.filterMap fun k => (r.get k).map fun v => k.symbol :: v.toList

def lineBody (r : Record) : List Char :=
  (r.fieldWords letters).flatMap (· ++ [' '])

theorem fieldChars_letter {k : Key} (hk : k ≠ .comment) (v : String) :
    fieldChars (k, v) = (k.symbol :: v.toList) ++ [' '] := by
  cases k <;> first | rfl | contradiction

theorem lineChars_eq (r : Record) :
    r.lineChars = r.lineBody ++ ((r.get .comment).map fun c => ';' :: c.toList).getD [] := by
  have hall : Key.all = letters ++ [.comment] := rfl
  -- the comment comes last, and all other fields are followed by a space
  have hbody : ∀ ks : List Key, (∀ k ∈ ks, k ≠ .comment) →
      (ks.filterMap fun k => (r.get k).map (k, ·)).flatMap fieldChars =
        (r.fieldWords ks).flatMap (· ++ [' ']) := by
    intro ks hks
    induction ks with
    | nil => rfl
    | cons k ks ih =>
      have ih := ih fun k' hk' => hks k' (List.mem_cons_of_mem _ hk')
      rw [fieldWords] at ih ⊢
      rw [List.filterMap_cons, List.filterMap_cons]
      cases r.get k with
      | none => exact ih
      | some v =>
        simp only [Option.map_some, List.flatMap_cons, ih,
          fieldChars_letter (hks k List.mem_cons_self)]
  rw [lineChars, fields, hall, List.filterMap_append, List.flatMap_append,
    hbody letters fun k => ne_comment_of_mem_letters, lineBody]
  cases hc : r.get .comment <;> simp [hc, fieldChars]

theorem mem_fieldWords {r : Record} (h : r.Fits) {w : List Char}
    (hw : w ∈ r.fieldWords letters) : w ≠ [] ∧ ∀ c ∈ w, isBlank c = false ∧ c ≠ ';' := by
  obtain ⟨k, hk, hw⟩ := List.mem_filterMap.1 hw
  obtain ⟨v, hv, rfl⟩ := Option.map_eq_some_iff.1 hw
  have hk := ne_comment_of_mem_letters hk
  refine ⟨by simp, fun c hc => ?_⟩
  rcases List.mem_cons.1 hc with rfl | hc
  · revert hk
    cases k <;> decide
  · exact h k v hk hv c hc

theorem words_flatMap {ws : List (List Char)}
    (h : ∀ w ∈ ws, w ≠ [] ∧ ∀ c ∈ w, isBlank c = false) : words (ws.flatMap (· ++ [' '])) = ws := by
  induction ws with
  | nil => rfl
  | cons w ws ih =>
    obtain ⟨hne, hw⟩ := h w List.mem_cons_self
    rw [List.flatMap_cons, List.append_assoc, List.singleton_append,
      words_append_blank (by decide), words_of_none hw hne,
      ih fun w' hw' => h w' (List.mem_cons_of_mem _ hw')]
    rfl

theorem takeWord_field {r : Record} {k : Key} {v : String} (hk : k ≠ .comment) (hv : v ≠ "")
    (hr : r.get k = none) : takeWord r (k.symbol :: v.toList) = r.set k v := by
  have hsym : Key.ofSymbol? k.symbol = some k := Key.ofSymbol?_symbol k
  have hempty : v.toList.isEmpty = false := by simpa using hv
  rw [takeWord, hsym]
  simp [hempty, hr]

theorem get_foldl_takeWord (r : Record) {ks : List Key} (hks : ks.Nodup)
    (hc : ∀ k ∈ ks, k ≠ .comment) {s : Record} (hs : ∀ k ∈ ks, s.get k = none) (k' : Key) :
    ((r.fieldWords ks).foldl takeWord s).get k' = if k' ∈ ks then r.get k' else s.get k' := by
  induction ks generalizing s with
  | nil => rfl
  | cons k ks ih =>
    obtain ⟨hk, hks⟩ := List.nodup_cons.1 hks
    have hc' : ∀ k ∈ ks, k ≠ .comment := fun k hk => hc k (List.mem_cons_of_mem _ hk)
    have hs' : ∀ k ∈ ks, s.get k = none := fun k hk => hs k (List.mem_cons_of_mem _ hk)
    have hsk : s.get k = none := hs k List.mem_cons_self
    rw [fieldWords, List.filterMap_cons]
    -- `k` has not been given a value yet, so its word is taken
    cases hv : r.get k with
    | none =>
      refine (ih hks hc' hs').trans ?_
      by_cases hk' : k' = k
      · subst hk'
        simp [hk, hv, hsk]
      · simp [hk']
    | some v =>
      have hne : v ≠ "" := fun h => r.ne_empty k (h ▸ hv)
      have hset : ∀ k'' ∈ ks, (s.set k v).get k'' = none := by
        intro k'' hk''
        have hne : k'' ≠ k := fun h => hk (h ▸ hk'')
        rw [get_set, if_neg hne, hs' k'' hk'']
      simp only [Option.map_some, List.foldl_cons]
      rw [takeWord_field (hc k List.mem_cons_self) hne hsk]
      refine (ih hks hc' hset).trans ?_
      by_cases hk' : k' = k
      · subst hk'
        simp [hk, get_set, hne, hv]
      · simp [hk', get_set]

theorem get_words_lineBody {r : Record} (h : r.Fits) (k : Key) :
    ((words r.lineBody).foldl takeWord empty).get k =
      if k = .comment then none else r.get k := by
  rw [lineBody, words_flatMap fun w hw => ?_,
    get_foldl_takeWord r (by decide) (fun k => ne_comment_of_mem_letters) (fun _ _ => rfl)]
  · simp only [mem_letters_iff, ite_not, get_empty]
  · obtain ⟨hne, hw⟩ := mem_fieldWords h hw
    exact ⟨hne, fun c hc => (hw c hc).1⟩

theorem semicolon_not_mem_lineBody {r : Record} (h : r.Fits) :
    ';' ∉ r.lineBody := by
  intro hc
  obtain ⟨w, hw, hc⟩ := List.mem_flatMap.1 hc
  rcases List.mem_append.1 hc with hc | hc
  · exact ((mem_fieldWords h hw).2 _ hc).2 rfl
  · exact absurd hc (by decide)

theorem ofChars_lineChars {r : Record} (h : r.Fits) :
    ofChars r.lineChars = r.norm := by
  have hbody := semicolon_not_mem_lineBody h
  ext1 k
  rw [lineChars_eq, norm]
  cases hc : r.get .comment with
  | none =>
    rw [Option.map_none, Option.getD_none, List.append_nil, ofChars_of_none hbody,
      get_words_lineBody h]
    split
    · rename_i hk
      rw [hk, hc]
    · rfl
  | some c =>
    rw [Option.map_some, Option.getD_some, ofChars_append_semicolon hbody, get_set, get_set,
      get_words_lineBody h]
    split <;> rfl

theorem breaks_not_mem_lineChars {r : Record} (h : r.malformedField = none) :
    '\n' ∉ r.lineChars ∧ '\r' ∉ r.lineChars := by
  have key {b : Char} (hsym : ∀ k : Key, b ≠ k.symbol) (hblank : b ≠ ' ')
      (hv : ∀ k v, r.get k = some v → b ∉ v.toList) : b ∉ r.lineChars := by
    intro hc
    obtain ⟨⟨k, v⟩, hmem, hc⟩ := List.mem_flatMap.1 hc
    have hv := hv k v (mem_fields.1 hmem)
    by_cases hk : k = .comment
    · subst hk
      exact (List.mem_cons.1 hc).elim (hsym .comment) hv
    · rw [fieldChars_letter hk] at hc
      simp [hsym k, hblank, hv] at hc
  have hline := fun k v hv => not_malformed_line (malformedField_eq_none_iff.1 h k v hv)
  exact ⟨key (fun k => by cases k <;> decide) (by decide) fun k v hv => (hline k v hv).1,
    key (fun k => by cases k <;> decide) (by decide) fun k v hv => (hline k v hv).2⟩

end MillGateway.Tool.Record
