import MillGateway.Proofs.Tool.Exactness
import MillGateway.Proofs.Tool.Key

/-! What a table line says. Main statement: each field has the value of the first word in front of
the comment that carries it, and nothing but these words and the comment counts. -/

namespace MillGateway.Tool.Record

open Text

def carries (k : Key) : List Char → Bool
  | c :: v => (c == k.symbol || c == k.small) && !v.isEmpty
  | [] => false

def carried? (k : Key) (ws : List (List Char)) : Option String :=
  (ws.find? (carries k)).map fun w => String.ofList w.tail

/-! ### Words that are read -/

theorem carries_cons {k : Key} {c : Char} {v : List Char} :
    carries k (c :: v) = true ↔ Key.ofSymbol? c = some k ∧ v ≠ [] := by
  rw [carries, Key.ofSymbol?_eq_some_iff]
  simp

theorem get_takeWord_of_carries {r : Record} {k : Key} (hk : k ≠ .comment) {w : List Char}
    (hw : carries k w = true) :
    (takeWord r w).get k = (r.get k).or (some (String.ofList w.tail)) := by
  cases w with
  | nil => cases hw
  | cons c v =>
    obtain ⟨hc, hv⟩ := carries_cons.1 hw
    have hempty : v.isEmpty = false := by simpa using hv
    rw [takeWord, hc]
    cases hget : r.get k with
    | some u => simp [hget]
    | none => simp [hget, hempty, hv, get_set]

theorem get_takeWord_of_not_carries {r : Record} {k : Key} {w : List Char}
    (hw : carries k w = false) : (takeWord r w).get k = r.get k := by
  cases w with
  | nil => rfl
  | cons c v =>
    rw [takeWord]
    split
    · rfl
    · rfl
    next k' _ hc =>
      split
      next => rfl
      next hsome =>
        -- the word gives its value to another field
        have hne : k ≠ k' := by
          rintro rfl
          rw [carries_cons.2 ⟨hc, fun hv => hsome (by simp [hv])⟩] at hw
          cases hw
        rw [get_set, if_neg hne]

theorem get_foldl_takeWord_eq {k : Key} (hk : k ≠ .comment) (r : Record)
    (ws : List (List Char)) :
    (ws.foldl takeWord r).get k = (r.get k).or (carried? k ws) := by
  induction ws generalizing r with
  | nil => rw [List.foldl_nil, carried?, List.find?_nil, Option.map_none, Option.or_none]
  | cons w ws ih =>
    rw [List.foldl_cons, ih, carried?, carried?, List.find?_cons]
    cases hw : carries k w with
    | true =>
      rw [get_takeWord_of_carries hk hw]
      cases r.get k <;> rfl
    | false => rw [get_takeWord_of_not_carries hw]

/-! ### Lines -/

def lineOf (s : List Char) : Option (List Char) → List Char
  | none => s
  | some r => s ++ ';' :: r

/-- Whether a line consists of such words, and of such a comment behind the first semicolon. -/
def Says (line : String) (ws : List (List Char)) (remark? : Option (List Char)) : Prop :=
  ∃ s, line.toList = lineOf s remark? ∧ ';' ∉ s ∧ Spells ws s

theorem exists_said (line : String) : ∃ ws remark?, Says line ws remark? := by
  by_cases h : ';' ∈ line.toList
  · obtain ⟨s, r, htext, hs⟩ := List.eq_append_cons_of_mem h
    obtain ⟨ws, hws⟩ := exists_spells s
    exact ⟨ws, some r, s, htext, hs, hws⟩
  · obtain ⟨ws, hws⟩ := exists_spells line.toList
    exact ⟨ws, none, line.toList, rfl, h, hws⟩

section

variable {line line' : String} {ws ws' : List (List Char)} {remark? : Option (List Char)}

theorem Says.get_letter (h : Says line ws remark?) {k : Key} (hk : k ≠ .comment) :
    (ofLine line).get k = carried? k ws := by
  obtain ⟨s, htext, hs, hws⟩ := h
  have hbody : body line.toList = s := by
    rw [htext]
    cases remark? with
    | none => exact body_of_none hs
    | some r => exact body_append_semicolon hs r
  rw [ofLine, get_ofChars hk, hbody, hws.words_eq, get_foldl_takeWord_eq hk, get_empty,
    Option.none_or]

theorem Says.get_comment (h : Says line ws remark?) :
    (ofLine line).get .comment =
      (remark?.map fun r => String.ofList (lower (trimEnd r))).filter (· ≠ "") := by
  obtain ⟨s, htext, hs, hws⟩ := h
  rw [ofLine, htext]
  cases remark? with
  | none =>
    show (ofChars s).get .comment = none
    rw [ofChars_of_none hs, get_comment_foldl_takeWord rfl]
  | some r =>
    rw [lineOf, ofChars_append_semicolon hs, get_set, if_pos rfl, normComment, Option.map_some,
      Option.filter_some]
    by_cases hempty : String.ofList (lower (trimEnd r)) = ""
    · simp [hempty]
    · simp [hempty]

theorem Says.ofLine_eq (h : Says line ws remark?) (h' : Says line' ws' remark?)
    (hsame : ∀ k, carried? k ws' = carried? k ws) : ofLine line' = ofLine line := by
  ext1 k
  by_cases hk : k = .comment
  · rw [hk, h.get_comment, h'.get_comment]
  · rw [h.get_letter hk, h'.get_letter hk, hsame]

end

/-- Words that say the same. Neighbours that carry no common field may change places, and words that
carry none may come in, or be left out, any number of times. -/
inductive Rewords : List (List Char) → List (List Char) → Prop
  | same (ws) : Rewords ws ws
  | swapped (us w w' vs) (h : ∀ k, ¬ (carries k w = true ∧ carries k w' = true)) :
      Rewords (us ++ w :: w' :: vs) (us ++ w' :: w :: vs)
  | inserted (us w vs) (h : ∀ k, carries k w = false) : Rewords (us ++ vs) (us ++ w :: vs)
  | symm {ws ws'} (h : Rewords ws ws') : Rewords ws' ws
  | trans {ws ws' ws''} (h : Rewords ws ws') (h' : Rewords ws' ws'') : Rewords ws ws''

theorem Rewords.carried?_eq {ws ws' : List (List Char)} (h : Rewords ws ws') (k : Key) :
    carried? k ws' = carried? k ws := by
  induction h with
  | same => rfl
  | symm _ ih => exact ih.symm
  | trans _ _ ih ih' => exact ih'.trans ih
  | swapped us w w' vs hapart =>
    rw [carried?, carried?, List.find?_append, List.find?_append]
    congr 2
    rw [List.find?_cons, List.find?_cons, List.find?_cons, List.find?_cons]
    cases hw : carries k w with
    | false => rfl
    | true =>
      cases hw' : carries k w' with
      | false => rfl
      | true => exact absurd ⟨hw, hw'⟩ (hapart k)
  | inserted us w vs hsilent =>
    rw [carried?, carried?, List.find?_append, List.find?_append, List.find?_cons, hsilent k]

/-- A line gives to each field what is behind its letter, capital or small, in the first word in
front of the first semicolon that has more than this letter, and to the comment the small letters of
what is behind the semicolon, without blanks at the end. So the record stays the same when words that
carry different fields change places, when words that carry none come in, whatever blanks there are
between the words, and when blanks or a terminator are put behind the line. -/
theorem line_says :
    (∀ line, ∃ ws remark?, Says line ws remark?) ∧
    ∀ line ws remark?, Says line ws remark? →
      (∀ k ≠ .comment, (ofLine line).get k = carried? k ws) ∧
      ((ofLine line).get .comment =
        (remark?.map fun r => String.ofList (lower (trimEnd r))).filter (· ≠ "")) ∧
      (∀ line' ws', Says line' ws' remark? → Rewords ws ws' → ofLine line' = ofLine line) ∧
      ∀ w : String, (∀ c ∈ w.toList, isBlank c = true) → ofLine (line ++ w) = ofLine line := by
  refine ⟨exists_said, fun line ws remark? h => ⟨fun k => h.get_letter, h.get_comment, ?_, ?_⟩⟩
  · intro line' ws' h' hwords
    exact h.ofLine_eq h' hwords.carried?_eq
  · intro w hw
    rw [ofLine, ofLine, String.toList_append, ofChars_append_blanks _ hw]

theorem line_says_two_ways :
    (ofLine "T t5 P1 T6 ;Flat 3MM \r\n").get .t = some "5" ∧
      (ofLine "T t5 P1 T6 ;Flat 3MM \r\n").get .comment = some "flat 3mm" ∧
      ofLine "\tt5 P1;Flat" = ofLine "P1  t5 ;Flat" := by
  have hfirst : Says "T t5 P1 T6 ;Flat 3MM \r\n" [['T'], ['t', '5'], ['P', '1'], ['T', '6']]
      (some "Flat 3MM \r\n".toList) :=
    ⟨"T t5 P1 T6 ".toList, rfl, by decide, spells_iff.2 rfl⟩
  have hleft : Says "P1  t5 ;Flat" [['P', '1'], ['t', '5']] (some "Flat".toList) :=
    ⟨"P1  t5 ".toList, rfl, by decide, spells_iff.2 rfl⟩
  have hright : Says "\tt5 P1;Flat" [['t', '5'], ['P', '1']] (some "Flat".toList) :=
    ⟨"\tt5 P1".toList, rfl, by decide, spells_iff.2 rfl⟩
  obtain ⟨hletter, hcomment, -, -⟩ := line_says.2 _ _ _ hfirst
  obtain ⟨-, -, hwords, -⟩ := line_says.2 _ _ _ hleft
  refine ⟨(hletter .t (by decide)).trans (by decide), hcomment.trans (by decide), ?_⟩
  refine hwords _ _ hright (.swapped [] _ _ [] fun k => ?_)
  cases k <;> decide

end MillGateway.Tool.Record
