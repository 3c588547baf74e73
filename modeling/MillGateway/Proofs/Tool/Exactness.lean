import MillGateway.Proofs.Tool.Line

/-! What a line can carry. Main statement: a line gives back the fields of its record if and only
if each of them is one word without semicolon, and this is what the check of a record asks for. -/

namespace MillGateway.Tool.Record

open Text

/-! ### What is read fits -/

theorem get_takeWord {r : Record} {w : List Char} {k : Key} {v : String}
    (h : (takeWord r w).get k = some v) : r.get k = some v ∨ ∃ c, w = c :: v.toList := by
  cases w with
  | nil => exact .inl h
  | cons c u =>
    simp only [takeWord] at h
    split at h
    · exact .inl h
    · exact .inl h
    · split at h
      · exact .inl h
      · rw [get_set] at h
        split at h
        · split at h
          · contradiction
          · obtain rfl := Option.some.inj h
            exact .inr ⟨c, by rw [String.toList_ofList]⟩
        · exact .inl h

theorem get_foldl_takeWord_eq_some {ws : List (List Char)} {r : Record} {k : Key} {v : String}
    (h : (ws.foldl takeWord r).get k = some v) : r.get k = some v ∨ ∃ c, c :: v.toList ∈ ws := by
  induction ws generalizing r with
  | nil => exact .inl h
  | cons w ws ih =>
    rcases ih h with h | ⟨c, hc⟩
    · exact (get_takeWord h).imp_right fun ⟨c, hc⟩ => ⟨c, hc ▸ List.mem_cons_self⟩
    · exact .inr ⟨c, List.mem_cons_of_mem w hc⟩

theorem get_ofChars {s : List Char} {k : Key} (hk : k ≠ .comment) :
    (ofChars s).get k = ((words (body s)).foldl takeWord empty).get k := by
  rw [ofChars]
  split
  · rw [get_set, if_neg hk]
  · rfl

theorem not_mem_body_semicolon (s : List Char) : ';' ∉ body s := by
  intro h
  have := List.mem_takeWhile_imp h
  contradiction

theorem fits_ofChars (s : List Char) : (ofChars s).Fits := by
  intro k v hk hv c hc
  rw [get_ofChars hk] at hv
  rcases get_foldl_takeWord_eq_some hv with h | ⟨d, hd⟩
  · contradiction
  · obtain ⟨hblank, hbody⟩ := mem_words hd (List.mem_cons_of_mem d hc)
    exact ⟨hblank, fun h => not_mem_body_semicolon s (h ▸ hbody)⟩

/-! ### What fits is read -/

theorem Fits.of_agrees {r s : Record} (hs : s.Fits) (h : ∀ k ≠ .comment, s.get k = r.get k) :
    r.Fits :=
  fun k v hk hv => hs k v hk ((h k hk).trans hv)

theorem agrees_line_iff_fits {r : Record} :
    (∀ k ≠ .comment, (ofLine r.line).get k = r.get k) ↔ r.Fits := by
  rw [ofLine, line, String.toList_ofList]
  constructor
  · exact (fits_ofChars r.lineChars).of_agrees
  · intro h k hk
    rw [ofChars_lineChars h, norm_get hk]

/-! ### The check -/

theorem exists_of_malformedField {r : Record} {k : Key} (h : r.malformedField = some k) :
    ∃ v, r.get k = some v ∧ malformed k v = true := by
  obtain ⟨⟨k, v⟩, hf, rfl⟩ := Option.map_eq_some_iff.1 h
  exact ⟨v, mem_fields.1 (List.mem_of_find?_eq_some hf), by simpa using List.find?_some hf⟩

theorem malformedField_ne_comment {r : Record} {k : Key} {v : String} (hk : k ≠ .comment)
    (hv : r.get k = some v) (hm : malformed k v = true) :
    ∃ k', k' ≠ .comment ∧ r.malformedField = some k' := by
  have hall : Key.all = letters ++ [.comment] := rfl
  have hmem : (k, v) ∈ letters.filterMap fun k => (r.get k).map (k, ·) := by
    simp [mem_letters_iff, hk, hv]
  obtain ⟨⟨k', v'⟩, hf⟩ := Option.isSome_iff_exists.1 <|
    List.find?_isSome (p := fun f => malformed f.1 f.2) |>.2 ⟨(k, v), hmem, hm⟩
  refine ⟨k', ?_, ?_⟩
  · obtain ⟨k'', hk'', he⟩ := List.mem_filterMap.1 (List.mem_of_find?_eq_some hf)
    obtain ⟨_, _, ⟨⟩⟩ := Option.map_eq_some_iff.1 he
    exact ne_comment_of_mem_letters hk''
  · rw [malformedField, fields, hall, List.filterMap_append, List.find?_append, hf]
    rfl

theorem fits_iff_malformedField {r : Record} :
    r.Fits ↔ ∀ k, r.malformedField = some k → k = .comment := by
  constructor
  · intro h k hk
    obtain ⟨v, hv, hm⟩ := exists_of_malformedField hk
    by_contra hne
    rw [(malformed_eq_false_iff hne).2 (h k v hne hv)] at hm
    contradiction
  · intro h k v hk hv
    rw [← malformed_eq_false_iff hk]
    by_contra hm
    obtain ⟨k', hk', hf⟩ := malformedField_ne_comment hk hv (by simpa using hm)
    exact hk' (h k' hf)

/-- The line of a record that passes the check is one line and gives the record back, with its
comment in small letters and without blanks at its end. Whatever the comment, the other fields come
back if and only if each of them is one word without semicolon, which is what the check asks of
them. -/
theorem line_reads_back_iff (r : Record) :
    (r.malformedField = none →
      '\n' ∉ r.line.toList ∧ '\r' ∉ r.line.toList ∧ ofLine r.line = r.norm ∧
        (ofLine r.line).toolNumber = r.toolNumber) ∧
    ((∀ k ≠ .comment, (ofLine r.line).get k = r.get k) ↔
      ∀ k v, k ≠ .comment → r.get k = some v → ∀ c ∈ v.toList, isBlank c = false ∧ c ≠ ';') ∧
    ((∀ k ≠ .comment, (ofLine r.line).get k = r.get k) ↔
      ∀ k, r.malformedField = some k → k = .comment) := by
  refine ⟨fun h => ?_, agrees_line_iff_fits, agrees_line_iff_fits.trans fits_iff_malformedField⟩
  have hback : ofLine r.line = r.norm := by
    rw [ofLine, line, String.toList_ofList, ofChars_lineChars (fits_of_malformedField h)]
  obtain ⟨hn, hr⟩ := breaks_not_mem_lineChars h
  rw [hback, toolNumber_norm, line, String.toList_ofList]
  exact ⟨hn, hr, rfl, rfl⟩

theorem line_reads_back_iff_flat :
    ofLine (((empty.set .t "1").set .p "2").set .comment "Flat; 3MM ").line =
        ((empty.set .t "1").set .p "2").set .comment "flat; 3mm" ∧
      ¬ ∀ k ≠ .comment, (ofLine ((empty.set .t "6").set .p "1 T5").line).get k =
        ((empty.set .t "6").set .p "1 T5").get k := by
  constructor
  · rw [((line_reads_back_iff _).1 (by decide)).2.2.1]
    decide
  · rw [(line_reads_back_iff _).2.1]
    intro h
    exact absurd (h .p "1 T5" (by decide) (by decide) ' ' (by decide)).1 (by decide)

end MillGateway.Tool.Record
