import MillGateway.Proofs.Text.Segments
import MillGateway.Proofs.Tool.Line
import MillGateway.Tool.Table

/-! What edits of its text do to the tools of a table. Main statements: an entry adds its tool at the
end, leaving lines out leaves their tools out, and a table of tools holds just these. -/

namespace MillGateway.Tool.Table

open Text Record

def toolsOf (ss : List (List Char)) : List Record :=
  (ss.filter fun s => !(trim s).isEmpty).map ofChars

def numbers (text : String) : List Int :=
  (lines text.toList).filterMap fun l => (ofChars l).toolNumber

@[simp] theorem toolsOf_append (ss ts : List (List Char)) :
    toolsOf (ss ++ ts) = toolsOf ss ++ toolsOf ts := by
  simp [toolsOf]

theorem ofChars_of_blanks {s : List Char} (hs : ∀ c ∈ s, isBlank c = true) : ofChars s = empty := by
  have h := ofChars_append_blanks [] hs
  rw [List.nil_append] at h
  rw [h, ofChars_of_none (by simp)]
  rfl

theorem trim_append_blanks_isEmpty (s : List Char) {w : List Char}
    (hw : ∀ c ∈ w, isBlank c = true) : (trim (s ++ w)).isEmpty = (trim s).isEmpty := by
  rw [Bool.eq_iff_iff, List.isEmpty_iff, List.isEmpty_iff, trim_eq_nil_iff, trim_eq_nil_iff]
  simp only [List.mem_append]
  exact ⟨fun h c hc => h c (.inl hc), fun h c hc => hc.elim (h c) (hw c)⟩

theorem toolsOf_append_blanks (s : List Char) {w : List Char} (hw : ∀ c ∈ w, isBlank c = true) :
    toolsOf [s ++ w] = toolsOf [s] := by
  rw [toolsOf, toolsOf, List.filter_singleton, List.filter_singleton,
    trim_append_blanks_isEmpty s hw]
  cases (trim s).isEmpty <;> simp [ofChars_append_blanks s hw]

theorem toolsOf_map_dropTerminator (ss : List (List Char)) :
    toolsOf (ss.map dropTerminator) = toolsOf ss := by
  induction ss with
  | nil => rfl
  | cons s ss ih =>
    obtain ⟨w, hs, hw⟩ := exists_terminator s
    have hline : toolsOf [dropTerminator s] = toolsOf [s] := by
      conv_rhs => rw [hs]
      exact (toolsOf_append_blanks _ hw).symm
    rw [List.map_cons, ← List.singleton_append, toolsOf_append, hline, ih, ← toolsOf_append]
    rfl

theorem records_eq (text : String) : records text = toolsOf (segments text.toList) :=
  toolsOf_map_dropTerminator (segments text.toList)

theorem toolsOf_numbered {s : List Char} {n : Int} (h : (ofChars s).toolNumber = some n) :
    toolsOf [s] = [ofChars s] := by
  have hne : trim s ≠ [] := by
    intro hs
    rw [ofChars_of_blanks (trim_eq_nil_iff.1 hs)] at h
    cases h
  have hkeep : (trim s).isEmpty = false := by simpa using hne
  rw [toolsOf, List.filter_singleton, hkeep]
  rfl

/-! ### Tool numbers -/

theorem filterMap_toolsOf (ss : List (List Char)) :
    (toolsOf ss).filterMap toolNumber = ss.filterMap fun s => (ofChars s).toolNumber := by
  induction ss with
  | nil => rfl
  | cons s ss ih =>
    rw [← List.singleton_append, toolsOf_append, List.filterMap_append, List.filterMap_append, ih]
    congr 1
    cases hn : (ofChars s).toolNumber with
    | some n => rw [toolsOf_numbered hn]; rfl
    | none =>
      rw [toolsOf, List.filter_singleton]
      cases (trim s).isEmpty <;> simp [hn]

theorem numbers_eq (text : String) : numbers text = (records text).filterMap toolNumber :=
  (filterMap_toolsOf (lines text.toList)).symm

theorem hasNumber_iff {n : Int} {text : String} :
    hasNumber n text = true ↔ n ∈ numbers text := by
  simp [hasNumber, numbers]

theorem mem_numbers_iff {n : Int} {text : String} :
    n ∈ numbers text ↔ ∃ r ∈ records text, r.toolNumber = some n := by
  rw [numbers_eq, List.mem_filterMap]

/-! ### Appending an entry -/

/-- A record that is written as one line: it has a tool number, and its fields are sound. -/
structure Sound (r : Record) : Prop where
  numbered : ∃ n, r.toolNumber = some n
  fields : r.malformedField = none

theorem Sound.toolsOf_line {r : Record} (h : Sound r) :
    toolsOf [r.lineChars ++ ['\n']] = [r.norm] := by
  obtain ⟨n, hn⟩ := h.numbered
  have hr := ofChars_lineChars (fits_of_malformedField h.fields)
  rw [toolsOf_append_blanks _ isBlank_feed, toolsOf_numbered (n := n), hr]
  rw [hr, toolNumber_norm, hn]

theorem Sound.segments_line {r : Record} (h : Sound r) (t : List Char) :
    segments (r.lineChars ++ '\n' :: t) = (r.lineChars ++ ['\n']) :: segments t :=
  Text.segments_line (breaks_not_mem_lineChars h.fields).1 t

theorem toList_entry_of_ended {text : String} (h : Ended text.toList) (r : Record) :
    (entry text r).toList = r.lineChars ++ ['\n'] := by
  rw [entry]
  rcases h with h | h <;> simp [h, line]

theorem toList_entry_of_open {text : String} (h : ¬ Ended text.toList) (r : Record) :
    (entry text r).toList = '\n' :: (r.lineChars ++ ['\n']) := by
  rw [entry]
  split
  next hl => exact absurd (.inl (List.getLast?_eq_none_iff.1 hl)) h
  next hl => exact absurd (.inr hl) h
  next => simp [line]

theorem records_append_entry (text : String) {r : Record} (h : Sound r) :
    records (text ++ entry text r) = records text ++ [r.norm] := by
  rw [records_eq, records_eq, String.toList_append, ← h.toolsOf_line]
  by_cases hs : Ended text.toList
  · rw [toList_entry_of_ended hs, segments_append hs, h.segments_line, toolsOf_append]
    rfl
  · obtain ⟨a, l, htext, ha, hl, hne⟩ := exists_open_line hs
    rw [toList_entry_of_open hs, htext, List.append_assoc, segments_append ha, segments_append ha,
      Text.segments_line hl, h.segments_line, segments_of_none hl hne, ← List.singleton_append,
      toolsOf_append, toolsOf_append, toolsOf_append, toolsOf_append_blanks l isBlank_feed,
      List.append_assoc]
    rfl

/-! ### Leaving lines out -/

def keeps (ns : List Int) (r : Record) : Bool :=
  match r.toolNumber with
  | some n => !ns.contains n
  | none => true

theorem toolsOf_filter (p : Record → Bool) (ss : List (List Char)) :
    toolsOf (ss.filter fun s => p (ofChars s)) = (toolsOf ss).filter p := by
  rw [toolsOf, toolsOf, List.filter_map, List.filter_filter, List.filter_filter]
  simp only [Function.comp_def, Bool.and_comm]

theorem records_without (ns : List Int) (text : String) :
    records (without ns text) = (records text).filter (keeps ns) := by
  rw [records_eq, records_eq, without, String.toList_ofList, segments_flatten_filter]
  exact toolsOf_filter (keeps ns) _

/-! ### Writing anew -/

theorem segments_ofRecords {rs : List Record} (h : ∀ r ∈ rs, Sound r) :
    segments (rs.flatMap fun r => r.lineChars ++ ['\n']) =
      rs.map fun r => r.lineChars ++ ['\n'] := by
  induction rs with
  | nil => rfl
  | cons r rs ih =>
    rw [List.flatMap_cons, List.append_assoc, List.singleton_append,
      (h r List.mem_cons_self).segments_line, ih fun r' hr' => h r' (List.mem_cons_of_mem _ hr')]
    rfl

theorem records_ofRecords {rs : List Record} (h : ∀ r ∈ rs, Sound r) :
    records (ofRecords rs) = rs.map norm := by
  rw [records_eq, ofRecords, String.toList_ofList, segments_ofRecords h]
  induction rs with
  | nil => rfl
  | cons r rs ih =>
    rw [List.map_cons, ← List.singleton_append, toolsOf_append,
      (h r List.mem_cons_self).toolsOf_line, ih fun r' hr' => h r' (List.mem_cons_of_mem _ hr')]
    rfl

end MillGateway.Tool.Table
