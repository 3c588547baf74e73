import MillGateway.Proofs.Tool.Store

/-! Tables without some of their lines. Main statement: removals leave the other lines as they are,
byte for byte, in whichever order and however often they are made, and undo an addition. -/

namespace MillGateway.Tool

open Text Record

namespace Table

theorem keeps_iff {ns : List Int} {r : Record} :
    keeps ns r = true ↔ ∀ n ∈ ns, r.toolNumber ≠ some n := by
  rw [keeps]
  cases r.toolNumber with
  | none => simp
  | some m =>
    simp only [Bool.not_eq_true', List.contains_eq_mem, decide_eq_false_iff_not, ne_eq,
      Option.some.injEq]
    exact ⟨fun h n hn he => h (he ▸ hn), fun h hm => h m hm rfl⟩

theorem keeps_append (ns ms : List Int) (r : Record) :
    keeps (ns ++ ms) r = (keeps ns r && keeps ms r) := by
  rw [Bool.eq_iff_iff, Bool.and_eq_true, keeps_iff, keeps_iff, keeps_iff]
  simp only [List.mem_append]
  exact ⟨fun h => ⟨fun n hn => h n (.inl hn), fun n hn => h n (.inr hn)⟩,
    fun h n hn => hn.elim (h.1 n) (h.2 n)⟩

theorem keeps_congr {ns ms : List Int} (h : ∀ n, n ∈ ns ↔ n ∈ ms) : keeps ns = keeps ms := by
  funext r
  rw [Bool.eq_iff_iff, keeps_iff, keeps_iff]
  simp only [h]

theorem toolNumber_of_blank_body {s : List Char} (hs : ∀ c ∈ body s, isBlank c = true) :
    (ofChars s).toolNumber = none := by
  have hget : (ofChars s).get .t = none := by
    rw [ofChars, words_of_blanks hs]
    split
    · rw [get_set, if_neg (by decide)]
      rfl
    · rfl
  rw [toolNumber, hget]
  rfl

theorem ofChars_dropTerminator (s : List Char) : ofChars (dropTerminator s) = ofChars s := by
  obtain ⟨w, hs, hw⟩ := exists_terminator s
  conv_rhs => rw [hs]
  exact (ofChars_append_blanks _ hw).symm

/-! ### Leaving lines out -/

def left (ns : List Int) (ss : List (List Char)) : List (List Char) :=
  ss.filter fun s => keeps ns (ofChars s)

theorem left_append (ns : List Int) (ss ts : List (List Char)) :
    left ns (ss ++ ts) = left ns ss ++ left ns ts :=
  List.filter_append ..

theorem left_of_keeps {ns : List Int} {s : List Char} (h : keeps ns (ofChars s) = true) :
    left ns [s] = [s] := by
  rw [left, List.filter_singleton, h]
  rfl

theorem without_eq (ns : List Int) (text : String) :
    without ns text = String.ofList (left ns (segments text.toList)).flatten :=
  rfl

theorem segments_without (ns : List Int) (text : String) :
    segments (without ns text).toList = left ns (segments text.toList) := by
  rw [without_eq, String.toList_ofList, left, segments_flatten_filter]

theorem without_nil (text : String) : without [] text = text := by
  have hall : ∀ s ∈ segments text.toList, keeps [] (ofChars s) = true :=
    fun s _ => keeps_iff.2 fun n hn => absurd hn List.not_mem_nil
  rw [without_eq, left, List.filter_eq_self.2 hall, flatten_segments, String.ofList_toList]

theorem without_without (ns ms : List Int) (text : String) :
    without ms (without ns text) = without (ns ++ ms) text := by
  rw [without_eq, segments_without, without_eq, left, left, left, List.filter_filter]
  simp only [keeps_append, Bool.and_comm]

theorem without_congr {ns ms : List Int} (h : ∀ n, n ∈ ns ↔ n ∈ ms) (text : String) :
    without ns text = without ms text := by
  rw [without_eq, without_eq, left, left, keeps_congr h]

theorem left_segments_of_absent {n : Int} {text : String} (h : hasNumber n text = false) :
    left [n] (segments text.toList) = segments text.toList := by
  refine List.filter_eq_self.2 fun s hs => keeps_iff.2 fun m hm => ?_
  obtain rfl := List.mem_singleton.1 hm
  have hline := List.any_eq_false.1 h _ (List.mem_map_of_mem (f := dropTerminator) hs)
  rw [ofChars_dropTerminator] at hline
  simpa using hline

theorem left_line {r : Record} {n : Int} (h : r.validate = .ok n) :
    left [n] [r.lineChars ++ ['\n']] = [] := by
  obtain ⟨hnumber, hfields⟩ := Record.validate_eq_ok_iff.1 h
  have hread : ofChars (r.lineChars ++ ['\n']) = r.norm := by
    rw [ofChars_append_blanks _ isBlank_feed, ofChars_lineChars (fits_of_malformedField hfields)]
  refine List.filter_eq_nil_iff.2 fun s hs => ?_
  rw [List.mem_singleton.1 hs, keeps_iff, hread, toolNumber_norm, hnumber]
  exact fun hkeep => hkeep n List.mem_cons_self rfl

theorem without_append_entry {text : String} {r : Record} {n : Int} (hr : r.validate = .ok n)
    (hn : hasNumber n text = false) :
    (Ended text.toList → without [n] (text ++ entry text r) = text) ∧
      (¬ Ended text.toList → without [n] (text ++ entry text r) = text ++ "\n") := by
  have hsound := Record.sound_of_validate hr
  have habsent := left_segments_of_absent hn
  refine ⟨fun hs => ?_, fun hs => ?_⟩
  · rw [without_eq, String.toList_append, toList_entry_of_ended hs, segments_append hs,
      hsound.segments_line, left_append, habsent]
    change String.ofList (segments text.toList ++ left [n] [r.lineChars ++ ['\n']]).flatten = text
    rw [left_line hr, List.append_nil, flatten_segments, String.ofList_toList]
  · obtain ⟨a, l, htext, ha, hl, hne⟩ := exists_open_line hs
    rw [htext, segments_append ha, segments_of_none hl hne] at habsent
    -- with a line feed behind it the last line has the number that it had, or still none
    have hlast : keeps [n] (ofChars (l ++ ['\n'])) = true := by
      rw [ofChars_append_blanks l isBlank_feed]
      exact (List.filter_eq_self.1 habsent) l (List.mem_append_right _ List.mem_cons_self)
    have hfirst : left [n] (segments a) = segments a :=
      List.filter_eq_self.2 fun s hs =>
        (List.filter_eq_self.1 habsent) s (List.mem_append_left _ hs)
    rw [without_eq, String.toList_append, toList_entry_of_open hs, htext, List.append_assoc,
      segments_append ha, Text.segments_line hl, hsound.segments_line, left_append, hfirst]
    change String.ofList (segments a ++
      left [n] ([l ++ ['\n']] ++ [r.lineChars ++ ['\n']])).flatten = text ++ "\n"
    rw [left_append, left_of_keeps hlast, left_line hr, List.append_nil, List.flatten_append,
      flatten_segments, ← String.toList_inj, String.toList_ofList, String.toList_append, htext]
    simp

end Table

namespace Store

open Job

variable {table : Path} {t t' : FileTree} {text : String}

theorem read_of_removed {ns : List Int} (hns : ∀ n ∈ ns, 0 ≤ n) (hread : t.read table = .ok text)
    {ms : List (Option Mishap)} (hremove : (remove table ns).after t ms = (.done (.ok ()), t')) :
    t'.read table = .ok (Table.without ns text) := by
  have hskip : ¬ ns.any (· < 0) = true := by
    simpa using hns
  cases (always_remove true table ns t).of_after hremove with
  | skipped _ _ hnext =>
    rw [withoutUnlessSkipped, if_neg hskip] at hnext
    cases hnext
  | written hsees _ hnext hput =>
    rw [hread] at hsees
    cases hsees
    rw [withoutUnlessSkipped, if_neg hskip] at hnext
    cases hnext
    exact read_of_put hput

theorem exists_removed {ns : List Int} (hns : ∀ n ∈ ns, 0 ≤ n) (hread : t.read table = .ok text)
    (hbackup : ∃ x, t.target (backupPath table) = .ok x) :
    ∃ t', (remove table ns).after t [none, none, none] = (.done (.ok ()), t') ∧
      ∃ x, t'.target (backupPath table) = .ok x := by
  have hskip : ¬ ns.any (· < 0) = true := by
    simpa using hns
  obtain ⟨u, hsave⟩ := FileTree.exists_write_of_target hbackup text
  have hsaved := FileTree.puts_of_write hsave
  have htable := hsaved.exists_target rfl (FileTree.exists_target_of_read hread)
  obtain ⟨t', hwrite⟩ := FileTree.exists_write_of_target htable (Table.without ns text)
  have hwritten := FileTree.puts_of_write hwrite
  have haccess : t.access none (.readText table) = some (.ok text, t) := by
    rw [← hread]
    rfl
  have haccess' : t.access none (.writeText (backupPath table) text) = some (.ok (), u) := by
    show some (t.changeWith _ (t.write (backupPath table) text) none) = _
    rw [hsave]
    rfl
  have haccess'' : u.access none (.writeText table (Table.without ns text)) =
      some (.ok (), t') := by
    show some (u.changeWith _ (u.write table (Table.without ns text)) none) = _
    rw [hwrite]
    rfl
  refine ⟨t', ?_, hwritten.exists_target rfl (hsaved.exists_target rfl hbackup)⟩
  rw [remove_eq]
  show (Job.ask (.outside (.readText table)) _).after t [none, none, none] = _
  rw [after_outside _ haccess]
  dsimp only
  rw [if_neg hskip, backedUp, after_outside _ haccess']
  show (rewritten table (Table.without ns text)).after u [none] = _
  rw [rewritten, after_outside _ haccess'']
  rfl

/-- Removals that were made one after another, and succeeded. -/
inductive Removed (table : Path) : List (List Int) → FileTree → FileTree → Prop
  | nil (t : FileTree) : Removed table [] t t
  | cons {ns nss} {t t' t'' : FileTree} (ms)
      (h : (remove table ns).after t ms = (.done (.ok ()), t'))
      (hrest : Removed table nss t' t'') : Removed table (ns :: nss) t t''

theorem Removed.read {nss : List (List Int)} (h : Removed table nss t t')
    (hnss : ∀ ns ∈ nss, ∀ n ∈ ns, 0 ≤ n) (hread : t.read table = .ok text) :
    t'.read table = .ok (Table.without nss.flatten text) := by
  induction h generalizing text with
  | nil t => rw [hread, List.flatten_nil, Table.without_nil]
  | cons ms hremove _ ih =>
    have hfirst := read_of_removed (hnss _ List.mem_cons_self) hread hremove
    rw [ih (fun ns hns => hnss ns (List.mem_cons_of_mem _ hns)) hfirst, Table.without_without,
      List.flatten_cons]

theorem exists_removals {nss : List (List Int)} (hnss : ∀ ns ∈ nss, ∀ n ∈ ns, 0 ≤ n)
    (hread : t.read table = .ok text) (hbackup : ∃ x, t.target (backupPath table) = .ok x) :
    ∃ t', Removed table nss t t' := by
  induction nss generalizing t text with
  | nil => exact ⟨t, .nil t⟩
  | cons ns nss ih =>
    have hns := hnss ns List.mem_cons_self
    obtain ⟨u, hremove, hbackup'⟩ := exists_removed hns hread hbackup
    have hread' := read_of_removed hns hread hremove
    obtain ⟨t', hrest⟩ := ih (fun ns hns => hnss ns (List.mem_cons_of_mem _ hns)) hread' hbackup'
    exact ⟨t', .cons _ hremove hrest⟩

/-- The table after removals is what its lines are without those of the tools that were removed,
so neither the order nor the repetition of removals matters. Lines without a tool, such as blank
ones and those of a comment, stay. Removing what was added leaves the text that was there, whose
last line has been ended. -/
theorem removals_keep_lines (table : Path) (t : FileTree) :
    (∀ text, t.read table = .ok text → ∀ nss : List (List Int), (∀ ns ∈ nss, ∀ n ∈ ns, 0 ≤ n) →
      ((∃ x, t.target (backupPath table) = .ok x) → ∃ t', Removed table nss t t') ∧
      ∀ t', Removed table nss t t' →
        (∀ ss, AreSegments ss → ss.flatten = text.toList →
          t'.read table = .ok (String.ofList (ss.filter fun s =>
            ∀ n ∈ nss.flatten, (ofChars s).toolNumber ≠ some n).flatten)) ∧
        ∀ nss' t'', (∀ n, n ∈ nss'.flatten ↔ n ∈ nss.flatten) → Removed table nss' t t'' →
          t''.read table = t'.read table) ∧
    (∀ s, (∀ c ∈ body s, isBlank c = true) → (ofChars s).toolNumber = none) ∧
    ∀ r n ms t', 0 ≤ n → r.toolNumber = some n →
      (add table r).after t ms = (.done (.ok .added), t') →
      ((∃ x, t'.target (backupPath table) = .ok x) → ∃ t'', Removed table [[n]] t' t'') ∧
      ∃ text, Sees table t text ∧ ∀ t'', Removed table [[n]] t' t'' →
        (Ended text.toList → t''.read table = .ok text) ∧
        (¬ Ended text.toList → t''.read table = .ok (text ++ "\n")) := by
  refine ⟨fun text hread nss hnss => ⟨exists_removals hnss hread, fun t' h => ⟨?_, ?_⟩⟩,
    fun s => Table.toolNumber_of_blank_body, fun r n ms t' hn hr hadd => ?_⟩
  · intro ss hss htext
    have hcut : ss = segments text.toList := by rw [← htext, segments_flatten hss]
    rw [h.read hnss hread, Table.without_eq, Table.left, ← hcut]
    simp only [← Table.keeps_iff, Bool.decide_eq_true]
  · intro nss' t'' hsame h'
    have hnss' : ∀ ns ∈ nss', ∀ n ∈ ns, 0 ≤ n := by
      intro ns hns n hn
      obtain ⟨ms, hms, hn⟩ := List.mem_flatten.1 ((hsame n).1 (List.mem_flatten.2 ⟨ns, hns, hn⟩))
      exact hnss ms hms n hn
    rw [h.read hnss hread, h'.read hnss' hread, Table.without_congr hsame]
  · cases (always_add true table r t).of_after hadd with
    | @added n' text _ hvalid hsees habsent hread _ =>
      have hnumber := (Record.validate_eq_ok_iff.1 hvalid).1
      obtain rfl : n' = n := Option.some.inj (hnumber.symm.trans hr)
      obtain ⟨hended, hopen⟩ := Table.without_append_entry hvalid habsent
      have hone : ∀ ns ∈ [[n']], ∀ m ∈ ns, 0 ≤ m := by simpa using hn
      refine ⟨exists_removals hone hread, text, hsees, fun t'' h => ?_⟩
      have hafter := h.read hone hread
      rw [List.flatten_singleton] at hafter
      rw [hafter]
      exact ⟨fun hs => congrArg Except.ok (hended hs), fun hs => congrArg Except.ok (hopen hs)⟩

/-- Lines that end in two ways, hold no tool, or give a tool in small letters; the last is open. -/
def oddText : String :=
  "T1 P1\r\n\n;T2\nTx\n t2 ;a\r\nT3"

def oddTable : FileTree :=
  { nodes := [(["tool.tbl"], .text oddText)] }

theorem removals_keep_lines_odd :
    (∃ t', Removed ⟨"tool.tbl"⟩ [[2, 9], [1, 2]] oddTable t' ∧
      t'.read ⟨"tool.tbl"⟩ = .ok "\n;T2\nTx\nT3") ∧
    ∃ t' t'', (add ⟨"tool.tbl"⟩ (empty.set .t "+5")).after oddTable [none, none] =
        (.done (.ok .added), t') ∧
      Removed ⟨"tool.tbl"⟩ [[5]] t' t'' ∧ t''.read ⟨"tool.tbl"⟩ = .ok (oddText ++ "\n") := by
  obtain ⟨hremove, -, hadd⟩ := removals_keep_lines ⟨"tool.tbl"⟩ oddTable
  constructor
  · have hread : oddTable.read ⟨"tool.tbl"⟩ = .ok oddText := by decide +kernel
    obtain ⟨hexists, hlines⟩ := hremove oddText hread [[2, 9], [1, 2]] (by decide)
    obtain ⟨t', h⟩ := hexists ⟨(["tool.tbl.bak"], none), by rfl⟩
    have hleft := (hlines t' h).1 _ (areSegments_segments _) (flatten_segments _)
    refine ⟨t', h, hleft.trans (congrArg Except.ok ?_)⟩
    decide +kernel
  · have hadded : ((add ⟨"tool.tbl"⟩ (empty.set .t "+5")).after oddTable [none, none]).1.result? =
        some (.ok .added) := by decide +kernel
    have htarget : ((add ⟨"tool.tbl"⟩ (empty.set .t "+5")).after oddTable [none, none]).2.target
        (backupPath ⟨"tool.tbl"⟩) = .ok (["tool.tbl.bak"], none) := by rfl
    have hopen : ¬ Ended oddText.toList := by
      rw [Ended]
      decide +kernel
    generalize hafter : (add ⟨"tool.tbl"⟩ (empty.set .t "+5")).after oddTable [none, none] = end_
      at *
    obtain ⟨j, t'⟩ := end_
    obtain rfl : j = .done (.ok .added) := result?_eq_some_iff.1 hadded
    obtain ⟨hexists, text, hsees, hback⟩ := hadd _ 5 _ t' (by decide) (by decide +kernel) hafter
    obtain ⟨t'', h⟩ := hexists ⟨_, htarget⟩
    obtain rfl : text = oddText := hsees.eq_of_read (by decide +kernel)
    exact ⟨t', t'', rfl, h, (hback t'' h).2 hopen⟩

end Store

end MillGateway.Tool
