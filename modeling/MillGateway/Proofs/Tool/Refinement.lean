import MillGateway.Proofs.Tool.Store

/-! The file of the tool table as a list of tools. Main statement: adding appends to the list unless
the tool number is in it, removing takes tools out, and updating replaces the list. -/

namespace MillGateway.Tool.Store

open Job

def tools? (table : Path) (t : FileTree) : Option (List Record) :=
  match ((read table).after t [none]).1 with
  | .done (.ok rs) => some rs
  | .done (.error (.read _ .notFound)) => some []
  | _ => none

theorem tools?_of_text {table : Path} {t : FileTree} {text : String}
    (h : t.read table = .ok text) : tools? table t = some (Table.records text) := by
  have hread : t.access none (.readText table) = some (.ok text, t) := by rw [← h]; rfl
  rw [tools?, read_eq, after_outside _ hread, after_done]
  rfl

theorem text_of_tools? {table : Path} {t : FileTree} {tools : List Record}
    (h : tools? table t = some tools) :
    (∃ text, t.read table = .ok text ∧ Table.records text = tools) ∨
      t.read table = .error .notFound ∧ tools = [] := by
  cases hread : t.read table with
  | ok text =>
    rw [tools?_of_text hread] at h
    exact .inl ⟨text, rfl, Option.some.inj h⟩
  | error e =>
    have hacc : t.access none (.readText table) = some (.error e, t) := by rw [← hread]; rfl
    rw [tools?, read_eq, after_outside _ hacc, after_done] at h
    cases e with
    | notFound => exact .inr ⟨rfl, (Option.some.inj h).symm⟩
    | _ => cases h

theorem records_of_sees {table : Path} {t : FileTree} {tools : List Record} {text : String}
    (h : tools? table t = some tools) (hsees : Sees table t text) : Table.records text = tools := by
  rcases text_of_tools? h with ⟨text', hread, htools⟩ | ⟨hread, rfl⟩
  · rw [hsees.eq_of_read hread]
    exact htools
  · rw [hsees.eq_of_notFound hread]
    rfl

section

variable {table : Path} {t t' : FileTree} {tools : List Record} {ms : List (Option Mishap)}

theorem tools?_of_added {r : Record} (h : tools? table t = some tools)
    (hadd : (add table r).after t ms = (.done (.ok .added), t')) :
    tools? table t' = some (tools ++ [r.norm]) := by
  -- the entry that was appended is read as one more tool
  cases (always_add true table r t).of_after hadd with
  | added hr hsees _ hread _ =>
    rw [tools?_of_text hread, Table.records_append_entry _ (Record.sound_of_validate hr),
      records_of_sees h hsees]

theorem validate_of_added {r : Record}
    (hadd : (add table r).after t ms = (.done (.ok .added), t')) :
    ∃ n, r.validate = .ok n := by
  cases (always_add true table r t).of_after hadd with
  | added hr _ _ _ _ => exact ⟨_, hr⟩

theorem of_exists {r : Record} (h : tools? table t = some tools)
    (hadd : (add table r).after t ms = (.done (.ok .exists), t')) :
    (∃ s ∈ tools, s.toolNumber = r.toolNumber) ∧ t' = t := by
  cases (always_add true table r t).of_after hadd with
  | «exists» hr hsees hn =>
    rw [← records_of_sees h hsees, (Record.validate_eq_ok_iff.1 hr).1, ← Table.mem_numbers_iff,
      ← Table.hasNumber_iff]
    exact ⟨hn, rfl⟩

theorem after_add_of_taken {r : Record} {n : Int} (h : tools? table t = some tools)
    (hr : r.validate = .ok n) (hn : ∃ s ∈ tools, s.toolNumber = some n)
    (ms : List (Option Mishap)) :
    (add table r).after t (none :: ms) = (.done (.ok .exists), t) := by
  have hseen : ∀ text, Sees table t text →
      (appendedTo table r n text).after t ms = (.done (.ok .exists), t) := by
    intro text hsees
    rw [← records_of_sees h hsees, ← Table.mem_numbers_iff, ← Table.hasNumber_iff] at hn
    rw [appendedTo, if_pos hn]
    exact after_done _ t ms
  rw [add_eq hr]
  rcases text_of_tools? h with ⟨text, hread, -⟩ | ⟨hread, -⟩
  · have hacc : t.access none (.readText table) = some (.ok text, t) := by rw [← hread]; rfl
    exact (after_outside _ hacc ms).trans (hseen text (.inl hread))
  · have hacc : t.access none (.readText table) = some (.error .notFound, t) := by
      rw [← hread]; rfl
    exact (after_outside _ hacc ms).trans (hseen "" (.inr ⟨hread, rfl⟩))

theorem tools?_of_removed {ns : List Int} (h : tools? table t = some tools)
    (hremove : (remove table ns).after t ms = (.done (.ok ()), t')) :
    tools? table t' = some (if ns.any (· < 0) then tools else tools.filter (Table.keeps ns)) := by
  cases (always_remove true table ns t).of_after hremove with
  | skipped hread hput hnext =>
    rename_i text
    rw [withoutUnlessSkipped] at hnext
    split at hnext
    -- even if the backup has gone to the table, that holds its old text
    next hskip =>
      have hkept : t'.read table = .ok text := by
        rw [FileTree.read_eq_ok_iff]
        rcases hput.content_other rfl table with hother | hother
        · rw [hother, FileTree.read_eq_ok_iff.1 hread]
        · exact hother
      rw [if_pos hskip, tools?_of_text hkept, records_of_sees h (.inl hread)]
    next => cases hnext
  | written hread hput hnext hput' =>
    rw [withoutUnlessSkipped] at hnext
    split at hnext
    next => cases hnext
    next hskip =>
      cases hnext
      rw [if_neg hskip, tools?_of_text (read_of_put hput'), Table.records_without,
        records_of_sees h (.inl hread)]

theorem tools?_of_updated {rs : List Record}
    (hupdate : (update table rs).after t ms = (.done (.ok ()), t')) :
    tools? table t' = some (rs.map Record.norm) := by
  have hsound : ∀ r ∈ rs, Table.Sound r := by
    cases hrs : validateAll [] rs with
    | error e =>
      rw [update_eq_error hrs, after_done] at hupdate
      cases hupdate
    | ok => exact (sound_of_validateAll hrs).1
  cases (always_update true table rs t).of_after hupdate with
  | skipped _ _ hnext => cases hnext
  | written _ _ hnext hput' =>
    cases hnext
    rw [tools?_of_text (read_of_put hput'), Table.records_ofRecords hsound]

/-- The edits of the table are those of a list: tools are added at its end, unless their number is
in it, they are taken out of it, or it is replaced. -/
theorem edits_refine_list (h : tools? table t = some tools) :
    (∀ r ms t', (add table r).after t ms = (.done (.ok .added), t') →
      tools? table t' = some (tools ++ [r.norm]) ∧
        ∀ r', r'.toolNumber = r.toolNumber → r'.malformedField = none → ∀ ms',
          (add table r').after t' (none :: ms') = (.done (.ok .exists), t')) ∧
    (∀ r n, r.validate = .ok n →
      (∀ ms t', (add table r).after t ms = (.done (.ok .exists), t') →
        (∃ s ∈ tools, s.toolNumber = some n) ∧ t' = t) ∧
      ((∃ s ∈ tools, s.toolNumber = some n) → ∀ ms,
        (add table r).after t (none :: ms) = (.done (.ok .exists), t))) ∧
    (∀ ns ms t', (remove table ns).after t ms = (.done (.ok ()), t') →
      tools? table t' = some (if ns.any (· < 0) then tools else tools.filter (Table.keeps ns))) ∧
    ∀ rs ms t', (update table rs).after t ms = (.done (.ok ()), t') →
      tools? table t' = some (rs.map Record.norm) := by
  refine ⟨fun r ms t' hadd => ?_, fun r n hr => ⟨fun ms t' hadd => ?_, ?_⟩,
    fun ns ms t' hremove => tools?_of_removed h hremove,
    fun rs ms t' hupdate => tools?_of_updated hupdate⟩
  · have hadded := tools?_of_added h hadd
    refine ⟨hadded, fun r' hnum hfields ms' => ?_⟩
    obtain ⟨n, hr⟩ := validate_of_added hadd
    have hn := (Record.validate_eq_ok_iff.1 hr).1
    refine after_add_of_taken hadded (Record.validate_eq_ok_iff.2 ⟨hnum.trans hn, hfields⟩) ?_ ms'
    exact ⟨r.norm, List.mem_append_right _ List.mem_cons_self, (Record.toolNumber_norm r).trans hn⟩
  · obtain ⟨hn, ht⟩ := of_exists h hadd
    exact ⟨(Record.validate_eq_ok_iff.1 hr).1 ▸ hn, ht⟩
  · exact fun hn => after_add_of_taken h hr hn

def threeTools : FileTree :=
  { nodes := [(["tool.tbl"], .text "T1 P1\nT2 P2 D6.0 ;mill\nT5 P5\n")] }

def drill (n : String) : Record :=
  ((Record.empty.set .t n).set .d "3.5").set .comment "drill"

theorem edits_refine_list_three_tools :
    let table : Path := ⟨"tool.tbl"⟩
    let tools := Table.records "T1 P1\nT2 P2 D6.0 ;mill\nT5 P5\n"
    tools.filterMap Record.toolNumber = [1, 2, 5] ∧ tools? table threeTools = some tools ∧
      tools? table ((add table (drill "7")).after threeTools [none, none]).2 =
        some (tools ++ [(drill "7").norm]) ∧
      (add table (drill "2")).after threeTools [none] = (.done (.ok .exists), threeTools) ∧
      tools? table ((remove table [2, 9]).after threeTools [none, none, none]).2 =
        some (tools.filter fun r => r.toolNumber != some 2) ∧
      tools? table ((update table [drill "7", drill "2"]).after threeTools [none, none, none]).2 =
        some [(drill "7").norm, (drill "2").norm] := by
  intro table tools
  have hends {β : Type} {x : Job β × FileTree} {b : β} (h : x.1.result? = some b) :
      x = (.done b, x.2) :=
    Prod.ext (result?_eq_some_iff.1 h) rfl
  have htools : tools? table threeTools = some tools := tools?_of_text (by decide +kernel)
  have hnumbers : tools.filterMap Record.toolNumber = [1, 2, 5] := by decide +kernel
  have hkept : (if [2, 9].any (fun n : Int => decide (n < 0)) then tools
      else tools.filter (Table.keeps [2, 9])) = tools.filter fun r => r.toolNumber != some 2 := by
    decide +kernel
  obtain ⟨hadd, hexists, hremove, hupdate⟩ := edits_refine_list htools
  refine ⟨hnumbers, htools, (hadd _ _ _ (hends (by decide +kernel))).1, ?_, ?_,
    hupdate _ _ _ (hends (by decide +kernel))⟩
  · refine (hexists (drill "2") 2 (by rfl)).2 ?_ []
    exact List.mem_filterMap.1 (by rw [hnumbers]; decide)
  · exact (hremove _ _ _ (hends (by decide +kernel))).trans (congrArg some hkept)

end

end MillGateway.Tool.Store
