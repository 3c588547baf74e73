import MillGateway.Proofs.Alone.Basic
import MillGateway.Proofs.Command.Parts
import MillGateway.Proofs.Text.LetterCase
import MillGateway.Proofs.Tool.Codec
import MillGateway.Proofs.Tool.Store

/-! A client that reads the tools and sends them back as they came. Main statement: the tools stay as
they are, and once they were sent back, so does every byte of the table. -/

namespace MillGateway.Tool

open Job

namespace Record

/-! ### Records that were read -/

theorem normComment_normComment (s : List Char) : normComment (normComment s) = normComment s := by
  show Text.lower (Text.trimEnd (Text.lower (Text.trimEnd s))) = Text.lower (Text.trimEnd s)
  rw [Text.trimEnd_lower_trimEnd, Text.lower_lower]

theorem norm_eq_self {r : Record}
    (h : ∀ c, r.get .comment = some c → normComment c.toList = c.toList) : r.norm = r := by
  rw [norm]
  split
  next => rfl
  next c hc =>
    have hne : c ≠ "" := fun h => r.ne_empty .comment (h ▸ hc)
    ext1 k
    rw [h c hc, String.ofList_toList, get_set, if_neg hne]
    split
    next hk => rw [hk, hc]
    next => rfl

theorem norm_ofChars (line : List Char) : (ofChars line).norm = ofChars line := by
  apply norm_eq_self
  intro c hc
  rw [ofChars] at hc
  cases hremark : remark? line with
  | none =>
    rw [hremark] at hc
    rw [get_comment_foldl_takeWord rfl] at hc
    cases hc
  | some s =>
    rw [hremark, get_set, if_pos rfl] at hc
    split at hc
    · cases hc
    · cases hc
      rw [String.toList_ofList, normComment_normComment]

end Record

namespace Table

theorem norm_of_mem_records {text : String} {r : Record} (h : r ∈ records text) : r.norm = r := by
  obtain ⟨line, -, rfl⟩ := List.mem_map.1 h
  exact Record.norm_ofChars line

theorem records_ofRecords_records {text : String} (h : validateAll [] (records text) = .ok ()) :
    records (ofRecords (records text)) = records text := by
  calc records (ofRecords (records text))
    _ = (records text).map Record.norm := records_ofRecords (sound_of_validateAll h).1
    _ = (records text).map id := List.map_congr_left fun _ => norm_of_mem_records
    _ = records text := List.map_id _

end Table

namespace RoundTrip

/-! ### What a client receives and sends -/

theorem oneField_obj {shape : Json.Shape α} {v : Json} {a : α} (h : shape v = .ok a)
    (record name : String) : Order.oneField record name shape (.obj [(name, v)]) = .ok a := by
  have hcheck : (Json.Fields.cons ⟨name, shape, none⟩ .nil).check name v = .ok () := by
    rw [Json.Fields.check, if_pos rfl]
    show discard (shape v) = _
    rw [h]
    rfl
  have hfields : (Json.Fields.cons ⟨name, shape, none⟩ .nil).ofMembers [(name, v)] =
      .ok (a, ()) := by
    rw [Json.Fields.ofMembers, List.lookup_cons_self]
    dsimp only
    rw [h]
    rfl
  show (·.1) <$>
    (((Json.Fields.cons ⟨name, shape, none⟩ .nil).check name v >>= fun _ => pure ()) >>= fun _ =>
      (Json.Fields.cons ⟨name, shape, none⟩ .nil).ofMembers [(name, v)]) = _
  rw [hcheck]
  exact congrArg (fun x => (·.1) <$> x) hfields

theorem read_updateTools (rs : List Record) :
    Order.read .updateTools (.obj [("tools_data", .arr (rs.map Record.toJson))]) =
      .ok (.updateTools rs) :=
  congrArg (Order.updateTools <$> ·) (oneField_obj (Record.list_shape_toJson rs) _ _)

theorem get?_tools (rs : List Record) :
    (Reply.mk .ok (.tools rs)).toJson.get? "tools" = some (.arr (rs.map Record.toJson)) := by
  have hbefore : "result" < "tools" := by decide
  let reply : Reply := ⟨.ok, .tools rs⟩
  show (Json.Members.insert "result" reply.outcome.view.toJson
    [("tools", .arr (rs.map Record.toJson))]).lookup "tools" = _
  rw [Json.Members.insert, if_pos hbefore]
  rfl

variable [DecidableEq ω] (setup : Setup) (observers : Observers ω ε)

/-- A client reads the tools and sends them back as they came. Told are the tools it received and
the reply to sending them, unless it received none. -/
def sendBack : StateM (Scene ω ε) (Option (Json × Reply)) := do
  let received ← (handleCommand setup "tools_data" .null).alone observers
  match received.toJson.get? "tools" with
  | none => return none
  | some tools =>
    let args := .obj [("tools_data", tools)]
    return some (tools, ← (handleCommand setup "update_tools" args).alone observers)

def sendBackTimes : Nat → StateM (Scene ω ε) (List (Option (Json × Reply)))
  | 0 => return []
  | n + 1 => do return (← sendBack setup observers) :: (← sendBackTimes n)

/-! ### What it comes to -/

structure Ready (table : Path) (rs : List Record) (s : Scene ω ε) : Prop where
  read : ∃ text, s.files.read table = .ok text ∧ Table.records text = rs
  backup : ∃ x, s.files.target (Store.backupPath table) = .ok x

variable {setup} {table : Path} {rs : List Record} {s : Scene ω ε}

theorem alone_toolsData (htable : setup.toolTable? = some table) {text : String}
    (hread : s.files.read table = .ok text) (args : Json) :
    (handleCommand setup "tools_data" args).alone observers s =
      (⟨.ok, .tools (Table.records text)⟩, s) := by
  have hjob : handleCommand setup "tools_data" args = Handle.toolsData setup := by
    have hname : Command.ofName? "tools_data" = some .toolsData :=
      Command.ofName?_name .toolsData
    rw [handleCommand_of_name hname]
    rfl
  rw [hjob, Handle.toolsData, Handle.withToolTable, htable]
  show Job.alone observers ((Store.read table).bind _) s = _
  rw [alone_bind, Store.read_eq, alone_readText, hread]
  rfl

theorem alone_update (hrs : validateAll [] rs = .ok ()) {text : String}
    (hread : s.files.read table = .ok text)
    (hbackup : ∃ x, s.files.target (Store.backupPath table) = .ok x) :
    ∃ s', (Store.update table rs).alone observers s = (.ok (), s') ∧
      s'.files.read table = .ok (Table.ofRecords rs) ∧
      ∃ x, s'.files.target (Store.backupPath table) = .ok x := by
  obtain ⟨t, hwrite⟩ := FileTree.exists_write_of_target hbackup text
  have hsaved := FileTree.puts_of_write hwrite
  have htable := hsaved.exists_target rfl (FileTree.exists_target_of_read hread)
  obtain ⟨t', hwrite'⟩ := FileTree.exists_write_of_target htable (Table.ofRecords rs)
  have hput := FileTree.puts_of_write hwrite'
  refine ⟨(s.withFiles t).withFiles t', ?_, Store.read_of_put hput,
    hput.exists_target rfl (hsaved.exists_target rfl hbackup)⟩
  rw [Store.update_eq hrs, alone_ask]
  show Job.alone observers (ask (.outside (.readText table)) _) s = _
  rw [alone_readText, hread]
  show Job.alone observers (Store.backedUp table text _) s = _
  rw [Store.backedUp, alone_writeText, hwrite]
  show Job.alone observers (Store.rewritten table (Table.ofRecords rs)) (s.withFiles t) = _
  have hwrite'' : (s.withFiles t).files.write table (Table.ofRecords rs) = .ok t' := hwrite'
  rw [Store.rewritten, alone_writeText, hwrite'']
  rfl

theorem alone_updateTools (htable : setup.toolTable? = some table)
    (hrs : validateAll [] rs = .ok ()) (h : Ready table rs s) :
    ∃ s', (handleCommand setup "update_tools"
        (.obj [("tools_data", .arr (rs.map Record.toJson))])).alone observers s = (Reply.of .ok, s') ∧
      s'.files.read table = .ok (Table.ofRecords rs) ∧
      ∃ x, s'.files.target (Store.backupPath table) = .ok x := by
  obtain ⟨⟨text, hread, -⟩, hbackup⟩ := h
  obtain ⟨s', halone, hafter⟩ := alone_update observers hrs hread hbackup
  refine ⟨s', ?_, hafter⟩
  have hjob : handleCommand setup "update_tools"
      (.obj [("tools_data", .arr (rs.map Record.toJson))]) = Handle.updateTools setup rs := by
    have hname : Command.ofName? "update_tools" = some .updateTools :=
      Command.ofName?_name .updateTools
    have hargs : Order.read .updateTools
        (argsOrEmpty (.obj [("tools_data", .arr (rs.map Record.toJson))])) =
          .ok (.updateTools rs) := read_updateTools rs
    rw [handleCommand_of_name hname]
    show Handle.carryOut setup .updateTools _ = _
    rw [Handle.carryOut, hargs]
    rfl
  rw [hjob, Handle.updateTools, Handle.withToolTable, htable]
  show Job.alone observers ((Store.update table rs).bind fun x => done (Handle.edited x)) s = _
  rw [alone_bind, halone]
  rfl

theorem run_sendBack (htable : setup.toolTable? = some table) {text : String}
    (hrs : validateAll [] (Table.records text) = .ok ())
    (h : Ready table (Table.records text) s) :
    ∃ s', (sendBack setup observers).run s =
        (some (.arr ((Table.records text).map Record.toJson), Reply.of .ok), s') ∧
      s'.files.read table = .ok (Table.ofRecords (Table.records text)) ∧
      Ready table (Table.records text) s' := by
  obtain ⟨s', halone, hread', hbackup⟩ := alone_updateTools observers htable hrs h
  refine ⟨s', ?_, hread', ⟨_, hread', Table.records_ofRecords_records hrs⟩, hbackup⟩
  obtain ⟨text', hread, hrecords⟩ := h.read
  have hreceived := alone_toolsData observers htable hread .null
  rw [hrecords] at hreceived
  rw [sendBack, StateT.run_bind, StateT.run, hreceived]
  show StateT.run (match (Reply.mk .ok (.tools (Table.records text))).toJson.get? "tools" with
    | none => return none
    | some tools => do
      let args := .obj [("tools_data", tools)]
      return some (tools, ← (handleCommand setup "update_tools" args).alone observers)) s = _
  rw [get?_tools]
  dsimp only
  rw [StateT.run_bind, StateT.run, halone]
  rfl

/-- However often a client sends back the tools that it read, it is told that this went well, and it
reads the same tools again. From the first time on, the table keeps every byte. -/
theorem sendBackTimes_unchanged (setup : Setup) (observers : Observers ω ε) (s : Scene ω ε)
    (table : Path) (text : String) (htable : setup.toolTable? = some table)
    (hread : s.files.read table = .ok text)
    (hbackup : ∃ x, s.files.target (Store.backupPath table) = .ok x)
    (hvalid : validateAll [] (Table.records text) = .ok ()) (n : Nat) :
    ∃ s', (sendBackTimes setup observers n).run s =
        (List.replicate n
          (some (.arr ((Table.records text).map Record.toJson), Reply.of .ok)), s') ∧
      (0 < n → s'.files.read table = .ok (Table.ofRecords (Table.records text))) := by
  have hready : Ready table (Table.records text) s := ⟨⟨text, hread, rfl⟩, hbackup⟩
  clear hread hbackup
  induction n generalizing s with
  | zero => exact ⟨s, rfl, fun h => absurd h (Nat.lt_irrefl 0)⟩
  | succ n ih =>
    obtain ⟨s', hfirst, hwritten, hready'⟩ := run_sendBack observers htable hvalid hready
    obtain ⟨s'', hrest, hkept⟩ := ih s' hready'
    refine ⟨s'', ?_, fun _ => ?_⟩
    · rw [sendBackTimes, StateT.run_bind, hfirst]
      show StateT.run (do
        return (some (.arr ((Table.records text).map Record.toJson), Reply.of .ok)) ::
          (← sendBackTimes setup observers n)) s' = _
      rw [StateT.run_bind, hrest]
      rfl
    · cases n with
      | zero =>
        cases hrest
        exact hwritten
      | succ n => exact hkept (Nat.succ_pos n)

def unevenText : String :=
  "P7 t3 D+0.500 D.25 ;Long DRILL Ø6 \r\n\r\n  T1  x ;\nT2;;a"

def uneven : Scene Nat Unit where
  gateway := { left := () }
  world := { files := { nodes := [(["tool.tbl"], .text unevenText)] } }

def unevenSetup : Setup :=
  { (default : Setup) with toolTable? := some ⟨"/tool.tbl"⟩ }

theorem sendBackTimes_unchanged_uneven :
    ∃ s', (sendBackTimes unevenSetup indifferent 2).run uneven =
        (List.replicate 2
          (some (.arr ((Table.records unevenText).map Record.toJson), Reply.of .ok)), s') ∧
      s'.files.read ⟨"/tool.tbl"⟩ = .ok "T3 P7 D+0.500 ;long drill ø6\nT1 \nT2 ;;a\n" := by
  have hvalid : validateAll [] (Table.records unevenText) = .ok () := by decide +kernel
  have hread : uneven.files.read ⟨"/tool.tbl"⟩ = .ok unevenText := by rfl
  have hbackup : uneven.files.target (Store.backupPath ⟨"/tool.tbl"⟩) =
      .ok (["tool.tbl.bak"], none) := by rfl
  have hbytes : Table.ofRecords (Table.records unevenText) =
      "T3 P7 D+0.500 ;long drill ø6\nT1 \nT2 ;;a\n" := by decide +kernel
  obtain ⟨s', hrun, hkept⟩ := sendBackTimes_unchanged unevenSetup indifferent uneven
    ⟨"/tool.tbl"⟩ unevenText rfl hread ⟨_, hbackup⟩ hvalid 2
  refine ⟨s', hrun, ?_⟩
  rw [hkept (Nat.succ_pos 1), hbytes]

end RoundTrip

end MillGateway.Tool
