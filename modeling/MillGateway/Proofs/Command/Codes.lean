import MillGateway.Proofs.Command.Parts
import MillGateway.Proofs.Tool.Store

/-! What the code of a reply tells. Main statement: an unknown name, a tool that is in the table
already, and a table that could not be written have codes of their own, and no other reply has
one of them. -/

namespace MillGateway

namespace Outcome

def isCommon : Outcome → Bool
  | .toolExists | .unsupported | .toolTable _ => false
  | _ => true

theorem code_of_isCommon {o : Outcome} (h : o.isCommon = true) :
    o.code = 0 ∨ o.code = -1 ∨ o.code = -2 := by
  cases o <;> first | exact .inl rfl | exact .inr (.inl rfl) | exact .inr (.inr rfl) | cases h

end Outcome

namespace Exchange

def IsWrite : Exchange → Prop
  | ⟨.outside (.writeText _ _), _⟩ | ⟨.outside (.appendText _ _), _⟩ => True
  | _ => False

def FailsToWrite (p : Path) : Exchange → Prop
  | ⟨.outside (.writeText p' _), .error _⟩ | ⟨.outside (.appendText p' _), .error _⟩ => p' = p
  | _ => False

end Exchange

/-! ### Commands that leave the tool table alone -/

namespace Job

theorem comesTo_execute (a : Link.Action) (limit : Nat) :
    (execute a limit).ComesTo fun o => o.isCommon = true := by
  unfold execute
  refine .after fun alive => ?_
  cases alive with
  | false => rfl
  | true =>
    refine .after fun issued => ?_
    cases issued with
    | error e => rfl
    | ok h =>
      dsimp only
      split
      · refine .after fun waited => ?_
        rcases waited with e | c
        · rfl
        · cases c <;> rfl
      · refine .after fun waited => ?_
        rcases waited with _ | e | c
        · rfl
        · rfl
        · cases c <;> rfl

end Job

namespace Handle

open Job

theorem comesTo_act (a : Link.Action) (limit : Nat) :
    (act a limit).ComesTo fun r => r.outcome.isCommon = true :=
  (comesTo_execute a limit).bind fun _ h => h

theorem comesTo_startCnc (s : Setup) :
    (startCnc s).ComesTo fun r => r.outcome.isCommon = true := by
  unfold startCnc
  refine .after fun s? => ?_
  split
  · rfl
  · refine .after fun launched => ?_
    split
    · rfl
    · refine .after fun now => .after fun answered => ?_
      split
      · exact .after fun _ => rfl
      · rfl

theorem comesTo_stopCnc : stopCnc.ComesTo fun r => r.outcome.isCommon = true := by
  unfold stopCnc
  refine .after fun stopped => ?_
  split
  · rfl
  · exact .after fun _ => rfl

theorem comesTo_currentState : currentState.ComesTo fun r => r.outcome.isCommon = true := by
  unfold currentState
  refine .after fun s? => ?_
  split <;> rfl

theorem comesTo_setTaskMode (mode : Machine.TaskMode) :
    (setTaskMode mode).ComesTo fun r => r.outcome.isCommon = true := by
  unfold setTaskMode
  split
  · rfl
  · refine .after fun s? => ?_
    split
    · rfl
    · split
      · rfl
      · exact comesTo_act _ _

theorem comesTo_homeEach (axes : List UInt32) :
    (homeEach axes).ComesTo fun o => o.isCommon = true := by
  induction axes with
  | nil => rfl
  | cons axis axes ih =>
    refine (comesTo_execute (.home axis) Timing.home).bind fun o ho => ?_
    split
    · exact ih
    · exact ho

theorem comesTo_homeAll (s : Setup) : (homeAll s).ComesTo fun r => r.outcome.isCommon = true :=
  .after fun _ => (comesTo_homeEach _).bind fun _ h => h

theorem comesTo_jog (j : Link.Jog) : (jog j).ComesTo fun r => r.outcome.isCommon = true :=
  .after fun _ => comesTo_act _ _

theorem runMdi_cases (command : String) :
    runMdi command = .done (.of .emptyCommand) ∨
      ∃ a, runMdi command = act a Timing.noWait := by
  unfold runMdi
  dsimp only
  split
  · exact .inl rfl
  · exact .inr ⟨_, rfl⟩

theorem comesTo_iniParams (s : Setup) :
    (iniParams s).ComesTo fun r => r.outcome.isCommon = true := by
  change Outcome.isCommon (if _ then _ else _) = true
  split <;> rfl

theorem comesTo_loadGcode (s : Setup) (name content : String) :
    (loadGcode s name content).ComesTo fun r => r.outcome.isCommon = true := by
  unfold loadGcode
  split
  · rfl
  · refine .after fun saved => ?_
    split
    · rfl
    · refine .after fun _ => .after fun _ => (comesTo_execute _ _).bind fun o ho => ?_
      exact .after fun _ => ho

theorem comesTo_runGcode (line : Int32) :
    (runGcode line).ComesTo fun r => r.outcome.isCommon = true :=
  .after fun _ => comesTo_act _ _

theorem comesTo_stepGcode : stepGcode.ComesTo fun r => r.outcome.isCommon = true := by
  unfold stepGcode
  refine .after fun s? => ?_
  split
  · rfl
  · split
    · exact .after fun _ => .after fun _ => .after fun _ => comesTo_act _ _
    · exact comesTo_act _ _

theorem comesTo_gcodeContent : gcodeContent.ComesTo fun r => r.outcome.isCommon = true := by
  unfold gcodeContent
  refine .after fun s? => ?_
  split
  · rfl
  · split
    · rfl
    · refine .after fun text => ?_
      split <;> rfl

end Handle

/-! ### Edits of the tool table -/

namespace Tool.Store

open Job

variable {table : Path}

/-- What the errors of an edit tell: that the table could not be written, or that something went
wrong before that. -/
def Accounted (table : Path) (t : List Exchange) (e : Error) : Prop :=
  e.code = -1 ∨ e.code = -4 ∧ ∃ x ∈ t, x.FailsToWrite table

theorem code_of_validate {r : Record} {e : Error} (h : r.validate = .error e) : e.code = -1 := by
  rw [Record.validate] at h
  split at h <;> cases h <;> rfl

theorem code_of_validateAll {seen : List Int} {rs : List Record} {e : Error}
    (h : validateAll seen rs = .error e) : e.code = -1 := by
  induction rs generalizing seen with
  | nil => cases h
  | cons r rs ih =>
    rw [validateAll] at h
    cases hr : r.validate with
    | error e' =>
      rw [hr] at h
      cases h
      exact code_of_validate hr
    | ok n =>
      rw [hr] at h
      change (if seen.contains n then _ else _) = _ at h
      split at h
      · cases h
        rfl
      · exact ih h

theorem line_ne_empty {r : Record} {n : Int} (h : r.validate = .ok n) : r.line ≠ "" := by
  intro hline
  have hnum := (Record.validate_eq_ok_iff.1 h).1
  obtain ⟨v, hv, -⟩ := Option.bind_eq_some_iff.1 hnum
  have hmem : 'T' ∈ r.lineChars :=
    List.mem_flatMap.2 ⟨(.t, v), Record.mem_fields.2 hv, List.mem_cons_self⟩
  rw [← String.toList_ofList (l := r.lineChars), ← Record.line, hline] at hmem
  contradiction

def AddEnd (table : Path) (r : Record) (t : List Exchange) : Except Error Added → Prop
  | .ok .added => True
  | .ok .exists => ∃ n text, r.toolNumber = some n ∧
      ⟨.outside (.readText table), .ok text⟩ ∈ t ∧ Table.hasNumber n text = true ∧
      ∀ x ∈ t, ¬ x.IsWrite
  | .error e => Accounted table t e

theorem concludes_add (table : Path) (r : Record) :
    (add table r).Concludes (AddEnd table r) := by
  cases hr : r.validate with
  | error e =>
    rw [add_eq_error hr]
    exact .inl (code_of_validate hr)
  | ok n =>
    have hnum := (Record.validate_eq_ok_iff.1 hr).1
    have happend (t : List Exchange) (s : String) :
        Concludes (fun t' => AddEnd table r (t ++ t')) (.ask (.outside (.appendText table s))
          fun x => freed ((x.mapError (.write table)).map fun _ => Added.added)) := by
      intro x _
      cases x with
      | ok => trivial
      | error e => exact .inr ⟨rfl, ⟨.outside (.appendText table s), .error e⟩, by simp, rfl⟩
    rw [add_eq hr]
    intro _ x
    rcases x with e | text
    -- a table that is not there is one without tools
    · cases e with
      | notFound =>
        have hempty : Table.hasNumber n "" = false := rfl
        simp only [withText, appendedTo, hempty, line_ne_empty hr, if_false]
        exact happend [_, _] _
      | _ => exact fun _ => .inl rfl
    · simp only [withText, appendedTo, line_ne_empty hr, if_false]
      split
      next hn =>
        refine fun _ => ⟨n, text, hnum, by simp, hn, ?_⟩
        simp [Exchange.IsWrite]
      next => exact happend [_, _] _

theorem concludes_rewritten (table : Path) (t : List Exchange) (s : String) :
    (rewritten table s).Concludes fun t' x => ∀ e, x = .error e → Accounted table (t ++ t') e := by
  rintro x _ e hx
  cases x with
  | ok => cases hx
  | error cause =>
    cases hx
    exact .inr ⟨rfl, ⟨.outside (.writeText table s), .error cause⟩, by simp, rfl⟩

theorem concludes_remove (table : Path) (ns : List Int) :
    (remove table ns).Concludes fun t x => ∀ e, x = .error e → Accounted table t e := by
  rw [remove_eq]
  intro _ x
  cases x with
  | error e =>
    rintro _ _ ⟨⟩
    exact .inl rfl
  | ok text =>
    intro x
    cases x with
    | error e =>
      rintro _ _ ⟨⟩
      exact .inl rfl
    | ok =>
      dsimp only
      split
      · exact fun _ _ => nofun
      · exact concludes_rewritten table [_, _, _] _

theorem concludes_update (table : Path) (rs : List Record) :
    (update table rs).Concludes fun t x => ∀ e, x = .error e → Accounted table t e := by
  cases hrs : validateAll [] rs with
  | error e =>
    rw [update_eq_error hrs]
    rintro _ ⟨⟩
    exact .inl (code_of_validateAll hrs)
  | ok =>
    have hbacked (t : List Exchange) (text : String) :
        (backedUp table text (rewritten table (Table.ofRecords rs))).Concludes
          fun t' x => ∀ e, x = .error e → Accounted table (t ++ t') e := by
      intro x
      cases x with
      | error e =>
        rintro _ _ ⟨⟩
        exact .inl rfl
      | ok =>
        have hrest := concludes_rewritten table
          (t ++ [⟨.outside (.writeText (backupPath table) text), .ok ()⟩]) (Table.ofRecords rs)
        simpa only [List.append_assoc, List.singleton_append] using hrest
    rw [update_eq hrs]
    intro _ x
    rcases x with e | text
    · cases e with
      | notFound => exact hbacked [_, _] ""
      | _ =>
        rintro _ _ ⟨⟩
        exact .inl rfl
    · exact hbacked [_, _] text

end Tool.Store

namespace Order

def isEdit : Order → Bool
  | .addTool _ | .deleteTools _ | .updateTools _ => true
  | _ => false

end Order

namespace Handle

open Job

/-- How an order ends, by what was asked and answered. -/
inductive End (s : Setup) (o : Order) (t : List Exchange) (r : Reply) : Prop
  | common (hr : r.outcome.isCommon = true)
  | present {tool : Tool.Record} {table : Path} {n : Int} {text : String} (ho : o = .addTool tool)
      (htable : s.toolTable? = some table) (hnum : tool.toolNumber = some n)
      (hread : ⟨.outside (.readText table), .ok text⟩ ∈ t) (hn : Tool.Table.hasNumber n text = true)
      (hkept : ∀ x ∈ t, ¬ x.IsWrite) (hr : r.outcome = .toolExists)
  | failed {e : Tool.Error} (he : e.code = -1) (hr : r.outcome = .toolTable e)
  | unwritten {table : Path} {e : Tool.Error} (ho : o.isEdit = true)
      (htable : s.toolTable? = some table) (he : e.code = -4)
      (hx : ∃ x ∈ t, x.FailsToWrite table) (hr : r.outcome = .toolTable e)

section

variable {s : Setup} {o : Order} {t : List Exchange} {r : Reply}

theorem End.of_accounted {table : Path} {e : Tool.Error} (ho : o.isEdit = true)
    (htable : s.toolTable? = some table) (h : Tool.Store.Accounted table t e) :
    End s o t (.of (.toolTable e)) := by
  rcases h with he | ⟨he, hx⟩
  · exact .failed he rfl
  · exact .unwritten ho htable he hx rfl

theorem End.after {t' : List Exchange} (h : End s o t' r) (t : List Exchange)
    (ht : ∀ x ∈ t, ¬ x.IsWrite) : End s o (t ++ t') r := by
  cases h with
  | common hr => exact .common hr
  | present ho htable hnum hread hn hkept hr =>
    refine .present ho htable hnum (List.mem_append_right t hread) hn (fun x hx => ?_) hr
    exact (List.mem_append.1 hx).elim (ht x) (hkept x)
  | failed he hr => exact .failed he hr
  | unwritten ho htable he hx hr =>
    obtain ⟨x, hx, hfails⟩ := hx
    exact .unwritten ho htable he ⟨x, List.mem_append_right t hx, hfails⟩ hr

theorem concludes_withToolTable {f : Path → Job Reply}
    (hf : ∀ table, s.toolTable? = some table → (f table).Concludes (End s o)) :
    (withToolTable s f).Concludes (End s o) := by
  unfold withToolTable
  split
  next table htable => exact hf table htable
  next => exact .common rfl

theorem concludes_toolsData (s : Setup) : (toolsData s).Concludes (End s .toolsData) := by
  refine concludes_withToolTable fun table _ => ?_
  intro x
  cases x with
  | error e => exact .failed rfl rfl
  | ok text => exact .common rfl

theorem concludes_addTool (s : Setup) (tool : Tool.Record) :
    (addTool s tool).Concludes (End s (.addTool tool)) := by
  refine concludes_withToolTable fun table htable => ?_
  refine (Tool.Store.concludes_add table tool).bind fun t x hx => ?_
  rcases x with e | _ | _
  · exact concludes_done (.of_accounted rfl htable hx)
  · exact .common rfl
  · obtain ⟨n, text, hnum, hread, hn, hkept⟩ := hx
    exact concludes_done (.present rfl htable hnum hread hn hkept rfl)

theorem End.edited {table : Path} {x : Except Tool.Error Unit} (ho : o.isEdit = true)
    (htable : s.toolTable? = some table)
    (hx : ∀ e, x = .error e → Tool.Store.Accounted table t e) : End s o t (edited x) := by
  cases x with
  | error e => exact .of_accounted ho htable (hx e rfl)
  | ok => exact .common rfl

theorem concludes_deleteTools (s : Setup) (ns : List Int) :
    (deleteTools s ns).Concludes (End s (.deleteTools ns)) := by
  refine concludes_withToolTable fun table htable => ?_
  exact (Tool.Store.concludes_remove table ns).bind fun t x hx =>
    concludes_done (.edited rfl htable hx)

theorem concludes_updateTools (s : Setup) (tools : List Tool.Record) :
    (updateTools s tools).Concludes (End s (.updateTools tools)) := by
  refine concludes_withToolTable fun table htable => ?_
  exact (Tool.Store.concludes_update table tools).bind fun t x hx =>
    concludes_done (.edited rfl htable hx)

end

theorem concludes_order (s : Setup) (o : Order) : (order s o).Concludes (End s o) := by
  have hcommon {j : Job Reply} (hj : j.ComesTo fun r => r.outcome.isCommon = true) :
      j.Concludes (End s o) := hj.concludes.mono fun _ _ => .common
  cases o with
  | startCnc => exact hcommon (comesTo_startCnc s)
  | stopCnc => exact hcommon comesTo_stopCnc
  | currentState => exact hcommon comesTo_currentState
  | setTaskMode m => exact hcommon (comesTo_setTaskMode m)
  | homeAll => exact hcommon (comesTo_homeAll s)
  | moveAxisContinuous | moveAxisIncrement => exact hcommon (comesTo_jog _)
  | iniParams => exact hcommon (comesTo_iniParams s)
  | loadGcode name content => exact hcommon (comesTo_loadGcode s name content)
  | runGcode line => exact hcommon (comesTo_runGcode line)
  | stepGcode => exact hcommon comesTo_stepGcode
  | gcodeContent => exact hcommon comesTo_gcodeContent
  | runMdi command =>
    rw [order]
    have hcases := runMdi_cases command
    generalize runMdi command = j at hcases ⊢
    rcases hcases with rfl | ⟨a, rfl⟩
    · exact .common rfl
    · exact hcommon (comesTo_act a _)
  | toolsData => exact concludes_toolsData s
  | addTool tool => exact concludes_addTool s tool
  | deleteTools ns => exact concludes_deleteTools s ns
  | updateTools tools => exact concludes_updateTools s tools
  | _ => exact hcommon (comesTo_act _ _)

end Handle

theorem concludes_isAlive : Job.isAlive.Concludes fun t _ => ∀ x ∈ t, ¬ x.IsWrite := by
  intro _ c _
  change ∀ x ∈ [_, _, _], _
  simp [Exchange.IsWrite]

theorem concludes_handleCommand {s : Setup} {name : String} {c : Command} {args : Json}
    (hc : Command.ofName? name = some c) :
    (handleCommand s name args).Concludes fun t r => r.outcome.isCommon = true ∨
      ∃ o, orderOf? name args = some o ∧ Handle.End s o t r := by
  have hcarry (t : List Exchange) (ht : ∀ x ∈ t, ¬ x.IsWrite) :
      (Handle.carryOut s c args).Concludes fun t' r => r.outcome.isCommon = true ∨
        ∃ o, orderOf? name args = some o ∧ Handle.End s o (t ++ t') r := by
    unfold Handle.carryOut
    split
    next => exact .inl rfl
    next o hread =>
      have ho : orderOf? name args = some o := by
        rw [orderOf?, hc, Option.bind_some, hread]
        rfl
      exact (Handle.concludes_order s o).mono fun _ _ h => .inr ⟨o, ho, h.after t ht⟩
  rw [handleCommand_of_name hc]
  split
  · refine concludes_isAlive.bind fun t alive ht => ?_
    split
    · exact hcarry t ht
    · exact .inl rfl
  · exact hcarry [] (List.forall_mem_nil _)

theorem Command.ofName?_eq_none_iff {name : String} :
    Command.ofName? name = none ↔ name ∉ Command.all.map Command.name := by
  simp [Command.ofName?]

/-- What the code of a reply tells of the command, its arguments, and what was asked on the way. -/
structure Reply.Coded (s : Setup) (name : String) (args : Json) (t : List Exchange) (r : Reply) :
    Prop where
  mem : r.code ∈ ([0, 1, -1, -2, -3, -4] : List Int32)
  unsupported_iff : r.code = -3 ↔ name ∉ Command.all.map Command.name
  present : r.code = 1 → name = "add_tool" ∧ ∃ tool table n text,
    orderOf? name args = some (.addTool tool) ∧ s.toolTable? = some table ∧
    tool.toolNumber = some n ∧ ⟨.outside (.readText table), .ok text⟩ ∈ t ∧
    Tool.Table.hasNumber n text = true ∧ ∀ x ∈ t, ¬ x.IsWrite
  unwritten : r.code = -4 → name ∈ ["add_tool", "delete_tools", "update_tools"] ∧
    ∃ table, s.toolTable? = some table ∧ ∃ x ∈ t, x.FailsToWrite table

theorem Reply.Coded.of_common {s : Setup} {name : String} {args : Json} {t : List Exchange}
    {r : Reply} (hname : name ∈ Command.all.map Command.name) (hr : r.outcome.isCommon = true) :
    r.Coded s name args t := by
  have hcode := Outcome.code_of_isCommon hr
  change r.code = 0 ∨ r.code = -1 ∨ r.code = -2 at hcode
  constructor
  · rcases hcode with h | h | h <;> simp [h]
  · rcases hcode with h | h | h <;> simp [h, hname]
  · rcases hcode with h | h | h <;> simp [h]
  · rcases hcode with h | h | h <;> simp [h]

theorem Order.name_of_isEdit {o : Order} (h : o.isEdit = true) :
    o.command.name ∈ ["add_tool", "delete_tools", "update_tools"] := by
  cases o with
  | addTool | deleteTools | updateTools => simp [Order.command, Command.name]
  | _ => cases h

theorem Handle.End.coded {s : Setup} {name : String} {args : Json} {t : List Exchange} {r : Reply}
    {o : Order} (ho : orderOf? name args = some o) (h : End s o t r) : r.Coded s name args t := by
  obtain ⟨hcommand, -⟩ := name_of_orderOf? ho
  have hname : name ∈ Command.all.map Command.name :=
    hcommand ▸ List.mem_map_of_mem (Command.mem_all o.command)
  cases h with
  | common hr => exact .of_common hname hr
  | @present tool table n text hadd htable hnum hread hn hkept hr =>
    have hcode : r.code = 1 := by rw [Reply.code, hr]; rfl
    refine ⟨by simp [hcode], by simp [hcode, hname], fun _ => ?_, by simp [hcode]⟩
    subst hadd
    exact ⟨hcommand, tool, table, n, text, ho, htable, hnum, hread, hn, hkept⟩
  | failed he hr =>
    have hcode : r.code = -1 := by rw [Reply.code, hr]; exact he
    exact ⟨by simp [hcode], by simp [hcode, hname], by simp [hcode], by simp [hcode]⟩
  | @unwritten table e hedit htable he hx hr =>
    have hcode : r.code = -4 := by rw [Reply.code, hr]; exact he
    refine ⟨by simp [hcode], by simp [hcode, hname], by simp [hcode], fun _ => ?_⟩
    exact ⟨hcommand ▸ Order.name_of_isEdit hedit, table, htable, hx⟩

/-- Whatever is answered to a command, it comes to an end with one of six codes, of which -3 says
that no command has the name, 1 that the tool to add is in the table, and -4 that the table could
not be written. That a record has nothing to write, which has the code -3 too, is never found. -/
theorem reply_codes (s : Setup) (name : String) (args : Json) :
    (handleCommand s name args).Concludes (fun t r => r.Coded s name args t) ∧
      ∀ table tool, (Tool.Store.add table tool).Concludes fun _ x => x ≠ .error .emptyRecord := by
  constructor
  · cases hc : Command.ofName? name with
    | none =>
      have hname := Command.ofName?_eq_none_iff.1 hc
      unfold handleCommand
      rw [hc]
      exact ⟨by decide, iff_of_true rfl hname, nofun, nofun⟩
    | some c =>
      have hname : name ∈ Command.all.map Command.name := by
        by_contra hname
        rw [Command.ofName?_eq_none_iff.2 hname] at hc
        cases hc
      refine (concludes_handleCommand hc).mono fun t r h => ?_
      rcases h with hr | ⟨o, ho, h⟩
      · exact .of_common hname hr
      · exact h.coded ho
  · intro table tool
    refine (Tool.Store.concludes_add table tool).mono fun t x hx hempty => ?_
    subst hempty
    rcases hx with he | ⟨he, -⟩ <;> exact absurd he (by decide)

def tableSetup : Setup :=
  { (default : Setup) with toolTable? := some ⟨"tool.tbl"⟩ }

def addOne : Json :=
  .ofMembers [("tool", .ofMembers [("T", .str "1")])]

theorem reply_codes_present :
    ∃ t r, (handleCommand tableSetup "add_tool" addOne).Reaches t (.done r) ∧ r.code = 1 ∧
      r.Coded tableSetup "add_tool" addOne t := by
  have hread : Order.read .addTool (argsOrEmpty addOne) =
      .ok (.addTool (Tool.Record.empty.set .t "1")) := by rfl
  have hreach : (handleCommand tableSetup "add_tool" addOne).Reaches
      [⟨.acquire .editing, ()⟩, ⟨.outside (.readText ⟨"tool.tbl"⟩), .ok "T1 P1\n"⟩,
        ⟨.release .editing, ()⟩] (.done (.of .toolExists)) := by
    rw [handleCommand_of_name (c := .addTool) (by decide), if_neg (by decide), Handle.carryOut,
      hread]
    exact .cons _ (.cons _ (.cons _ (.refl _)))
  exact ⟨_, _, hreach, rfl, hreach.concludes (reply_codes tableSetup "add_tool" addOne).1⟩

example : Command.all.length = 25 ∧ (Command.all.map Command.name).Nodup := by decide

end MillGateway
