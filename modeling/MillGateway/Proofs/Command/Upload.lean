import MillGateway.Proofs.Command.Staging

/-! Uploads of programs in sessions over a simulated controller. Main statement: whatever else was
handled, the text of the opened program is that of the last upload that went well. -/

namespace MillGateway

open Job Machine

/-! ### Uploads and looks -/

structure Machine.Status.HasOpened (s : Status) (p : Path) : Prop where
  mode : s.taskMode = .manual
  idle : s.interpState = .idle
  file : s.file = p.text

namespace Handle

def opening (p : Path) : Job Reply := do
  attempt .resetInterpreter Timing.noWait
  attempt (.mode .auto) Timing.programMode
  let o ← execute (.programOpen p) Timing.programOpen
  attempt (.mode .manual) Timing.programMode
  return .of o

theorem loadGcode_eq {setup : Setup} {name : String} (hname : Path.isPlainName name = true)
    (content : String) :
    loadGcode setup name content = ask (.outside (.writeText (setup.staged name) content)) fun
      | .error e => done (.of (.saveFailed (setup.staged name) e))
      | .ok () => opening (setup.staged name) := by
  rw [loadGcode, hname, if_neg (by decide)]
  refine congrArg (ask (.outside (.writeText (setup.staged name) content))) (funext fun x => ?_)
  cases x <;> rfl

section

variable [DecidableEq ω] (observers : Observers ω ε) {setup : Setup} {text : String}
  {s : Scene ω ε}

structure Did (a : Link.Action) (m m' : Link.Simulator) : Prop where
  status : m'.status = (Link.Simulator.apply m.status a).1
  running : m'.running = true
  scripted : m'.scripted = []

theorem alone_execute_did (hs : s.world.Still) (halive : s.gateway.cache.alive = true)
    {m : Link.Simulator} (hrunning : m.running = true) (hscripted : m.scripted = [])
    (a : Link.Action) (limit : Nat) :
    ∃ m', (execute a limit).alone observers (s.withMachine m) =
      (immediateOutcome (.ok (Link.Simulator.apply m.status a).2), s.withMachine m') ∧
        Did a m m' := by
  obtain ⟨m', halone, hstatus, hrunning', hscripted'⟩ :=
    alone_execute_up (s := s.withMachine m) observers (hs.withMachine hscripted) halive hrunning
      a limit
  exact ⟨m', halone, hstatus, hrunning', hscripted'⟩

theorem alone_attempt_did (hs : s.world.Still) (halive : s.gateway.cache.alive = true)
    {m : Link.Simulator} (hrunning : m.running = true) (hscripted : m.scripted = [])
    (a : Link.Action) (limit : Nat) :
    ∃ m', (attempt a limit).alone observers (s.withMachine m) = ((), s.withMachine m') ∧
      Did a m m' := by
  obtain ⟨m', halone, hdid⟩ := alone_execute_did observers hs halive hrunning hscripted a limit
  refine ⟨m', ?_, hdid⟩
  rw [attempt, alone_discard, halone]

theorem alone_opening (hs : s.world.Still) (halive : s.gateway.cache.alive = true)
    (hrunning : s.machine.running = true) (p : Path) :
    ∃ m, (opening p).alone observers s = (.of .ok, s.withMachine m) ∧ m.running = true ∧
      m.scripted = [] ∧ m.status.HasOpened p := by
  obtain ⟨m₁, hreset, hdid₁⟩ := alone_attempt_did (m := s.machine) observers hs halive hrunning
    hs.unscripted .resetInterpreter Timing.noWait
  obtain ⟨m₂, hauto, hdid₂⟩ := alone_attempt_did observers hs halive hdid₁.running hdid₁.scripted
    (.mode .auto) Timing.programMode
  obtain ⟨m₃, hopen, hdid₃⟩ := alone_execute_did observers hs halive hdid₂.running hdid₂.scripted
    (.programOpen p) Timing.programOpen
  obtain ⟨m₄, hmanual, hdid₄⟩ := alone_attempt_did observers hs halive hdid₃.running hdid₃.scripted
    (.mode .manual) Timing.programMode
  have halone : (opening p).alone observers s = (.of .ok, s.withMachine m₄) := by
    calc (opening p).alone observers s
      _ = Job.alone observers _ (s.withMachine m₁) := alone_bind_of observers hreset _
      _ = Job.alone observers _ (s.withMachine m₂) := alone_bind_of observers hauto _
      _ = Job.alone observers _ (s.withMachine m₃) := alone_bind_of observers hopen _
      _ = Job.alone observers _ (s.withMachine m₄) := alone_bind_of observers hmanual _
      _ = (.of .ok, s.withMachine m₄) := rfl
  have hstatus : m₄.status =
      { s.machine.status with interpState := .idle, taskMode := .manual, file := p.text } := by
    rw [hdid₄.status, hdid₃.status, hdid₂.status, hdid₁.status]
    rfl
  refine ⟨m₄, halone, hdid₄.running, hdid₄.scripted, ?_⟩
  rw [hstatus]
  exact ⟨rfl, rfl, rfl⟩

theorem alone_loadGcode (h : Staged setup text s) (halive : s.gateway.cache.alive = true)
    (name content : String) :
    ∃ r s', (loadGcode setup name content).alone observers s = (r, s') ∧
      (r.code ≠ 0 ∧ s' = s ∨ r.code = 0 ∧ Staged setup content s' ∧
        s'.machine.status.HasOpened (setup.staged name)) := by
  have hrefused : (-1 : Int32) ≠ 0 := by decide
  cases hname : Path.isPlainName name with
  | false =>
    refine ⟨.of (.badProgramName name), s, ?_, .inl ⟨hrefused, rfl⟩⟩
    rw [loadGcode, hname]
    rfl
  | true =>
    rw [loadGcode_eq hname, alone_writeText]
    cases hwrite : s.files.write (setup.staged name) content with
    | error e => exact ⟨_, s, rfl, .inl ⟨hrefused, rfl⟩⟩
    | ok t =>
      have hput := FileTree.puts_of_write hwrite
      have hstill : (s.withFiles t).world.Still := ⟨h.still.unhindered, h.still.unscripted⟩
      obtain ⟨m, hopening, hrunning, hscripted, hopened⟩ :=
        alone_opening observers hstill halive (h.runs halive) (setup.staged name)
      refine ⟨_, _, hopening, .inr ⟨rfl, ?_, hopened⟩⟩
      refine ⟨hstill.withMachine hscripted, fun _ => hrunning, h.separates.puts rfl hput, ?_⟩
      exact .inr ⟨name, hname, hopened.file, Tool.Store.read_of_put hput⟩

def shown (file : String) : Except FileError String → Reply
  | .ok text => ⟨.ok, .content text⟩
  | .error e => .of (.openFailed ⟨file⟩ e)

theorem gcodeContent_eq : gcodeContent = pollStatus.bind fun
    | none => done (.of .notRunning)
    | some st =>
      if st.file = "" then done ⟨.ok, .content ""⟩
      else ask (.outside (.readText ⟨st.file⟩)) fun x => done (shown st.file x) := by
  rw [gcodeContent]
  refine congrArg pollStatus.bind (funext fun s? => ?_)
  cases s? with
  | none => rfl
  | some st =>
    dsimp only
    split
    · rfl
    · refine congrArg (ask (.outside (.readText ⟨st.file⟩))) (funext fun x => ?_)
      cases x <;> rfl

theorem alone_gcodeContent (h : Staged setup text s)
    (hcode : (gcodeContent.alone observers s).1.code = 0) :
    (gcodeContent.alone observers s).1.body = .content text := by
  rw [gcodeContent_eq] at hcode ⊢
  cases hrunning : s.machine.running with
  | false =>
    rw [alone_bind_of observers (alone_pollStatus_stopped observers h.still hrunning)] at hcode
    exact absurd hcode (by decide : (-2 : Int32) ≠ 0)
  | true =>
    rw [alone_bind_of observers (alone_pollStatus_running observers h.still hrunning)]
    dsimp only
    obtain ⟨hfile, rfl⟩ | ⟨name, hname, hfile, hread⟩ := h.opened
    · rw [if_pos hfile]
      rfl
    · have hopen : s.machine.status.file ≠ "" := hfile ▸ Setup.staged_text_ne_empty hname
      have hread' : s.files.read ⟨s.machine.status.file⟩ = .ok text := by
        rw [hfile]
        exact hread
      rw [if_neg hopen, alone_readText]
      show (shown _ (s.files.read ⟨s.machine.status.file⟩)).body = _
      rw [hread']
      rfl

end

end Handle

/-! ### Sessions -/

structure Handled where
  name : String
  args : Json
  reply : Reply

def Handled.uploaded? (c : Handled) : Option String :=
  match orderOf? c.name c.args with
  | some (.loadGcode _ content) => if c.reply.code = 0 then some content else none
  | _ => none

/-- The text of the last upload that went well, empty if there is none. -/
def lastUploaded (cs : List Handled) : String :=
  (cs.filterMap Handled.uploaded?).getLastD ""

section

variable [DecidableEq ω] (setup : Setup) (observers : Observers ω ε)

def session : List (String × Json) → StateM (Scene ω ε) (List Handled)
  | [] => return []
  | (name, args) :: rest => do
    let reply ← (handleCommand setup name args).alone observers
    return ⟨name, args, reply⟩ :: (← session rest)

theorem alone_handleCommand (s : Scene ω ε) (name : String) (args : Json) :
    (∃ r, (handleCommand setup name args).alone observers s = (r, s) ∧ r.code ≠ 0) ∨
    ∃ c o, Command.ofName? name = some c ∧ Order.read c (argsOrEmpty args) = .ok o ∧
      (c.requiresLink = true → s.gateway.cache.alive = true) ∧
      (handleCommand setup name args).alone observers s =
        (Handle.order setup o).alone observers s := by
  cases hc : Command.ofName? name with
  | none =>
    refine .inl ⟨.of .unsupported, ?_, (by decide : (-3 : Int32) ≠ 0)⟩
    rw [handleCommand, hc]
    rfl
  | some c =>
    have hcarry : (∃ r, (Handle.carryOut setup c args).alone observers s = (r, s) ∧ r.code ≠ 0) ∨
        ∃ o, Order.read c (argsOrEmpty args) = .ok o ∧
          Handle.carryOut setup c args = Handle.order setup o := by
      unfold Handle.carryOut
      cases Order.read c (argsOrEmpty args) with
      | error e => exact .inl ⟨_, rfl, (by decide : (-1 : Int32) ≠ 0)⟩
      | ok o => exact .inr ⟨o, rfl, rfl⟩
    rw [handleCommand_of_name hc]
    by_cases hdown : c.requiresLink = true ∧ s.gateway.cache.alive = false
    · left
      refine ⟨.of .notRunning, ?_, (by decide : (-2 : Int32) ≠ 0)⟩
      rw [if_pos hdown.1, alone_bind_of observers (alone_isAlive observers s), hdown.2]
      rfl
    · have halive : c.requiresLink = true → s.gateway.cache.alive = true := by
        intro hlink
        cases hcache : s.gateway.cache.alive with
        | true => rfl
        | false => exact absurd ⟨hlink, hcache⟩ hdown
      have hjob : (if c.requiresLink then isAlive.bind fun alive =>
          if alive then Handle.carryOut setup c args else .done (.of .notRunning)
          else Handle.carryOut setup c args).alone observers s =
            (Handle.carryOut setup c args).alone observers s := by
        split
        next hlink =>
          rw [alone_bind_of observers (alone_isAlive observers s), halive hlink]
          rfl
        next => rfl
      rw [hjob]
      rcases hcarry with hrefused | ⟨o, hread, hcarry⟩
      · exact .inl hrefused
      · rw [hcarry]
        exact .inr ⟨c, o, rfl, hread, halive, rfl⟩

variable {setup} {text : String} {s : Scene ω ε}

theorem uploaded?_of_refused {name : String} {args : Json} {r : Reply} (hcode : r.code ≠ 0) :
    (Handled.mk name args r).uploaded? = none := by
  rw [Handled.uploaded?]
  split
  · rw [if_neg hcode]
  · rfl

theorem uploaded?_of_other {name : String} {args : Json} {o : Order}
    (ho : orderOf? name args = some o) (hother : ∀ program content, o ≠ .loadGcode program content)
    (r : Reply) : (Handled.mk name args r).uploaded? = none := by
  rw [Handled.uploaded?, ho]
  split
  next program content hload => exact absurd (Option.some.inj hload) (hother program content)
  next => rfl

theorem command_of_name {name : String} {c c' : Command} (hc : Command.ofName? name = some c)
    (hname : name = c'.name) : c = c' := by
  rw [hname, Command.ofName?_name] at hc
  exact (Option.some.inj hc).symm

theorem staged_handleCommand (h : Staged setup text s) (name : String) (args : Json) {r : Reply}
    {s' : Scene ω ε} (halone : (handleCommand setup name args).alone observers s = (r, s')) :
    Staged setup ((Handled.mk name args r).uploaded?.getD text) s' ∧
    (name = "gcode_content" → r.code = 0 → r.body = .content text) ∧
    (name = "load_gcode" → r.code = 0 → ∃ program content,
      orderOf? name args = some (.loadGcode program content) ∧
      s'.machine.status.HasOpened (setup.staged program)) := by
  rcases alone_handleCommand setup observers s name args with
    ⟨r', hrefused, hcode⟩ | ⟨c, o, hc, hread, halive, hcarry⟩
  · rw [hrefused] at halone
    obtain ⟨rfl, rfl⟩ := Prod.mk.inj halone
    rw [uploaded?_of_refused hcode]
    exact ⟨h, fun _ h0 => absurd h0 hcode, fun _ h0 => absurd h0 hcode⟩
  rw [hcarry] at halone
  have ho : orderOf? name args = some o := by
    rw [orderOf?, hc, Option.bind_some, hread]
    rfl
  have hcommand : o.command = c := Order.command_of_read hread
  by_cases hload : ∃ program content, o = .loadGcode program content
  · obtain ⟨program, content, rfl⟩ := hload
    obtain rfl : .loadGcode = c := hcommand
    obtain ⟨r', s'', hupload, hcame⟩ :=
      Handle.alone_loadGcode observers h (halive rfl) program content
    obtain ⟨rfl, rfl⟩ := Prod.mk.inj (halone.symm.trans hupload)
    have hnoLook : name ≠ "gcode_content" := by
      intro hname
      have heq : Command.loadGcode = .gcodeContent := command_of_name hc hname
      cases heq
    refine ⟨?_, fun hname => absurd hname hnoLook, ?_⟩
    · rcases hcame with ⟨hcode, rfl⟩ | ⟨hcode, hstaged, -⟩
      · rw [uploaded?_of_refused hcode]
        exact h
      · rw [Handled.uploaded?, ho]
        dsimp only
        rw [if_pos hcode]
        exact hstaged
    · intro _ h0
      rcases hcame with ⟨hcode, -⟩ | ⟨-, -, hopened⟩
      · exact absurd h0 hcode
      · exact ⟨program, content, ho, hopened⟩
  · have hother : ∀ program content, o ≠ .loadGcode program content :=
      fun program content hload' => hload ⟨program, content, hload'⟩
    have hstaged : Staged setup text ((Handle.order setup o).alone observers s).2 :=
      Handle.preserves_order hother s h
    rw [halone] at hstaged
    rw [uploaded?_of_other ho hother]
    refine ⟨hstaged, fun hname h0 => ?_, fun hname => ?_⟩
    · obtain rfl : c = .gcodeContent := command_of_name hc hname
      cases hread
      have hbody := Handle.alone_gcodeContent observers h
      have hjob : Handle.gcodeContent.alone observers s = (r, s') := halone
      rw [hjob] at hbody
      exact hbody h0
    · obtain rfl : c = .loadGcode := command_of_name hc hname
      cases o with
      | loadGcode program content => exact absurd rfl (hother program content)
      | _ => cases hcommand

theorem staged_session (h : Staged setup text s) (cs : List (String × Json)) {past : List Handled}
    {s' : Scene ω ε} (hrun : (session setup observers cs).run s = (past, s')) :
    Staged setup ((past.filterMap Handled.uploaded?).getLastD text) s' := by
  induction cs generalizing s text past with
  | nil =>
    cases hrun
    exact h
  | cons c cs ih =>
    obtain ⟨name, args⟩ := c
    cases halone : (handleCommand setup name args).alone observers s with
    | mk r s₁ =>
      cases hrest : (session setup observers cs).run s₁ with
      | mk rest s₂ =>
        have hrun' : (session setup observers ((name, args) :: cs)).run s =
            (⟨name, args, r⟩ :: rest, s₂) := by
          rw [session, StateT.run_bind, StateT.run, halone]
          show StateT.run (do return ⟨name, args, r⟩ :: (← session setup observers cs)) s₁ = _
          rw [StateT.run_bind, hrest]
          rfl
        obtain ⟨rfl, rfl⟩ := Prod.mk.inj (hrun.symm.trans hrun')
        have hstaged := ih (staged_handleCommand observers h name args halone).1 hrest
        rw [List.filterMap_cons]
        cases huploaded : (Handled.mk name args r).uploaded? with
        | none =>
          rw [huploaded] at hstaged
          exact hstaged
        | some content =>
          rw [huploaded] at hstaged
          rw [List.getLastD_cons]
          exact hstaged

/-- In a session over a simulated controller that nobody interferes with, a look at the opened
program that goes well finds the text of the last upload that went well, and an upload that goes
well leaves the machine in manual mode, with an idle interpreter and the staged program open. -/
theorem upload_round_trip (setup : Setup) (observers : Observers ω ε) (s : Scene ω ε)
    (hstill : s.world.Still) (hruns : s.gateway.cache.alive = true → s.machine.running = true)
    (hclosed : s.machine.status.file = "") (hlinks : s.files.HasNoLinks setup.stagingDir)
    (houtside : ∀ table, setup.toolTable? = some table →
      s.files.IsOutside setup.stagingDir table ∧
      s.files.IsOutside setup.stagingDir (Tool.Store.backupPath table))
    (cs : List (String × Json)) (past : List Handled) (s₁ : Scene ω ε)
    (hpast : (session setup observers cs).run s = (past, s₁))
    (name : String) (args : Json) (reply : Reply) (s₂ : Scene ω ε)
    (hreply : ((handleCommand setup name args).alone observers).run s₁ = (reply, s₂)) :
    (name = "gcode_content" → reply.code = 0 → reply.body = .content (lastUploaded past)) ∧
    (name = "load_gcode" → reply.code = 0 → ∃ program content,
      orderOf? name args = some (.loadGcode program content) ∧
      s₂.machine.status.HasOpened (setup.staged program)) := by
  have hstart : Staged setup "" s :=
    ⟨hstill, hruns, Setup.separates_of_isOutside hlinks houtside, .inl ⟨hclosed, rfl⟩⟩
  exact (staged_handleCommand observers (staged_session observers hstart cs hpast) name args
    hreply).2

end

def workshop : Scene Nat Unit where
  gateway := { left := () }
  world := {
    gate := { machine := .new "mill" 3 }
    files := { nodes := [(["etc"], .dir), (["srv"], .dir), (["srv", "stage"], .dir)] } }

def workshopSetup : Setup :=
  { (default : Setup) with
    toolTable? := some ⟨"/etc/tool.tbl"⟩
    stagingDir := ⟨"/srv/stage"⟩
    startTimeout := 30000 }

def upload (name content : String) : String × Json :=
  ("load_gcode", .obj [("content", .str content), ("name", .str name)])

/-- A program is uploaded twice, and then another one whose name is refused. -/
def uploads : List (String × Json) :=
  [("start_cnc", .null), upload "part.ngc" "G0 X1", upload "part.ngc" "G0 X2",
    upload "../part.ngc" "G0 X3"]

theorem upload_round_trip_twice :
    ∃ past s₁ reply s₂, (session workshopSetup indifferent uploads).run workshop = (past, s₁) ∧
      past.map (·.reply.code) = [0, 0, 0, -1] ∧
      ((handleCommand workshopSetup "gcode_content" .null).alone indifferent).run s₁ =
        (reply, s₂) ∧
      reply.code = 0 ∧ reply.body = .content "G0 X2" := by
  have hcodes : ((session workshopSetup indifferent uploads).run workshop).1.map (·.reply.code) =
      [0, 0, 0, -1] := by decide +kernel
  have hlast : lastUploaded ((session workshopSetup indifferent uploads).run workshop).1 =
      "G0 X2" := by decide +kernel
  have hcode : (((handleCommand workshopSetup "gcode_content" .null).alone indifferent).run
      ((session workshopSetup indifferent uploads).run workshop).2).1.code = 0 := by decide +kernel
  have hstage : workshop.files.LeadsTo workshopSetup.stagingDir ["srv", "stage"] := by rfl
  have hlinks : workshop.files.HasNoLinks workshopSetup.stagingDir := by
    intro d hd name target
    rw [hd.unique hstage]
    have hnothing : workshop.files.node? (["srv", "stage"] ++ [name]) = none := by rfl
    rw [hnothing]
    rintro ⟨⟩
  have houtside : ∀ table, workshopSetup.toolTable? = some table →
      workshop.files.IsOutside workshopSetup.stagingDir table ∧
      workshop.files.IsOutside workshopSetup.stagingDir (Tool.Store.backupPath table) := by
    rintro table ⟨⟩
    have htable : workshop.files.find ⟨"/etc/tool.tbl"⟩ =
        .ok ⟨["etc", "tool.tbl"], none, false⟩ := by rfl
    have hbackup : workshop.files.find ⟨"/etc/tool.tbl.bak"⟩ =
        .ok ⟨["etc", "tool.tbl.bak"], none, false⟩ := by rfl
    exact ⟨hstage.isOutside htable (by decide), hstage.isOutside hbackup (by decide)⟩
  cases hpast : (session workshopSetup indifferent uploads).run workshop with
  | mk past s₁ =>
    rw [hpast] at hcodes hlast hcode
    cases hreply : ((handleCommand workshopSetup "gcode_content" .null).alone indifferent).run s₁ with
    | mk reply s₂ =>
      rw [hreply] at hcode
      have hround := upload_round_trip workshopSetup indifferent workshop ⟨fun _ => rfl, rfl⟩
        (by rintro ⟨⟩) rfl hlinks houtside uploads past s₁ hpast "gcode_content" .null reply s₂
        hreply
      refine ⟨past, s₁, reply, s₂, rfl, hcodes, hreply, hcode, ?_⟩
      rw [hround.1 rfl hcode, hlast]

end MillGateway
