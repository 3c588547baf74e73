import MillGateway.Proofs.Alone.Machine
import MillGateway.Proofs.Alone.Preserves
import MillGateway.Proofs.Command.Parts
import MillGateway.Proofs.File.Directory

/-! The opened program while commands are carried out one after another over a simulated controller.
Main statement: no command but a new upload changes which program is open, or its text. -/

namespace MillGateway

open Machine

/-! ### The staging directory -/

namespace Setup

variable (setup : Setup)

def staged (name : String) : Path :=
  setup.stagingDir.join ⟨name⟩

/-- Whether no two of the paths of programs, tool table and backup lead to one file. -/
structure Separates (t : FileTree) : Prop where
  programs : ∀ {name name' : String}, Path.isPlainName name = true →
    Path.isPlainName name' = true → name ≠ name' → t.Apart (setup.staged name) (setup.staged name')
  table : ∀ {table : Path}, setup.toolTable? = some table → ∀ {name : String},
    Path.isPlainName name = true → t.Apart table (setup.staged name)
  backup : ∀ {table : Path}, setup.toolTable? = some table → ∀ {name : String},
    Path.isPlainName name = true → t.Apart (Tool.Store.backupPath table) (setup.staged name)

def Opened (t : FileTree) (file text : String) : Prop :=
  file = "" ∧ text = "" ∨ ∃ name, Path.isPlainName name = true ∧ file = (setup.staged name).text ∧
    t.read (setup.staged name) = .ok text

variable {setup} {t t' : FileTree} {p : Path} {n : FileNode}

theorem separates_of_isOutside (hlinks : t.HasNoLinks setup.stagingDir)
    (houtside : ∀ table, setup.toolTable? = some table → t.IsOutside setup.stagingDir table ∧
      t.IsOutside setup.stagingDir (Tool.Store.backupPath table)) : setup.Separates t where
  programs hname hname' hne := FileTree.apart_of_ne hlinks hname hname' hne
  table htable _ hname := FileTree.apart_of_isOutside hlinks (houtside _ htable).1 hname
  backup htable _ hname := FileTree.apart_of_isOutside hlinks (houtside _ htable).2 hname

theorem Separates.puts (h : setup.Separates t) (hn : n.isFile = true) (hput : t.Puts p n t') :
    setup.Separates t' where
  programs hname hname' hne := hput.apart_of_apart hn (h.programs hname hname' hne)
  table htable _ hname := hput.apart_of_apart hn (h.table htable hname)
  backup htable _ hname := hput.apart_of_apart hn (h.backup htable hname)

theorem staged_text_ne_empty {name : String} (hname : Path.isPlainName name = true) :
    (setup.staged name).text ≠ "" := by
  obtain ⟨base, _, hjoin⟩ := setup.stagingDir.exists_join
  rw [staged, (hjoin name (Path.no_slash_of_isPlainName hname)).1]
  intro hempty
  exact Path.ne_empty_of_isPlainName hname (String.append_eq_empty_iff.1 hempty).2

theorem Opened.puts {file text : String} (h : setup.Opened t file text) (hn : n.isFile = true)
    (hput : t.Puts p n t')
    (hp : ∀ {name : String}, Path.isPlainName name = true → t.Apart p (setup.staged name)) :
    setup.Opened t' file text := by
  obtain h | ⟨name, hname, hfile, hread⟩ := h
  · exact .inl h
  · have hcontent := (hput.apart hn (hp hname)).1
    rw [FileTree.read_eq_ok_iff] at hread
    exact .inr ⟨name, hname, hfile, FileTree.read_eq_ok_iff.2 (hcontent.trans hread)⟩

end Setup

/-! ### Between commands -/

/-- The scene between two commands when `text` is the opened program's. A controller that is taken to
be alive runs, and nobody interferes with it. -/
structure Staged (setup : Setup) (text : String) (s : Scene ω ε) : Prop where
  still : s.world.Still
  runs : s.gateway.cache.alive = true → s.machine.running = true
  separates : setup.Separates s.files
  opened : setup.Opened s.files s.machine.status.file text

section

variable {setup : Setup} {text : String} {s : Scene ω ε}

theorem Staged.withGateway (h : Staged setup text s) {g : Gateway ω ε}
    (hg : g.cache.alive = true → s.machine.running = true) : Staged setup text (s.withGateway g) :=
  ⟨h.still, hg, h.separates, h.opened⟩

theorem Staged.withMachine (h : Staged setup text s) {m : Link.Simulator}
    (hrunning : s.gateway.cache.alive = true → m.running = true) (hscripted : m.scripted = [])
    (hfile : m.status.file = s.machine.status.file) : Staged setup text (s.withMachine m) := by
  refine ⟨h.still.withMachine hscripted, hrunning, h.separates, ?_⟩
  show setup.Opened s.files m.status.file text
  rw [hfile]
  exact h.opened

theorem withstands_staged {p : Path} (hp : ∀ {t : FileTree}, setup.Separates t →
      ∀ {name : String}, Path.isPlainName name = true → t.Apart p (setup.staged name)) :
    Job.Withstands (Staged (ω := ω) (ε := ε) setup text) p := by
  intro s n t h hn hput
  exact ⟨⟨h.still.unhindered, h.still.unscripted⟩, h.runs, h.separates.puts hn hput,
    h.opened.puts hn hput (hp h.separates)⟩

theorem withstands_table {table : Path} (htable : setup.toolTable? = some table) :
    Job.Withstands (Staged (ω := ω) (ε := ε) setup text) table :=
  withstands_staged fun h => h.table htable

theorem withstands_backup {table : Path} (htable : setup.toolTable? = some table) :
    Job.Withstands (Staged (ω := ω) (ε := ε) setup text) (Tool.Store.backupPath table) :=
  withstands_staged fun h => h.backup htable

end

/-! ### Parts of commands -/

namespace Link

def Action.opensNone : Action → Bool
  | .programOpen _ => false
  | _ => true

theorem Simulator.file_apply {a : Action} (ha : a.opensNone = true) (s : Status) :
    (Simulator.apply s a).1.file = s.file := by
  cases a with
  | state t =>
    rw [apply]
    split
    · rfl
    · cases t <;> rfl
  | home axis =>
    rw [apply]
    split <;> rfl
  | auto c => cases c <;> rfl
  | mode | jog | mdi | abort | resetInterpreter | loadToolTable => rfl
  | programOpen => cases ha

end Link

namespace Job

variable [DecidableEq ω] {observers : Observers ω ε} {setup : Setup} {text : String}

theorem preserves_pollStatus : Preserves observers (Staged setup text) pollStatus := by
  intro s h
  cases hrunning : s.machine.running with
  | true =>
    rw [alone_pollStatus_running observers h.still hrunning]
    exact h.withGateway fun _ => hrunning
  | false =>
    rw [alone_pollStatus_stopped observers h.still hrunning]
    exact h.withGateway nofun

theorem preserves_execute {a : Link.Action} (ha : a.opensNone = true) (limit : Nat) :
    Preserves observers (Staged setup text) (execute a limit) := by
  intro s h
  cases halive : s.gateway.cache.alive with
  | false =>
    rw [alone_execute_down observers halive]
    exact h
  | true =>
    obtain ⟨m, halone, hstatus, hrunning, hscripted⟩ :=
      alone_execute_up observers h.still halive (h.runs halive) a limit
    rw [halone]
    refine h.withMachine (fun _ => hrunning) hscripted ?_
    rw [hstatus, Link.Simulator.file_apply ha]

theorem preserves_launch : Preserves observers (Staged setup text) (link .launch) := by
  intro s h
  have hperform : s.world.gate.perform .launch =
      (.inl s.machine.launch.1, { s.world.gate with machine := s.machine.launch.2 }) := rfl
  show Staged setup text ((ask (.outside (.link .launch)) done).alone observers s).2
  rw [alone_link observers h.still hperform]
  show Staged setup text (s.withMachine s.machine.launch.2)
  rw [Link.Simulator.launch]
  split
  · exact h.withMachine h.runs h.still.unscripted rfl
  · exact h.withMachine (fun _ => rfl) h.still.unscripted rfl

theorem preserves_clock : Preserves observers (Staged setup text) (outside .clock) := by
  intro s h
  have hanswer : s.world.answer .clock = (s.world.now, s.world) := Schedule.World.answer_eq rfl
  show Staged setup text { s with world := (s.world.answer .clock).2 }
  rw [hanswer]
  exact h

theorem preserves_sleep (ms : Nat) :
    Preserves observers (Staged setup text) (outside (.sleep ms)) := by
  intro s h
  obtain ⟨now, hanswer⟩ := s.world.answer_sleep ms
  show Staged setup text { s with world := (s.world.answer (.sleep ms)).2 }
  rw [hanswer]
  exact ⟨⟨h.still.unhindered, h.still.unscripted⟩, h.runs, h.separates, h.opened⟩

theorem preserves_resetChannel : Preserves observers (Staged setup text) resetChannel := by
  apply preserves_locked
  intro s h
  exact h.withGateway h.runs

end Job

/-! ### Commands -/

namespace Handle

open Job

variable [DecidableEq ω] {observers : Observers ω ε} {setup : Setup} {text : String}

theorem preserves_act {a : Link.Action} (ha : a.opensNone = true) (limit : Nat) :
    Preserves observers (Staged setup text) (act a limit) :=
  (preserves_execute ha limit).bind fun _ => preserves_pure _

theorem preserves_attempt {a : Link.Action} (ha : a.opensNone = true) (limit : Nat) :
    Preserves observers (Staged setup text) (attempt a limit) :=
  (preserves_execute ha limit).map _

theorem preserves_awaitAnswer (deadline tries : Nat) :
    Preserves observers (Staged setup text) (awaitAnswer deadline tries) := by
  induction tries with
  | zero => exact preserves_pure _
  | succ tries ih =>
    unfold awaitAnswer
    apply preserves_pollStatus.bind
    intro s?
    split
    · exact preserves_pure _
    · apply preserves_clock.bind
      intro now
      split
      · exact preserves_pure _
      · exact (preserves_sleep _).bind fun _ => ih

theorem preserves_startCnc : Preserves observers (Staged setup text) (startCnc setup) := by
  unfold startCnc
  apply preserves_pollStatus.bind
  intro s?
  split
  · exact preserves_pure _
  · apply preserves_launch.bind
    intro launched
    split
    · exact preserves_pure _
    · apply preserves_clock.bind
      intro now
      apply (preserves_awaitAnswer _ _).bind
      intro answered
      split
      · exact preserves_resetChannel.bind fun _ => preserves_pure _
      · exact preserves_pure _

theorem preserves_stopCnc : Preserves observers (Staged setup text) stopCnc := by
  intro s h
  have hperform : s.world.gate.perform .shutdown =
      (.inl (.ok ()), { s.world.gate with machine := { s.machine with running := false } }) := rfl
  have hstill : (s.withMachine { s.machine with running := false }).world.Still :=
    h.still.withMachine h.still.unscripted
  have hpoll := alone_pollStatus_stopped observers hstill rfl
  show Staged setup text ((ask (.outside (.link .shutdown)) _).alone observers s).2
  rw [alone_link observers h.still hperform]
  show Staged setup text (((discard pollStatus : Job Unit).bind _).alone observers _).2
  rw [alone_bind, alone_discard, hpoll]
  exact ⟨hstill, nofun, h.separates, h.opened⟩

theorem preserves_currentState : Preserves observers (Staged setup text) currentState := by
  intro s h
  show Staged setup text ((snapshot.bind _).alone observers s).2
  rw [alone_bind, alone_snapshot]
  cases s.gateway.cache.snapshot with
  | none => exact h
  | some st => exact h

theorem preserves_setTaskMode (mode : TaskMode) :
    Preserves observers (Staged setup text) (setTaskMode mode) := by
  unfold setTaskMode
  split
  · exact preserves_pure _
  · apply preserves_pollStatus.bind
    intro s?
    split
    · exact preserves_pure _
    · split
      · exact preserves_pure _
      · exact preserves_act rfl _

theorem preserves_homeEach (axes : List UInt32) :
    Preserves observers (Staged setup text) (homeEach axes) := by
  induction axes with
  | nil => exact preserves_pure _
  | cons axis axes ih =>
    unfold homeEach
    apply (preserves_execute rfl _).bind
    intro o
    split
    · exact ih
    · exact preserves_pure _

theorem preserves_homeAll : Preserves observers (Staged setup text) (homeAll setup) :=
  (preserves_attempt rfl _).bind fun _ =>
    (preserves_homeEach _).bind fun _ => preserves_pure _

theorem preserves_jog (j : Link.Jog) : Preserves observers (Staged setup text) (jog j) :=
  (preserves_attempt rfl _).bind fun _ => preserves_act rfl _

theorem preserves_runMdi (command : String) :
    Preserves observers (Staged setup text) (runMdi command) := by
  unfold runMdi
  dsimp only
  split
  · exact preserves_pure _
  · exact preserves_act rfl _

theorem preserves_runGcode (line : Int32) :
    Preserves observers (Staged setup text) (runGcode line) :=
  (preserves_attempt rfl _).bind fun _ => preserves_act rfl _

theorem preserves_stepGcode : Preserves observers (Staged setup text) stepGcode := by
  unfold stepGcode
  apply preserves_pollStatus.bind
  intro s?
  split
  · exact preserves_pure _
  · split
    · exact (preserves_attempt rfl _).bind fun _ => (preserves_attempt rfl _).bind fun _ =>
        (preserves_attempt rfl _).bind fun _ => preserves_act rfl _
    · exact preserves_act rfl _

theorem preserves_gcodeContent : Preserves observers (Staged setup text) gcodeContent := by
  unfold gcodeContent
  apply preserves_pollStatus.bind
  intro s?
  split
  · exact preserves_pure _
  · split
    · exact preserves_pure _
    · apply preserves_readText
      intro x
      cases x with
      | ok => exact preserves_pure _
      | error => exact preserves_pure _

theorem preserves_withToolTable {f : Path → Job Reply}
    (hf : ∀ table, setup.toolTable? = some table →
      Preserves observers (Staged setup text) (f table)) :
    Preserves observers (Staged setup text) (withToolTable setup f) := by
  unfold withToolTable
  split
  next table htable => exact hf table htable
  next => exact preserves_pure _

theorem preserves_toolsData : Preserves observers (Staged setup text) (toolsData setup) := by
  apply preserves_withToolTable
  intro table _
  refine Preserves.bind Tool.Store.preserves_read fun x => ?_
  split <;> exact preserves_pure _

theorem preserves_addTool (r : Tool.Record) :
    Preserves observers (Staged setup text) (addTool setup r) := by
  apply preserves_withToolTable
  intro table htable
  apply (Tool.Store.preserves_add (withstands_table htable) r).bind
  intro x
  split <;> exact preserves_pure _

theorem preserves_deleteTools (ns : List Int) :
    Preserves observers (Staged setup text) (deleteTools setup ns) := by
  apply preserves_withToolTable
  intro table htable
  exact (Tool.Store.preserves_remove (withstands_table htable) (withstands_backup htable) ns).map _

theorem preserves_updateTools (rs : List Tool.Record) :
    Preserves observers (Staged setup text) (updateTools setup rs) := by
  apply preserves_withToolTable
  intro table htable
  exact (Tool.Store.preserves_update (withstands_table htable) (withstands_backup htable) rs).map _

theorem preserves_order {o : Order} (ho : ∀ name content, o ≠ .loadGcode name content) :
    Preserves observers (Staged setup text) (order setup o) := by
  cases o with
  | startCnc => exact preserves_startCnc
  | stopCnc => exact preserves_stopCnc
  | currentState => exact preserves_currentState
  | setTaskMode mode => exact preserves_setTaskMode mode
  | homeAll => exact preserves_homeAll
  | moveAxisContinuous | moveAxisIncrement => exact preserves_jog _
  | iniParams => exact preserves_pure _
  | loadGcode name content => exact absurd rfl (ho name content)
  | runGcode line => exact preserves_runGcode line
  | stepGcode => exact preserves_stepGcode
  | gcodeContent => exact preserves_gcodeContent
  | toolsData => exact preserves_toolsData
  | addTool r => exact preserves_addTool r
  | deleteTools ns => exact preserves_deleteTools ns
  | updateTools rs => exact preserves_updateTools rs
  | runMdi command => exact preserves_runMdi command
  | _ => exact preserves_act rfl _

end Handle

end MillGateway
