import MillGateway.Command.Handle
import MillGateway.Proofs.Job.Walk

/-! What the jobs of commands are made of, and which actions they may issue. Whatever a protocol asks
of jobs has to be shown of these parts alone. -/

namespace MillGateway

def Link.Call.isSwitch : Link.Call → Bool
  | .launch | .shutdown => true
  | _ => false

def Outside.isPlain : Outside → Bool
  | .link (.wait _ _) => true
  | .link _ => false
  | _ => true

namespace Request

def isFile : Request → Bool
  | .outside (.readText _) | .outside (.writeText _ _) | .outside (.appendText _ _) => true
  | _ => false

def isPolling : Request → Bool
  | .acquire .polling | .release .polling => true
  | .outside (.link .pollStatus) => true
  | .inside (.store _) | .inside .markDown | .inside (.announceStatus _) => true
  | _ => false

def isReading : Request → Bool
  | .outside (.link .openChannel) | .outside (.link (.pollChannel _)) => true
  | .inside .channel | .inside (.setChannel (some _)) => true
  | .inside .nextEventId | .inside (.announceEvent _) => true
  | _ => false

def isChannel : Request → Bool
  | .acquire .channel | .release .channel | .inside (.setChannel none) => true
  | _ => false

def isCacheLock : Request → Bool
  | .acquire .cache | .release .cache => true
  | _ => false

def isIssue : Request → Bool
  | .outside (.link (.issue _)) => true
  | _ => false

def isSwitch : Request → Bool
  | .outside (.link c) => c.isSwitch
  | _ => false

def isOrdinary (r : Request) : Bool :=
  !r.isPolling && !r.isReading && !r.isIssue && !r.isSwitch

theorem isOrdinary_iff {r : Request} : r.isOrdinary = true ↔ r.isPolling = false ∧
    r.isReading = false ∧ r.isIssue = false ∧ r.isSwitch = false := by
  simp [isOrdinary, and_assoc]

theorem isOrdinary_of_isPlain {o : Outside} (h : o.isPlain = true) :
    (Request.outside o).isOrdinary = true := by
  cases o with
  | link c => cases c <;> first | rfl | cases h
  | _ => rfl

theorem isOrdinary_of_isFile {r : Request} (h : r.isFile = true) : r.isOrdinary = true := by
  cases r with
  | outside o => cases o <;> first | rfl | cases h
  | _ => cases h

theorem isOrdinary_of_isChannel {r : Request} (h : r.isChannel = true) : r.isOrdinary = true := by
  cases r with
  | acquire l | release l => cases l <;> first | rfl | cases h
  | inside x =>
    cases x with
    | setChannel c? => cases c? <;> first | rfl | cases h
    | _ => cases h
  | outside => cases h

end Request

namespace Job

/-- A job that is put together from the parts of commands, and changes the controller by such calls
only. -/
inductive Composed (A : Link.Call → Prop) : {α : Type} → Job α → Prop
  | pure {α : Type} (a : α) : Composed A (Pure.pure a : Job α)
  | bind {α β : Type} {j : Job α} {k : α → Job β} (hj : Composed A j)
      (hk : ∀ a, Composed A (k a)) : Composed A (j >>= k)
  | poll : Composed A pollStatus
  | alive : Composed A isAlive
  | snapshot : Composed A snapshot
  | reset : Composed A resetChannel
  | execute {a : Link.Action} (ha : A (.issue a)) (limit : Nat) : Composed A (execute a limit)
  | switch {c : Link.Call} (hc : c.isSwitch = true) (ha : A c) : Composed A (link c)
  | plain {o : Outside} (h : o.isPlain = true) : Composed A (outside o)
  | edit {α : Type} {j : Job α} (h : j.Asks fun r => r.isFile = true) :
      Composed A (locked .editing j)

theorem Composed.map {A : Link.Call → Prop} {j : Job α} (f : α → β) (hj : Composed A j) :
    Composed A (f <$> j) :=
  hj.bind fun a => .pure (f a)

theorem Composed.mono {A B : Link.Call → Prop} {j : Job α} (hj : Composed A j)
    (h : ∀ c, A c → B c) : Composed B j := by
  induction hj with
  | pure a => exact .pure a
  | bind _ _ ihj ihk => exact .bind ihj ihk
  | poll => exact .poll
  | alive => exact .alive
  | snapshot => exact .snapshot
  | reset => exact .reset
  | execute ha limit => exact .execute (h _ ha) limit
  | switch hc ha => exact .switch hc (h _ ha)
  | plain ho => exact .plain ho
  | edit hj => exact .edit hj

/-! ### What the parts ask -/

theorem asks_isAlive : isAlive.Asks (·.isOrdinary = true) :=
  Asks.locked rfl rfl ⟨rfl, fun _ => trivial⟩

theorem asks_snapshot : snapshot.Asks (·.isOrdinary = true) :=
  Asks.locked rfl rfl ⟨rfl, fun _ => trivial⟩

theorem asks_resetChannel : resetChannel.Asks (·.isChannel = true) :=
  Asks.locked rfl rfl ⟨rfl, fun _ => trivial⟩

theorem exists_execute (a : Link.Action) (limit : Nat) :
    ∃ k, execute a limit = isAlive.bind k ∧ ∀ alive, (k alive).Asks fun r =>
      r = .outside (.link (.issue a)) ∨ ∃ o, o.isPlain = true ∧ r = .outside o := by
  refine ⟨_, rfl, fun alive => ?_⟩
  cases alive with
  | false => trivial
  | true =>
    refine ⟨.inl rfl, fun h? => ?_⟩
    cases h? with
    | error e => trivial
    | ok h =>
      by_cases hl : limit = 0
      · simp only [hl]
        exact ⟨.inr ⟨_, rfl, rfl⟩, fun _ => trivial⟩
      · simp only [hl]
        exact ⟨.inr ⟨_, rfl, rfl⟩, fun _ => trivial⟩

theorem asks_execute (a : Link.Action) (limit : Nat) :
    (execute a limit).Asks fun r => r.isOrdinary = true ∨ r = .outside (.link (.issue a)) := by
  obtain ⟨k, hk, hasks⟩ := exists_execute a limit
  rw [hk]
  refine (asks_isAlive.mono fun _ => .inl).bind fun alive => (hasks alive).mono ?_
  rintro r (rfl | ⟨o, ho, rfl⟩)
  · exact .inr rfl
  · exact .inl (Request.isOrdinary_of_isPlain ho)

theorem asks_pollStatus_of {P : Request → Prop}
    (hpolling : P (.acquire .polling) ∧ P (.release .polling))
    (hcache : P (.acquire .cache) ∧ P (.release .cache)) (hpoll : P (.outside (.link .pollStatus)))
    (hstatus : ∀ s, P (.inside (.store s)) ∧ P (.inside (.announceStatus s)))
    (hdown : P (.inside .markDown)) : pollStatus.Asks P := by
  refine Asks.locked hpolling.1 hpolling.2 ⟨hpoll, fun x => ?_⟩
  cases x with
  -- the cache is written under its own lock
  | ok s =>
    refine ⟨hcache.1, fun _ => ⟨(hstatus s).1, fun _ => ⟨hcache.2, fun _ => ?_⟩⟩⟩
    exact ⟨(hstatus s).2, fun _ => trivial⟩
  | error e => exact ⟨hcache.1, fun _ => ⟨hdown, fun _ => ⟨hcache.2, fun _ => trivial⟩⟩⟩

theorem asks_pollStatus :
    pollStatus.Asks fun r => r.isOrdinary = true ∨ r.isPolling = true :=
  asks_pollStatus_of ⟨.inr rfl, .inr rfl⟩ ⟨.inl rfl, .inl rfl⟩ (.inr rfl)
    (fun _ => ⟨.inr rfl, .inr rfl⟩) (.inr rfl)

theorem asks_takeMessage :
    takeMessage.Asks fun r => r.isChannel = true ∨ r.isReading = true := by
  refine Asks.locked (.inl rfl) (.inl rfl) ?_
  refine Asks.bind ⟨.inr rfl, fun c? => ?_⟩ fun c? => ?_
  · cases c? with
    | some c => trivial
    | none =>
      refine ⟨.inr rfl, fun opened => ?_⟩
      cases opened with
      | ok c => exact ⟨.inr rfl, fun _ => trivial⟩
      | error e => trivial
  · cases c? with
    | none => trivial
    | some c =>
      refine ⟨.inr rfl, fun m? => ?_⟩
      cases m? with
      | ok m? => trivial
      | error e => exact ⟨.inl rfl, fun _ => trivial⟩

theorem asks_pollErrors :
    pollErrors.Asks fun r => r.isOrdinary = true ∨ r.isReading = true := by
  apply (asks_isAlive.mono fun _ h => .inl h).bind
  intro alive
  cases alive with
  | false => trivial
  | true =>
    apply (asks_takeMessage.mono fun _ => .imp_left Request.isOrdinary_of_isChannel).bind
    intro m?
    cases m? with
    | none => trivial
    | some m => exact ⟨.inr rfl, fun _ => ⟨.inl rfl, fun _ => ⟨.inr rfl, fun _ => trivial⟩⟩⟩

theorem Composed.asks {A : Link.Call → Prop} {j : Job α} (h : j.Composed A) :
    j.Asks fun r => r.isOrdinary = true ∨ r.isPolling = true ∨
      ∃ c, A c ∧ r = .outside (.link c) := by
  induction h with
  | pure a => trivial
  | bind _ _ ihj ihk => exact ihj.bind ihk
  | poll => exact asks_pollStatus.mono fun _ h => h.imp_right .inl
  | alive => exact asks_isAlive.mono fun _ => .inl
  | snapshot => exact asks_snapshot.mono fun _ => .inl
  | reset => exact asks_resetChannel.mono fun _ hr => .inl (Request.isOrdinary_of_isChannel hr)
  | @execute a ha limit =>
    exact (asks_execute a limit).mono fun _ h => h.imp_right fun h => .inr ⟨.issue a, ha, h⟩
  | @switch c hc ha => exact ⟨.inr (.inr ⟨c, ha, rfl⟩), fun _ => trivial⟩
  | plain h => exact ⟨.inl (Request.isOrdinary_of_isPlain h), fun _ => trivial⟩
  | edit h =>
    refine Asks.locked (.inl rfl) (.inl rfl) (h.mono fun r hr => ?_)
    exact .inl (Request.isOrdinary_of_isFile hr)

end Job

def Order.MayIssue (s : Setup) : Order → Link.Action → Prop
  | .setState t, a => a = .state t
  | .setTaskMode m, a => a = .mode m
  | .homeAxis axis, a => a = .home axis
  | .homeAll, a => a = .mode .manual ∨ ∃ axis, a = .home axis
  | .moveAxisStop axis, a => a = .jog (.stop axis)
  | .moveAxisContinuous axis v, a => a = .mode .manual ∨ a = .jog (.continuous axis v)
  | .moveAxisIncrement axis v d, a => a = .mode .manual ∨ a = .jog (.increment axis v d)
  | .loadGcode name _, a =>
    a = .resetInterpreter ∨ a = .mode .auto ∨ a = .programOpen (s.stagingDir.join ⟨name⟩) ∨
      a = .mode .manual
  | .runGcode line, a => a = .mode .auto ∨ a = .auto (.run line)
  | .stepGcode, a => a = .mode .auto ∨ a = .auto .step
  | .pauseGcode, a => a = .auto .pause
  | .resumeGcode, a => a = .auto .resume
  | .stopGcode, a => a = .abort
  | .resetInterpreter, a => a = .resetInterpreter
  | .reloadToolTable, a => a = .loadToolTable
  | .runMdi command, a => a = .mdi (String.ofList (Text.trim command.toList))
  | .startCnc, _ | .stopCnc, _ | .currentState, _ | .iniParams, _ | .gcodeContent, _
  | .toolsData, _ | .addTool _, _ | .deleteTools _, _ | .updateTools _, _ => False

def Order.MayCall (s : Setup) (o : Order) : Link.Call → Prop
  | .issue a => o.MayIssue s a
  | .launch => o = .startCnc
  | .shutdown => o = .stopCnc
  | .pollStatus | .openChannel | .pollChannel _ | .wait _ _ => False

namespace Handle

open Job

variable {A : Link.Call → Prop}

theorem composed_act {a : Link.Action} (ha : A (.issue a)) (limit : Nat) : Composed A (act a limit) :=
  .bind (.execute ha limit) fun _ => .pure _

theorem composed_attempt {a : Link.Action} (ha : A (.issue a)) (limit : Nat) :
    Composed A (attempt a limit) :=
  (Composed.execute ha limit).map _

theorem composed_awaitAnswer (deadline tries : Nat) :
    Composed A (awaitAnswer deadline tries) := by
  induction tries with
  | zero => exact .pure _
  | succ tries ih =>
    unfold awaitAnswer
    refine .bind .poll fun s? => ?_
    split
    · exact .pure _
    · refine .bind (.plain rfl) fun now => ?_
      split
      · exact .pure _
      · exact .bind (.plain rfl) fun _ => ih

theorem asks_awaitAnswer {P : Request → Prop} (hpoll : pollStatus.Asks P)
    (hclock : P (.outside .clock)) (hsleep : P (.outside (.sleep Timing.startPoll)))
    (deadline tries : Nat) : (awaitAnswer deadline tries).Asks P := by
  induction tries with
  | zero => trivial
  | succ tries ih =>
    unfold awaitAnswer
    refine hpoll.bind fun s? => ?_
    cases s? with
    | some s => trivial
    | none =>
      refine ⟨hclock, fun now => ?_⟩
      change Asks _ (if deadline ≤ now then Job.done false else
        .ask (.outside (.sleep Timing.startPoll)) fun _ => awaitAnswer deadline tries)
      split
      · trivial
      · exact ⟨hsleep, fun _ => ih⟩

theorem composed_startCnc (s : Setup) (ha : A .launch) : Composed A (startCnc s) := by
  unfold startCnc
  refine .bind .poll fun s? => ?_
  split
  · exact .pure _
  · refine .bind (.switch rfl ha) fun launched => ?_
    split
    · exact .pure _
    · refine .bind (.plain rfl) fun now => ?_
      refine .bind (composed_awaitAnswer _ _) fun answered => ?_
      split
      · exact .bind .reset fun _ => .pure _
      · exact .pure _

theorem composed_stopCnc (ha : A .shutdown) : Composed A stopCnc := by
  unfold stopCnc
  refine .bind (.switch rfl ha) fun stopped => ?_
  split
  · exact .pure _
  · exact .bind (Composed.poll.map _) fun _ => .pure _

theorem composed_currentState : Composed A currentState := by
  unfold currentState
  refine .bind .snapshot fun s? => ?_
  split <;> exact .pure _

theorem composed_setTaskMode {mode : Machine.TaskMode} (ha : A (.issue (.mode mode))) :
    Composed A (setTaskMode mode) := by
  unfold setTaskMode
  split
  · exact .pure _
  · refine .bind .poll fun s? => ?_
    split
    · exact .pure _
    · split
      · exact .pure _
      · exact composed_act ha _

theorem composed_homeEach (ha : ∀ axis, A (.issue (.home axis))) (axes : List UInt32) :
    Composed A (homeEach axes) := by
  induction axes with
  | nil => exact .pure _
  | cons axis axes ih =>
    unfold homeEach
    refine .bind (.execute (ha axis) _) fun o => ?_
    split
    · exact ih
    · exact .pure _

theorem composed_homeAll (s : Setup) (hmode : A (.issue (.mode .manual)))
    (ha : ∀ axis, A (.issue (.home axis))) :
    Composed A (homeAll s) :=
  .bind (composed_attempt hmode _) fun _ => .bind (composed_homeEach ha _) fun _ => .pure _

theorem composed_jog {j : Link.Jog} (hmode : A (.issue (.mode .manual)))
    (ha : A (.issue (.jog j))) :
    Composed A (jog j) :=
  .bind (composed_attempt hmode _) fun _ => composed_act ha _

theorem composed_runMdi {command : String}
    (ha : A (.issue (.mdi (String.ofList (Text.trim command.toList))))) : Composed A (runMdi command) := by
  unfold runMdi
  dsimp only
  split
  · exact .pure _
  · exact composed_act ha _

theorem composed_loadGcode {s : Setup} {name : String} (content : String)
    (ha : ∀ a, (Order.loadGcode name content).MayIssue s a → A (.issue a)) :
    Composed A (loadGcode s name content) := by
  unfold loadGcode
  split
  · exact .pure _
  · refine .bind (.plain rfl) fun saved => ?_
    split
    · exact .pure _
    · refine .bind (composed_attempt (ha _ (.inl rfl)) _) fun _ => ?_
      refine .bind (composed_attempt (ha _ (.inr (.inl rfl))) _) fun _ => ?_
      refine .bind (.execute (ha _ (.inr (.inr (.inl rfl)))) _) fun _ => ?_
      exact .bind (composed_attempt (ha _ (.inr (.inr (.inr rfl)))) _) fun _ => .pure _

theorem composed_runGcode {line : Int32} (hmode : A (.issue (.mode .auto)))
    (ha : A (.issue (.auto (.run line)))) :
    Composed A (runGcode line) :=
  .bind (composed_attempt hmode _) fun _ => composed_act ha _

theorem composed_stepGcode (hmode : A (.issue (.mode .auto))) (ha : A (.issue (.auto .step))) :
    Composed A stepGcode := by
  unfold stepGcode
  refine .bind .poll fun s? => ?_
  split
  · exact .pure _
  · split
    · exact .bind (composed_attempt hmode _) fun _ => .bind (composed_attempt ha _) fun _ =>
        .bind (composed_attempt ha _) fun _ => composed_act ha _
    · exact composed_act ha _

theorem composed_gcodeContent : Composed A gcodeContent := by
  unfold gcodeContent
  refine .bind .poll fun s? => ?_
  split
  · exact .pure _
  · split
    · exact .pure _
    · refine .bind (.plain rfl) fun text => ?_
      split <;> exact .pure _

end Handle

namespace Tool.Store

open Job

section

variable {A : Link.Call → Prop} (table : Path)

theorem asks_readTextOrEmpty : (readTextOrEmpty table).Asks fun r => r.isFile = true := by
  refine ⟨rfl, fun x => ?_⟩
  rcases x with e | text
  · cases e <;> trivial
  · trivial

theorem asks_rewrite (text : String) (k : Job (Except Error Unit))
    (hk : k.Asks fun r => r.isFile = true) :
    Asks (fun r => r.isFile = true) (do
      match ← backUp table text with
      | .error e => return .error e
      | .ok () => k) := by
  refine ⟨rfl, fun x => ?_⟩
  cases x with
  | error e => trivial
  | ok => exact hk

theorem composed_read : Composed A (read table) :=
  .bind (.bind (.plain rfl) fun _ => .pure _) fun _ => .pure _

theorem composed_add (r : Record) : Composed A (add table r) := by
  unfold add
  split
  · exact .pure _
  · apply Composed.edit
    apply (asks_readTextOrEmpty table).bind
    intro x
    cases x with
    | error e => trivial
    | ok text =>
      dsimp only
      split
      · trivial
      · split
        · trivial
        · exact ⟨rfl, fun _ => trivial⟩

theorem composed_remove (ns : List Int) : Composed A (remove table ns) := by
  apply Composed.edit
  refine ⟨rfl, fun x => ?_⟩
  cases x with
  | error e => trivial
  | ok text =>
    apply asks_rewrite
    split
    · trivial
    · exact ⟨rfl, fun _ => trivial⟩

theorem composed_update (rs : List Record) : Composed A (update table rs) := by
  unfold update
  split
  · exact .pure _
  · apply Composed.edit
    apply (asks_readTextOrEmpty table).bind
    intro x
    cases x with
    | error e => trivial
    | ok text => exact asks_rewrite table text _ ⟨rfl, fun _ => trivial⟩

end

end Tool.Store

namespace Handle

open Job

section

variable {A : Link.Call → Prop}

theorem composed_withToolTable (s : Setup) {f : Path → Job Reply} (hf : ∀ p, Composed A (f p)) :
    Composed A (withToolTable s f) := by
  unfold withToolTable
  split
  · exact hf _
  · exact .pure _

theorem composed_toolsData (s : Setup) : Composed A (toolsData s) := by
  apply composed_withToolTable
  intro table
  refine .bind (Tool.Store.composed_read table) fun x => ?_
  split <;> exact .pure _

theorem composed_addTool (s : Setup) (r : Tool.Record) : Composed A (addTool s r) := by
  apply composed_withToolTable
  intro table
  refine .bind (Tool.Store.composed_add table r) fun x => ?_
  split <;> exact .pure _

theorem composed_deleteTools (s : Setup) (ns : List Int) : Composed A (deleteTools s ns) := by
  apply composed_withToolTable
  intro table
  exact (Tool.Store.composed_remove table ns).map _

theorem composed_updateTools (s : Setup) (rs : List Tool.Record) :
    Composed A (updateTools s rs) := by
  apply composed_withToolTable
  intro table
  exact (Tool.Store.composed_update table rs).map _

end

theorem composed_order (s : Setup) (o : Order) : Composed (o.MayCall s) (order s o) := by
  cases o with
  | startCnc => exact composed_startCnc s rfl
  | stopCnc => exact composed_stopCnc rfl
  | currentState => exact composed_currentState
  | setTaskMode m => exact composed_setTaskMode rfl
  | homeAll => exact composed_homeAll s (.inl rfl) fun axis => .inr ⟨axis, rfl⟩
  | moveAxisContinuous | moveAxisIncrement => exact composed_jog (.inl rfl) (.inr rfl)
  | iniParams => exact .pure _
  | loadGcode name content => exact composed_loadGcode content fun _ ha => ha
  | runGcode line => exact composed_runGcode (.inl rfl) (.inr rfl)
  | stepGcode => exact composed_stepGcode (.inl rfl) (.inr rfl)
  | gcodeContent => exact composed_gcodeContent
  | toolsData => exact composed_toolsData s
  | addTool r => exact composed_addTool s r
  | deleteTools ns => exact composed_deleteTools s ns
  | updateTools rs => exact composed_updateTools s rs
  | runMdi command => exact composed_runMdi rfl
  | _ =>
    apply composed_act
    rfl

end Handle

/-- What is done about a command, unless the controller has to be alive for it and is not. -/
def Handle.carryOut (s : Setup) (c : Command) (args : Json) : Job Reply :=
  match Order.read c (argsOrEmpty args) with
  | .error e => .done (.of (.badArguments e))
  | .ok o => order s o

theorem handleCommand_of_name {s : Setup} {name : String} {c : Command} {args : Json}
    (hc : Command.ofName? name = some c) :
    handleCommand s name args =
      if c.requiresLink then Job.isAlive.bind fun alive =>
        if alive then Handle.carryOut s c args else .done (.of .notRunning)
      else Handle.carryOut s c args := by
  unfold handleCommand
  rw [hc]
  dsimp only
  cases hlink : c.requiresLink with
  | true =>
    simp only [if_true]
    refine congrArg (Job.isAlive.bind ·) (funext fun alive => ?_)
    cases alive <;> rfl
  | false => rfl

def orderOf? (name : String) (args : Json) : Option Order :=
  (Command.ofName? name).bind fun c => (Order.read c (argsOrEmpty args)).toOption

theorem orderOf?_eq_some {name : String} {args : Json} {o : Order}
    (h : orderOf? name args = some o) :
    ∃ c, Command.ofName? name = some c ∧ Order.read c (argsOrEmpty args) = .ok o := by
  obtain ⟨c, hc, hread⟩ := Option.bind_eq_some_iff.1 h
  refine ⟨c, hc, ?_⟩
  cases hr : Order.read c (argsOrEmpty args) with
  | error e =>
    rw [hr] at hread
    cases hread
  | ok o' =>
    rw [hr] at hread
    exact congrArg Except.ok (Option.some.inj hread)

theorem exists_of_map_eq_ok {f : α → β} {x : Except ε α} {b : β} (h : f <$> x = .ok b) :
    ∃ a, x = .ok a ∧ f a = b := by
  cases x with
  | error e => cases h
  | ok a => exact ⟨a, rfl, Except.ok.inj h⟩

def Order.command : Order → Command
  | .startCnc => .startCnc
  | .stopCnc => .stopCnc
  | .currentState => .currentState
  | .setState _ => .setState
  | .setTaskMode _ => .setTaskMode
  | .homeAxis _ => .homeAxis
  | .homeAll => .homeAll
  | .moveAxisStop _ => .moveAxisStop
  | .moveAxisContinuous .. => .moveAxisContinuous
  | .moveAxisIncrement .. => .moveAxisIncrement
  | .iniParams => .iniParams
  | .loadGcode .. => .loadGcode
  | .runGcode _ => .runGcode
  | .stepGcode => .stepGcode
  | .pauseGcode => .pauseGcode
  | .resumeGcode => .resumeGcode
  | .stopGcode => .stopGcode
  | .resetInterpreter => .resetInterpreter
  | .gcodeContent => .gcodeContent
  | .toolsData => .toolsData
  | .addTool _ => .addTool
  | .deleteTools _ => .deleteTools
  | .updateTools _ => .updateTools
  | .reloadToolTable => .reloadToolTable
  | .runMdi _ => .runMdi

theorem Order.command_of_read {c : Command} {args : Json} {o : Order}
    (h : Order.read c args = .ok o) : o.command = c := by
  cases c with
  | startCnc | stopCnc | currentState | homeAll | iniParams | stepGcode | pauseGcode | resumeGcode
  | stopGcode | resetInterpreter | gcodeContent | toolsData | reloadToolTable =>
    cases h
    rfl
  | setState | setTaskMode | homeAxis | moveAxisStop | moveAxisContinuous | moveAxisIncrement
  | loadGcode | runGcode | addTool | deleteTools | updateTools | runMdi =>
    obtain ⟨b, -, rfl⟩ := exists_of_map_eq_ok h
    rfl

theorem name_of_orderOf? {name : String} {args : Json} {o : Order}
    (h : orderOf? name args = some o) :
    name = o.command.name ∧ Command.ofName? name = some o.command ∧
      Order.read o.command (argsOrEmpty args) = .ok o := by
  obtain ⟨c, hc, hread⟩ := orderOf?_eq_some h
  obtain rfl := Order.command_of_read hread
  have hname := List.find?_some hc
  exact ⟨(beq_iff_eq.1 hname).symm, hc, hread⟩

theorem composed_handleCommand (s : Setup) (name : String) (args : Json) :
    (handleCommand s name args).Composed fun c => ∃ o, orderOf? name args = some o ∧
      o.MayCall s c := by
  cases hc : Command.ofName? name with
  | none =>
    unfold handleCommand
    rw [hc]
    exact .pure _
  | some c =>
    have hcarry : (Handle.carryOut s c args).Composed fun c => ∃ o, orderOf? name args = some o ∧
        o.MayCall s c := by
      unfold Handle.carryOut
      split
      · exact .pure _
      · next o hread =>
        have ho : orderOf? name args = some o := by
          rw [orderOf?, hc, Option.bind_some, hread]
          rfl
        exact (Handle.composed_order s o).mono fun c hc => ⟨o, ho, hc⟩
    rw [handleCommand_of_name hc]
    split
    · refine .bind .alive fun alive => ?_
      split
      · exact hcarry
      · exact .pure _
    · exact hcarry

end MillGateway
