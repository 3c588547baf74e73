import MillGateway.Console.Session
import MillGateway.Proofs.Crowd.Play
import MillGateway.Proofs.Crowd.Trail
import MillGateway.Proofs.Poll.Protocol

/-! Which tasks change the task mode, and when. Main statement: manual command mode is entered only
by a request for it, after a poll of the request's own that finds the machine ready for it. -/

namespace MillGateway

open Machine

/-! ### Obstacles -/

namespace Machine.Status

/-- What keeps the machine out of a mode that a client asks for, in the order in which it is told. -/
def obstacles (s : Status) (m : TaskMode) : List String :=
  (if m = .mdi → ∀ b ∈ s.homed, b = true then [] else ["Axes not homed"]) ++
    if m = .mdi ∨ m = .manual then
      (if s.interpState = .idle then [] else ["Interpreter is running"]) ++
        (if s.estop = false then [] else ["CNC in Estop state"]) ++
        (if s.enabled then [] else ["CNC is disabled"])
    else []

theorem obstacles_mdi_eq_nil {s : Status} (h : s.obstacles .mdi = []) :
    (∀ b ∈ s.homed, b = true) ∧ s.interpState = .idle ∧ s.estop = false ∧ s.enabled = true := by
  simpa [obstacles] using h

theorem obstacles_manual_eq_nil {s : Status} (h : s.obstacles .manual = []) :
    s.interpState = .idle ∧ s.estop = false ∧ s.enabled = true := by
  simpa [obstacles] using h

theorem obstacles_eq (s : Status) (m : TaskMode) :
    s.obstacles m = m.preconditions.flatMap fun p => if p.isMet s then [] else [p.reason] := by
  have hhomed : (∀ b ∈ s.homed, b = true) ↔ s.allHomed = true := by simp [allHomed]
  have hidle : s.interpState = .idle ↔ s.interpIdle = true := by simp [interpIdle]
  unfold obstacles
  simp only [hhomed, hidle]
  cases m <;> cases he : s.estop <;>
    simp [TaskMode.preconditions, Precondition.isMet, Precondition.reason, he]

theorem reason_find? (s : Status) (ps : List Precondition) :
    (ps.find? fun p => !p.isMet s).map Precondition.reason =
      (ps.flatMap fun p => if p.isMet s then [] else [p.reason]).head? := by
  induction ps with
  | nil => rfl
  | cons p ps ih =>
    rw [List.find?_cons, List.flatMap_cons]
    cases hp : p.isMet s with
    | true => simpa using ih
    | false => rfl

theorem message_entryRefusal? (s : Status) (m : TaskMode) :
    (s.entryRefusal? m).map EntryRefusal.message =
      (s.obstacles m).head?.map fun text => "Cannot enter " ++ m.title ++ " mode: " ++ text := by
  rw [obstacles_eq, ← reason_find?, entryRefusal?, Option.map_map, Option.map_map]
  rfl

theorem obstacles_eq_nil {s : Status} {m : TaskMode} (h : s.entryRefusal? m = none) :
    s.obstacles m = [] := by
  have hmessage := s.message_entryRefusal? m
  rw [h] at hmessage
  simpa using hmessage.symm

end Machine.Status

/-! ### What one request does -/

namespace Exchange

def poll? : Exchange → Option (Except Link.Error Status)
  | ⟨.outside (.link .pollStatus), a⟩ => some a
  | _ => none

def polls (t : List Exchange) : List (Except Link.Error Status) :=
  t.filterMap poll?

end Exchange

def Outside.issue? : Outside → Option Link.Action
  | .link (.issue a) => some a
  | _ => none

def issued (os : List Outside) : List Link.Action :=
  os.filterMap Outside.issue?

def Request.isApart : Request → Bool
  | .outside (.link .pollStatus) | .outside (.link (.issue _)) => false
  | _ => true

def Request.isOutside : Request → Bool
  | .outside _ => true
  | _ => false

theorem Job.keeps_pollStatus_of {N : Protocol φ} {ph : φ} {next : Option Status → φ}
    (hpoll : ∀ a : Except Link.Error Status,
      N ph (.outside (.link .pollStatus)) a (next a.toOption))
    (hrest : ∀ {ph r a}, Request.isOutside r = false → N ph r a ph) :
    pollStatus.Keeps N (fun ph s? => ph = next s?) ph := by
  refine fun _ => ⟨_, hrest rfl, fun x => ⟨_, hpoll x, ?_⟩⟩
  cases x with
  | error e =>
    refine fun _ => ⟨_, hrest rfl, fun b => ⟨_, hrest rfl, ?_⟩⟩
    exact fun _ => ⟨_, hrest rfl, fun _ => ⟨_, hrest rfl, rfl⟩⟩
  | ok s =>
    refine fun _ => ⟨_, hrest rfl, fun b => ⟨_, hrest rfl, ?_⟩⟩
    refine fun _ => ⟨_, hrest rfl, fun n => ⟨_, hrest rfl, ?_⟩⟩
    exact fun _ => ⟨_, hrest rfl, rfl⟩

namespace Crowd

def polls (i : TaskId) (es : List (Event χ)) : List (Except Link.Error Status) :=
  Exchange.polls (exchanges i es)

def issues (i : TaskId) (es : List (Event χ)) : List Link.Action :=
  issued (asked i es)

end Crowd

namespace ModeChange

open Crowd Job Handle

inductive Phase where
  | asking
  | polled (s? : Option Status)
  | switched (s : Status)

inductive Change (m : TaskMode) : Protocol Phase
  | poll {a} : Change m .asking (.outside (.link .pollStatus)) a (.polled a.toOption)
  | switch {s a} (hs : s.entryRefusal? m = none) :
      Change m (.polled (some s)) (.outside (.link (.issue (.mode m)))) a (.switched s)
  | other {ph r a} (hr : r.isApart = true) : Change m ph r a ph

def Ends (m : TaskMode) (ph : Phase) (res : Reply) : Prop :=
  ∀ s r, ph = .polled (some s) → s.entryRefusal? m = some r → res = .of (.entryRefused r)

variable {m : TaskMode}

theorem spares (ph : Phase) : (Change m).Spares (· = ph) fun r => r.isApart = true := by
  rintro _ r a rfl hr
  exact ⟨_, .other hr, rfl⟩

theorem returns_isAlive (ph : Phase) : isAlive.Returns (Change m) (· = ph) :=
  (spares ph).returns (Asks.locked rfl rfl ⟨rfl, fun _ => trivial⟩)

theorem keeps_pollStatus :
    pollStatus.Keeps (Change m) (fun ph s? => ph = .polled s?) .asking := by
  refine keeps_pollStatus_of (fun _ => .poll) fun {_ r _} hr => .other ?_
  cases r with
  | outside => cases hr
  | acquire | release | inside => rfl

theorem keeps_switch {s : Status} (hs : s.entryRefusal? m = none) (limit : Nat) :
    (act (.mode m) limit).Keeps (Change m) (Ends m) (.polled (some s)) := by
  have hends : ∀ res, Ends m (.polled (some s)) res := by
    intro res s' r hs' hr
    cases hs'
    rw [hs] at hr
    cases hr
  have hexecute : (execute (.mode m) limit).Keeps (Change m)
      (fun ph _ => ph = .polled (some s) ∨ ph = .switched s) (.polled (some s)) := by
    refine (returns_isAlive _ _ rfl).bind ?_
    rintro ph alive rfl
    cases alive with
    | false => exact .inl rfl
    | true =>
      refine fun h? => ⟨_, .switch hs, ?_⟩
      cases h? with
      | error e => exact .inr rfl
      | ok h =>
        by_cases hl : limit = 0
        · simp only [hl]
          exact fun _ => ⟨_, .other rfl, .inr rfl⟩
        · simp only [hl]
          exact fun _ => ⟨_, .other rfl, .inr rfl⟩
  refine hexecute.bind ?_
  rintro ph o (rfl | rfl)
  · exact hends _
  · intro s' r hs'
    cases hs'

theorem keeps_setTaskMode : (setTaskMode m).Keeps (Change m) (Ends m) .asking := by
  unfold setTaskMode
  split
  · intro s r hs
    cases hs
  · refine keeps_pollStatus.bind ?_
    rintro ph s? rfl
    cases s? with
    | none =>
      intro s r hs
      cases hs
    | some s =>
      dsimp only
      split
      · next r hr =>
        intro s' r' hs hr'
        cases hs
        rw [hr] at hr'
        cases hr'
        rfl
      · next hs => exact keeps_switch hs _

theorem keeps_handleCommand {s : Setup} {name : String} {args : Json}
    (h : orderOf? name args = some (.setTaskMode m)) :
    (handleCommand s name args).Keeps (Change m) (Ends m) .asking := by
  obtain ⟨-, hname, hread⟩ := name_of_orderOf? h
  unfold handleCommand
  rw [hname]
  refine (returns_isAlive _ _ rfl).bind ?_
  rintro ph alive rfl
  cases alive with
  | false =>
    intro s r hs
    cases hs
  | true =>
    dsimp only
    rw [hread]
    exact keeps_setTaskMode

/-! ### What it has shown -/

def Phase.Shows (m : TaskMode) (t : List Exchange) : Phase → Prop
  | .asking => Exchange.polls t = [] ∧ issued (Exchange.outsides t) = []
  | .polled s? =>
    (∃ a, Exchange.polls t = [a] ∧ a.toOption = s?) ∧ issued (Exchange.outsides t) = []
  | .switched s =>
    Exchange.polls t = [.ok s] ∧ s.entryRefusal? m = none ∧
      issued (Exchange.outsides t) = [.mode m]

theorem polls_snoc (t : List Exchange) (x : Exchange) :
    Exchange.polls (t ++ [x]) = Exchange.polls t ++ x.poll?.toList :=
  filterMap_snoc Exchange.poll? t x

theorem issued_snoc (t : List Exchange) (x : Exchange) :
    issued (Exchange.outsides (t ++ [x])) =
      issued (Exchange.outsides t) ++ (x.outside?.bind Outside.issue?).toList := by
  rw [outsides_snoc, issued, List.filterMap_append]
  cases x.outside? with
  | none => rfl
  | some o => cases h : o.issue? <;> simp [issued, h]

theorem apart {r : Request} (hr : r.isApart = true) (a : r.Answer) :
    Exchange.poll? ⟨r, a⟩ = none ∧ (Exchange.outside? ⟨r, a⟩).bind Outside.issue? = none := by
  cases r with
  | outside o =>
    cases o with
    | link c => cases c <;> first | exact ⟨rfl, rfl⟩ | cases hr
    | _ => exact ⟨rfl, rfl⟩
  | _ => exact ⟨rfl, rfl⟩

theorem shows_of_path {t : List Exchange} {q : Phase} (h : (Change m).Path .asking t q) :
    q.Shows m t := by
  induction h with
  | nil => exact ⟨rfl, rfl⟩
  | @snoc t q r a q' _ hN ih =>
    cases hN with
    | @poll a =>
      obtain ⟨hpolls, hissued⟩ := ih
      refine ⟨⟨a, ?_, rfl⟩, ?_⟩
      · rw [polls_snoc, hpolls]
        rfl
      · rw [issued_snoc, hissued]
        rfl
    | @switch s a hs =>
      obtain ⟨⟨x, hpolls, hx⟩, hissued⟩ := ih
      have hok : x = .ok s := by
        cases x with
        | ok s' => exact congrArg _ (Option.some.inj hx)
        | error e => cases hx
      refine ⟨?_, hs, ?_⟩
      · rw [polls_snoc, hpolls, hok]
        rfl
      · rw [issued_snoc, hissued]
        rfl
    | other hr =>
      obtain ⟨hpoll, hissue⟩ := apart hr a
      have hpolls : Exchange.polls (t ++ [⟨r, a⟩]) = Exchange.polls t := by
        rw [polls_snoc, hpoll, Option.toList_none, List.append_nil]
      have hissued : issued (Exchange.outsides (t ++ [⟨r, a⟩])) =
          issued (Exchange.outsides t) := by
        rw [issued_snoc, hissue, Option.toList_none, List.append_nil]
      cases q <;> simpa only [Phase.Shows, hpolls, hissued] using ih

theorem Phase.Shows.eq_polled {t : List Exchange} {q : Phase} {s : Status} {refusal : EntryRefusal}
    (h : q.Shows m t) (hs : s.entryRefusal? m = some refusal) (hmem : .ok s ∈ Exchange.polls t) :
    q = .polled (some s) := by
  cases q with
  | asking =>
    rw [h.1] at hmem
    cases hmem
  | polled s? =>
    obtain ⟨⟨a, hpolls, rfl⟩, -⟩ := h
    rw [hpolls, List.mem_singleton] at hmem
    rw [← hmem]
    rfl
  | switched s' =>
    obtain ⟨hpolls, hnone, -⟩ := h
    rw [hpolls, List.mem_singleton] at hmem
    cases hmem
    rw [hnone] at hs
    cases hs

theorem Change.stays {ph ph' : Phase} {r : Request} {a : r.Answer} {s : Status} {refusal : EntryRefusal}
    (h : Change m ph r a ph') (hs : s.entryRefusal? m = some refusal)
    (hph : ph = .polled (some s)) : ph' = .polled (some s) := by
  cases h with
  | poll => cases hph
  | switch hnone =>
    cases hph
    rw [hnone] at hs
    cases hs
  | other => exact hph

theorem eq_ok_of_toOption {x : Except Link.Error Status} {s : Status} (h : x.toOption = some s) :
    x = .ok s := by
  cases x with
  | ok s' => exact congrArg _ (Option.some.inj h)
  | error e => cases h

/-! ### Whole runs -/

theorem eq_of_mayIssue_mdi {s : Setup} {o : Order} (h : o.MayIssue s (.mode .mdi)) :
    o = .setTaskMode .mdi := by
  cases o with
  | setTaskMode m =>
    cases h
    rfl
  | homeAll =>
    rcases h with h | ⟨axis, h⟩ <;> cases h
  | moveAxisContinuous | moveAxisIncrement | runGcode | stepGcode =>
    rcases h with h | h <;> cases h
  | loadGcode =>
    rcases h with h | h | h | h <;> cases h
  | _ => cases h

open Poll (Errand)

variable [DecidableEq ω] {R : Rules Errand.Result σ χ ω ε} {errands : TaskId → Option Errand}
  {s₀ s : Crowd Errand.Result σ ω ε} {es es' : List (Crowd.Event χ)} {i : TaskId}

theorem order_of_issued (hjobs : ∀ i, R.jobs i = (errands i).map Errand.answer) (hs₀ : s₀.Fresh)
    {a : Link.Action} (h : Run R s₀ (es ++ .asked i (.link (.issue a)) :: es') s) :
    ∃ s name args o, errands i = some (.command s name args) ∧ orderOf? name args = some o ∧
      o.MayIssue s a := by
  obtain ⟨j₀, k, hj₀, hreach⟩ := h.reaches_of_asked hs₀
  rw [hjobs] at hj₀
  obtain ⟨e, he, rfl⟩ := Option.map_eq_some_iff.1 hj₀
  rcases (hreach.asks (Poll.asks_answer e)).1.1 with hr | hr | ⟨-, hr⟩ | ⟨a', hmay, ha⟩
  · cases hr
  · cases hr
  · cases hr
  · cases ha
    obtain ⟨s, name, args, o, rfl, ho, hmay⟩ := hmay
    exact ⟨s, name, args, o, he, ho, hmay⟩

def Replies (m : TaskMode) (ph : Phase) (res : Errand.Result) : Prop :=
  ∃ r, res = .reply r ∧ Ends m ph r

theorem keeps_answer {setup : Setup} {name : String} {args : Json}
    (h : orderOf? name args = some (.setTaskMode m)) :
    (Errand.command setup name args).answer.Keeps (Change m) (Replies m) .asking :=
  (keeps_handleCommand h).bind fun _ r hr => ⟨r, rfl, hr⟩

section

variable {setup : Setup} {name : String} {args : Json}

theorem ready_of_issued (hjobs : ∀ i, R.jobs i = (errands i).map Errand.answer) (hs₀ : s₀.Fresh)
    (he : errands i = some (.command setup name args))
    (ho : orderOf? name args = some (.setTaskMode m)) {a : Link.Action}
    (h : Run R s₀ (es ++ .asked i (.link (.issue a)) :: es') s) :
    a = .mode m ∧ ∃ st, polls i es = [.ok st] ∧ st.obstacles m = [] := by
  obtain ⟨j₀, k, hj₀, hreach⟩ := h.reaches_of_asked hs₀
  rw [hjobs, he] at hj₀
  cases hj₀
  obtain ⟨q, hpath, hkeeps⟩ := (keeps_answer ho).of_reaches hreach
  have hshows := shows_of_path hpath
  obtain ⟨q', hN, -⟩ := hkeeps (.error .channelClosed)
  cases hN with
  | @switch st _ hs =>
    obtain ⟨⟨x, hpolls, hx⟩, -⟩ := hshows
    rw [eq_ok_of_toOption hx] at hpolls
    exact ⟨rfl, st, hpolls, Status.obstacles_eq_nil hs⟩
  | other hr => cases hr

theorem shows_of_run (hjobs : ∀ i, R.jobs i = (errands i).map Errand.answer) (hs₀ : s₀.Fresh)
    (he : errands i = some (.command setup name args))
    (ho : orderOf? name args = some (.setTaskMode m)) (h : Run R s₀ es s) :
    ∃ t, ∃ q : Phase, Exchange.polls (exchanges i es) <+: Exchange.polls t ∧
      issues i es = issued (Exchange.outsides t) ∧ q.Shows m t := by
  have hj₀ : R.jobs i = some (Errand.command setup name args).answer := by rw [hjobs, he]; rfl
  obtain ⟨t, j, hreach, ht, hasked⟩ := (h.stands hj₀ (congrFun hs₀.tasks i)).walk
  obtain ⟨q, hpath, -⟩ := (keeps_answer ho).of_reaches hreach
  exact ⟨t, q, ht.filterMap _, congrArg issued hasked, shows_of_path hpath⟩

theorem refused_of_polled (hjobs : ∀ i, R.jobs i = (errands i).map Errand.answer) (hs₀ : s₀.Fresh)
    (he : errands i = some (.command setup name args))
    (ho : orderOf? name args = some (.setTaskMode m)) (h : Run R s₀ es s) {st : Status}
    (hst : .ok st ∈ polls i es) {text : String} {rest : List String}
    (hobstacles : st.obstacles m = text :: rest) :
    issues i es = [] ∧ ∀ j, s.jobAt i = some j → j.ComesTo fun res => ∃ r, res = .reply r ∧
      r.code = -2 ∧ r.outcome.text = "Cannot enter " ++ m.title ++ " mode: " ++ text := by
  have hmessage := st.message_entryRefusal? m
  rw [hobstacles] at hmessage
  obtain ⟨refusal, hrefusal, htext⟩ := Option.map_eq_some_iff.1 hmessage
  constructor
  · obtain ⟨t, q, hpolls, hissued, hq⟩ := shows_of_run hjobs hs₀ he ho h
    obtain rfl := hq.eq_polled hrefusal (hpolls.subset hst)
    exact hissued.trans hq.2
  · intro j hj
    have hj₀ : R.jobs i = some (Errand.command setup name args).answer := by rw [hjobs, he]; rfl
    have hreach := (h.stands hj₀ (congrFun hs₀.tasks i)).reaches hj
    obtain ⟨q, hpath, hkeeps⟩ := (keeps_answer ho).of_reaches hreach
    obtain rfl := (shows_of_path hpath).eq_polled hrefusal hst
    refine (hkeeps.comesTo (P := (· = .polled (some st))) rfl fun hN hph => ?_).mono ?_
    · exact hN.stays hrefusal hph
    · rintro res ⟨ph, rfl, r, rfl, hends⟩
      rw [hends st refusal rfl hrefusal]
      exact ⟨_, rfl, rfl, htext⟩

end

/-- Whatever runs beside it, manual command mode is entered only by a request for this mode, after
its one poll has found all axes homed, the interpreter idle, no emergency stop, and the machine
enabled; and manual mode by a request for it without regard to the axes. A request that its poll
speaks against is refused with the first reason and issues nothing, and any other issues at most the
change. -/
theorem modes_entered_when_ready (hjobs : ∀ i, R.jobs i = (errands i).map Errand.answer)
    (hs₀ : s₀.Fresh) (h : Run R s₀ es s) :
    (∀ i es₁ es₂, es = es₁ ++ .asked i (.link (.issue (.mode .mdi))) :: es₂ →
      ∃ setup args st, errands i = some (.command setup "set_task_mode" args) ∧
        orderOf? "set_task_mode" args = some (.setTaskMode .mdi) ∧ polls i es₁ = [.ok st] ∧
        (∀ b ∈ st.homed, b = true) ∧ st.interpState = .idle ∧ st.estop = false ∧
        st.enabled = true) ∧
    ∀ i setup args m, errands i = some (.command setup "set_task_mode" args) →
      orderOf? "set_task_mode" args = some (.setTaskMode m) →
      (∀ es₁ es₂, es = es₁ ++ .asked i (.link (.issue (.mode .manual))) :: es₂ →
        m = .manual ∧ ∃ st, polls i es₁ = [.ok st] ∧ st.interpState = .idle ∧
          st.estop = false ∧ st.enabled = true) ∧
      (∀ st text rest, .ok st ∈ polls i es → st.obstacles m = text :: rest →
        issues i es = [] ∧ ∀ j, s.jobAt i = some j → j.ComesTo fun res => ∃ r, res = .reply r ∧
          r.code = -2 ∧ r.outcome.text = "Cannot enter " ++ m.title ++ " mode: " ++ text) ∧
      (polls i es).length ≤ 1 ∧ (issues i es = [] ∨ issues i es = [.mode m]) := by
  refine ⟨?_, fun i setup args m he ho => ⟨?_, ?_, ?_⟩⟩
  · rintro i es₁ es₂ rfl
    obtain ⟨setup, name, args, o, he, ho, hmay⟩ := order_of_issued hjobs hs₀ h
    obtain rfl := eq_of_mayIssue_mdi hmay
    obtain ⟨rfl, -⟩ := name_of_orderOf? ho
    obtain ⟨-, st, hpolls, hst⟩ := ready_of_issued hjobs hs₀ he ho h
    exact ⟨setup, args, st, he, ho, hpolls, Status.obstacles_mdi_eq_nil hst⟩
  · rintro es₁ es₂ rfl
    obtain ⟨hm, st, hpolls, hst⟩ := ready_of_issued hjobs hs₀ he ho h
    cases hm
    exact ⟨rfl, st, hpolls, Status.obstacles_manual_eq_nil hst⟩
  · intro st text rest hst hobstacles
    exact refused_of_polled hjobs hs₀ he ho h hst hobstacles
  · obtain ⟨t, q, hpolls, hissued, hq⟩ := shows_of_run hjobs hs₀ he ho h
    have hlength := hpolls.length_le
    change (polls i es).length ≤ _ at hlength
    rw [hissued]
    cases q with
    | asking =>
      rw [hq.1] at hlength
      exact ⟨Nat.le_trans hlength (Nat.zero_le 1), .inl hq.2⟩
    | polled s? =>
      obtain ⟨⟨a, hone, -⟩, hnone⟩ := hq
      rw [hone] at hlength
      exact ⟨hlength, .inl hnone⟩
    | switched s =>
      obtain ⟨hone, -, hswitch⟩ := hq
      rw [hone] at hlength
      exact ⟨hlength, .inr hswitch⟩

def obedient (errands : TaskId → Option Errand) : Rules Errand.Result Unit Status Empty Unit where
  jobs i := (errands i).map Errand.answer
  mayDrop _ := true
  observers := .nobody
  answer
    | .link .pollStatus, st, w => some (.ok st, w)
    | .link (.issue _), _, w => some (.ok 1, w)
    | .waitWithin _ _, _, w => some (some (.ok .done), w)
    | _, _, _ => none
  befall _ _ := none

def twoRequests : TaskId → Option Errand
  | 0 => some .pollStatus
  | 1 | 2 => some (.command default "set_task_mode" (.obj [("mode", .str "mdi")]))
  | _ => none

def homed : Status :=
  { homed := [true, true], interpState := .idle, enabled := true }

def unhomed : Status :=
  { homed with homed := [true, false] }

/-- The second client waits for the poll of the first, and an axis loses its home in between. -/
def sideBySide : List (Choice Status) :=
  [.start 0, .start 1, .start 2] ++ List.replicate 8 (.go 0 homed) ++
    List.replicate 5 (.go 1 homed) ++ List.replicate 4 (.go 2 unhomed) ++
    List.replicate 13 (.go 1 homed) ++ List.replicate 8 (.go 2 unhomed)

def atRest : Crowd Errand.Result Unit Empty Unit :=
  { gateway := { left := () }, world := () }

theorem modes_entered_when_ready_one_of_two :
    ∃ es s, Run (obedient twoRequests) atRest es s ∧
      issues 1 es = [.mode .mdi] ∧ issues 2 es = [] ∧ ∃ j, s.jobAt 2 = some j ∧
        j.ComesTo fun res => ∃ r, res = .reply r ∧
          r.code = -2 ∧ r.outcome.text = "Cannot enter MDI mode: Axes not homed" := by
  have hshown : (play? (obedient twoRequests) sideBySide ([], atRest)).map
      (fun x => ((issues 1 x.1).length, (x.2.jobAt 2).isSome)) = some (1, true) := by
    decide +kernel
  have hpolls : (play? (obedient twoRequests) sideBySide ([], atRest)).map
      (fun x => polls 2 x.1) = some [.ok unhomed] := by rfl
  obtain ⟨⟨es, s⟩, hplay, hshown⟩ := Option.map_eq_some_iff.1 hshown
  obtain ⟨hlength, hjob⟩ := Prod.mk.inj hshown
  obtain ⟨j, hj⟩ := Option.isSome_iff_exists.1 hjob
  rw [hplay] at hpolls
  have hpolled : .ok unhomed ∈ polls 2 es := by simp [Option.some.inj hpolls]
  have hrun := run_of_play? .nil hplay
  have ho : orderOf? "set_task_mode" (.obj [("mode", .str "mdi")]) = some (.setTaskMode .mdi) :=
    rfl
  obtain ⟨-, hrequests⟩ := modes_entered_when_ready (fun _ => rfl) ⟨rfl, rfl⟩ hrun
  obtain ⟨-, -, -, hissued⟩ := hrequests 1 _ _ .mdi rfl ho
  obtain ⟨-, hrefused, -⟩ := hrequests 2 _ _ .mdi rfl ho
  obtain ⟨hnone, hreply⟩ := hrefused unhomed "Axes not homed" [] hpolled (by decide)
  refine ⟨es, s, hrun, ?_, hnone, j, hj, hreply j hj⟩
  rcases hissued with hissued | hissued
  · rw [hissued] at hlength
    cases hlength
  · exact hissued

end ModeChange

end MillGateway
