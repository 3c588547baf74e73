import MillGateway.Proofs.Command.Mode
import MillGateway.Proofs.Crowd.Turns

/-! Starts of the controller, side by side. A start looks for a controller that answers, and launches
one if there is none; nothing keeps another start from doing the same in between. Main statement: a
start launches at most once, and only after its own poll has failed. -/

namespace MillGateway

def Outside.isLaunch : Outside → Bool
  | .link .launch => true
  | _ => false

namespace Request

def isLaunch : Request → Bool
  | .outside o => o.isLaunch
  | _ => false

def isBeside : Request → Bool
  | .outside (.link .pollStatus) | .outside (.link .launch) => false
  | _ => true

end Request

namespace Start

open Crowd Job Handle Machine

def launchesIn (os : List Outside) : Nat :=
  os.countP Outside.isLaunch

def launches (i : TaskId) (es : List (Crowd.Event χ)) : Nat :=
  launchesIn (asked i es)

inductive Phase where
  | asking
  | found (s? : Option Status)
  | launched

inductive Turn : Protocol Phase
  | poll {a} : Turn .asking (.outside (.link .pollStatus)) a (.found a.toOption)
  | launch {a} : Turn (.found none) (.outside (.link .launch)) a .launched
  | again {a} : Turn .launched (.outside (.link .pollStatus)) a .launched
  | other {ph r a} (hr : r.isBeside = true) : Turn ph r a ph

def Ends (ph : Phase) (r : Reply) : Prop :=
  ∀ s, ph = .found (some s) → r = .of .alreadyRunning

theorem keeps_pollStatus : pollStatus.Keeps Turn (fun ph s? => ph = .found s?) .asking := by
  refine keeps_pollStatus_of (fun _ => .poll) fun {_ r _} hr => .other ?_
  cases r with
  | outside => cases hr
  | acquire | release | inside => rfl

theorem spares_launched : Turn.Spares (· = .launched) (·.isLaunch = false) := by
  rintro _ r a rfl hr
  by_cases hpoll : r = .outside (.link .pollStatus)
  · subst hpoll
    exact ⟨_, .again, rfl⟩
  · refine ⟨_, .other ?_, rfl⟩
    cases r with
    | outside o =>
      cases o with
      | link c => cases c <;> first | rfl | exact absurd rfl hpoll | cases hr
      | _ => rfl
    | _ => rfl

theorem asks_awaitAnswer (deadline tries : Nat) :
    (awaitAnswer deadline tries).Asks (·.isLaunch = false) := by
  have hpoll : pollStatus.Asks (·.isLaunch = false) :=
    asks_pollStatus_of ⟨rfl, rfl⟩ ⟨rfl, rfl⟩ rfl (fun _ => ⟨rfl, rfl⟩) rfl
  exact Handle.asks_awaitAnswer hpoll rfl rfl deadline tries

theorem keeps_startCnc (s : Setup) : (startCnc s).Keeps Turn Ends .asking := by
  refine keeps_pollStatus.bind ?_
  rintro _ s? rfl
  cases s? with
  | some st => exact fun _ _ => rfl
  | none =>
    refine fun x => ⟨_, .launch, ?_⟩
    have hends : ∀ r, Ends .launched r := fun r s hs => by cases hs
    cases x with
    | error e => exact hends _
    | ok =>
      refine fun now => ⟨_, .other rfl, (spares_launched.returns (asks_awaitAnswer _ _) _ rfl).bind ?_⟩
      rintro _ answered rfl
      cases answered with
      | false => exact hends _
      | true =>
        have hreset : resetChannel.Asks (·.isLaunch = false) :=
          Asks.locked rfl rfl ⟨rfl, fun _ => trivial⟩
        refine (spares_launched.returns hreset _ rfl).bind ?_
        rintro _ _ rfl
        exact hends _

/-! ### What a start has shown -/

def Phase.Shows (t : List Exchange) : Phase → Prop
  | .asking => Exchange.polls t = [] ∧ launchesIn (Exchange.outsides t) = 0
  | .found s? =>
    (∃ a, Exchange.polls t = [a] ∧ a.toOption = s?) ∧ launchesIn (Exchange.outsides t) = 0
  | .launched =>
    (∃ e, (Exchange.polls t).head? = some (.error e)) ∧ launchesIn (Exchange.outsides t) = 1

theorem launchesIn_snoc (t : List Exchange) (x : Exchange) :
    launchesIn (Exchange.outsides (t ++ [x])) =
      launchesIn (Exchange.outsides t) + launchesIn x.outside?.toList := by
  rw [outsides_snoc, launchesIn, List.countP_append]
  rfl

theorem beside {r : Request} (hr : r.isBeside = true) (a : r.Answer) :
    Exchange.poll? ⟨r, a⟩ = none ∧ launchesIn (Exchange.outside? ⟨r, a⟩).toList = 0 := by
  cases r with
  | outside o =>
    cases o with
    | link c => cases c <;> first | exact ⟨rfl, rfl⟩ | cases hr
    | _ => exact ⟨rfl, rfl⟩
  | _ => exact ⟨rfl, rfl⟩

theorem shows_of_path {t : List Exchange} {q : Phase} (h : Turn.Path .asking t q) :
    q.Shows t := by
  induction h with
  | nil => exact ⟨rfl, rfl⟩
  | @snoc t q r a q' _ hN ih =>
    cases hN with
    | @poll a =>
      obtain ⟨hpolls, hlaunches⟩ := ih
      refine ⟨⟨a, ?_, rfl⟩, ?_⟩
      · rw [ModeChange.polls_snoc, hpolls]
        rfl
      · rw [launchesIn_snoc, hlaunches]
        rfl
    | @launch a =>
      obtain ⟨⟨x, hpolls, hx⟩, hlaunches⟩ := ih
      refine ⟨?_, ?_⟩
      · cases x with
        | ok s => cases hx
        | error e =>
          refine ⟨e, ?_⟩
          rw [ModeChange.polls_snoc, hpolls]
          rfl
      · rw [launchesIn_snoc, hlaunches]
        rfl
    | @again a =>
      obtain ⟨⟨e, hpolls⟩, hlaunches⟩ := ih
      refine ⟨⟨e, ?_⟩, ?_⟩
      · rw [ModeChange.polls_snoc, List.head?_append, hpolls]
        rfl
      · rw [launchesIn_snoc, hlaunches]
        rfl
    | other hr =>
      obtain ⟨hpoll, hlaunch⟩ := beside hr a
      have hpolls : Exchange.polls (t ++ [⟨r, a⟩]) = Exchange.polls t := by
        rw [ModeChange.polls_snoc, hpoll, Option.toList_none, List.append_nil]
      have hlaunches : launchesIn (Exchange.outsides (t ++ [⟨r, a⟩])) =
          launchesIn (Exchange.outsides t) := by
        rw [launchesIn_snoc, hlaunch]
        rfl
      cases q <;> simpa only [Phase.Shows, hpolls, hlaunches] using ih

theorem Phase.Shows.eq_found {t : List Exchange} {q : Phase} {st : Status} (h : q.Shows t)
    (hst : (Exchange.polls t).head? = some (.ok st)) : q = .found (some st) := by
  cases q with
  | asking =>
    rw [h.1] at hst
    cases hst
  | found s? =>
    obtain ⟨⟨a, hpolls, rfl⟩, -⟩ := h
    rw [hpolls, List.head?_cons] at hst
    rw [Option.some.inj hst]
    rfl
  | launched =>
    obtain ⟨⟨e, hpolls⟩, -⟩ := h
    rw [hpolls] at hst
    cases hst

theorem Turn.stays {ph ph' : Phase} {r : Request} {a : r.Answer} {st : Status}
    (h : Turn ph r a ph') (hph : ph = .found (some st)) : ph' = .found (some st) := by
  cases h with
  | poll | launch | again => cases hph
  | other => exact hph

/-! ### Whole runs -/

open Poll (Errand)

def Replies (ph : Phase) (res : Errand.Result) : Prop :=
  ∃ r, res = .reply r ∧ Ends ph r

theorem keeps_answer (setup : Setup) (args : Json) :
    (Errand.command setup "start_cnc" args).answer.Keeps Turn Replies .asking := by
  have hreply : ∀ ph r, Ends ph r →
      (done (.reply r) : Job Errand.Result).Keeps Turn Replies ph := fun _ r hr => ⟨r, rfl, hr⟩
  exact (keeps_startCnc setup).bind hreply

section

variable [DecidableEq ω] {R : Rules Errand.Result σ χ ω ε} {errands : TaskId → Option Errand}
  {s₀ s : Crowd Errand.Result σ ω ε} {es es' : List (Crowd.Event χ)} {i : TaskId}
  {setup : Setup} {args : Json}

theorem polled_of_launch (hjobs : ∀ i, R.jobs i = (errands i).map Errand.answer) (hs₀ : s₀.Fresh)
    (he : errands i = some (.command setup "start_cnc" args))
    (h : Run R s₀ (es ++ .asked i (.link .launch) :: es') s) :
    launches i es = 0 ∧ ∃ e, polls i es = [.error e] := by
  obtain ⟨j₀, k, hj₀, hreach, hasked⟩ := h.stands_of_asked hs₀
  rw [hjobs, he] at hj₀
  cases hj₀
  obtain ⟨q, hpath, hkeeps⟩ := (keeps_answer setup args).of_reaches hreach
  have hshows := shows_of_path hpath
  obtain ⟨q', hturn, -⟩ := hkeeps (.error .channelClosed)
  cases hturn with
  | launch =>
    obtain ⟨⟨x, hpolls, hx⟩, hlaunches⟩ := hshows
    refine ⟨(congrArg launchesIn hasked).trans hlaunches, ?_⟩
    cases x with
    | error e => exact ⟨e, hpolls⟩
    | ok st => cases hx
  | other hr => cases hr

theorem shows_of_run (hjobs : ∀ i, R.jobs i = (errands i).map Errand.answer) (hs₀ : s₀.Fresh)
    (he : errands i = some (.command setup "start_cnc" args)) (h : Run R s₀ es s) :
    ∃ t, ∃ q : Phase, Exchange.polls (exchanges i es) <+: Exchange.polls t ∧
      launches i es = launchesIn (Exchange.outsides t) ∧ q.Shows t := by
  have hj₀ : R.jobs i = some (Errand.command setup "start_cnc" args).answer := by
    rw [hjobs, he]
    rfl
  obtain ⟨t, j, hreach, ht, hasked⟩ := (h.stands hj₀ (congrFun hs₀.tasks i)).walk
  obtain ⟨q, hpath, -⟩ := (keeps_answer setup args).of_reaches hreach
  exact ⟨t, q, ht.filterMap _, congrArg launchesIn hasked, shows_of_path hpath⟩

/-- A start launches at most once, whatever runs beside it, and only after a poll of its own, its
first, has failed. A start whose first poll is answered launches nothing, and replies that the
controller is running already. -/
theorem launched_after_failed_poll (hjobs : ∀ i, R.jobs i = (errands i).map Errand.answer)
    (hs₀ : s₀.Fresh) (h : Run R s₀ es s)
    (he : errands i = some (.command setup "start_cnc" args)) :
    (∀ es₁ es₂, es = es₁ ++ .asked i (.link .launch) :: es₂ →
      launches i es₁ = 0 ∧ ∃ e, polls i es₁ = [.error e]) ∧
    launches i es ≤ 1 ∧
    ∀ st, (polls i es).head? = some (.ok st) → launches i es = 0 ∧
      ∀ j, s.jobAt i = some j → j.ComesTo fun res => res = .reply (.of .alreadyRunning) := by
  refine ⟨?_, ?_, fun st hst => ⟨?_, fun j hj => ?_⟩⟩
  · rintro es₁ es₂ rfl
    exact polled_of_launch hjobs hs₀ he h
  · obtain ⟨t, q, -, hlaunches, hshows⟩ := shows_of_run hjobs hs₀ he h
    rw [hlaunches]
    cases q with
    | asking | found => exact Nat.le_succ_of_le (Nat.le_of_eq hshows.2)
    | launched => exact Nat.le_of_eq hshows.2
  · obtain ⟨t, q, ⟨rest, hpolls⟩, hlaunches, hshows⟩ := shows_of_run hjobs hs₀ he h
    have hfirst : (Exchange.polls t).head? = some (.ok st) := by
      rw [← hpolls, List.head?_append]
      exact congrArg (·.or rest.head?) hst
    obtain rfl := hshows.eq_found hfirst
    exact hlaunches.trans hshows.2
  · have hj₀ : R.jobs i = some (Errand.command setup "start_cnc" args).answer := by
      rw [hjobs, he]
      rfl
    have hreach := (h.stands hj₀ (congrFun hs₀.tasks i)).reaches hj
    obtain ⟨q, hpath, hkeeps⟩ := (keeps_answer setup args).of_reaches hreach
    obtain rfl := (shows_of_path hpath).eq_found hst
    refine (hkeeps.comesTo (P := (· = .found (some st))) rfl fun h hph => h.stays hph).mono ?_
    rintro res ⟨_, rfl, r, rfl, hends⟩
    rw [hends st rfl]

end

def launchable (errands : TaskId → Option Errand) :
    Rules Errand.Result Unit (Except Link.Error Status) Empty Unit where
  jobs i := (errands i).map Errand.answer
  mayDrop _ := true
  observers := .nobody
  answer
    | .link .pollStatus, x, w => some (x, w)
    | .link .launch, _, w => some (.ok (), w)
    | .clock, _, w => some (0, w)
    | _, _, _ => none
  befall _ _ := none

def twoStarts : TaskId → Option Errand
  | 0 | 1 => some (.command default "start_cnc" .null)
  | _ => none

def oneByOne : List (Choice (Except Link.Error Status)) :=
  [.start 0, .start 1] ++ List.replicate 11 (.go 0 (.error .channelClosed)) ++
    List.replicate 11 (.go 0 (.ok default)) ++ List.replicate 3 (.go 1 (.ok default))

theorem launched_after_failed_poll_one_by_one :
    ∃ es s, Run (launchable twoStarts) ModeChange.atRest es s ∧
      launches 0 es = 1 ∧ launches 1 es = 0 ∧ ∃ j, s.jobAt 1 = some j ∧
        j.ComesTo fun res => res = .reply (.of .alreadyRunning) := by
  have hcomputed : (play? (launchable twoStarts) oneByOne ([], ModeChange.atRest)).map (fun x =>
      (launches 0 x.1, (x.2.jobAt 1).isSome)) = some (1, true) := by
    decide +kernel
  have hpolls : (play? (launchable twoStarts) oneByOne ([], ModeChange.atRest)).map (fun x =>
      (polls 1 x.1).head?) = some (some (.ok default)) := by
    rfl
  obtain ⟨⟨es, s⟩, hplay, hcomputed⟩ := Option.map_eq_some_iff.1 hcomputed
  obtain ⟨hlaunches, hjob⟩ := Prod.mk.inj hcomputed
  obtain ⟨j, hj⟩ := Option.isSome_iff_exists.1 hjob
  rw [hplay] at hpolls
  have hrun := run_of_play? .nil hplay
  have hsecond : twoStarts 1 = some (.command default "start_cnc" .null) := rfl
  obtain ⟨-, -, hanswered⟩ := launched_after_failed_poll (fun _ => rfl) ⟨rfl, rfl⟩ hrun hsecond
  obtain ⟨hnone, hreply⟩ := hanswered default (Option.some.inj hpolls)
  exact ⟨es, s, hrun, hlaunches, hnone, j, hj, hreply j hj⟩

/-! ### Two starts at a time -/

def launcher? (x : Move α σ χ ω ε) : Option TaskId :=
  match x.event with
  | .asked i (.link .launch) => some i
  | _ => none

/-- Whether the launch of `i` has failed, a poll has been answered, or the start has given up. -/
def settles (i : TaskId) (x : Move Errand.Result σ χ ω ε) : Bool :=
  (match x.event with
    | .heard i' (.link .launch) _ (.error _) => i' == i
    | .heard _ (.link .pollStatus) _ (.ok _) => true
    | _ => false) ||
  match x.after.tasks i with
  | some (.ready (.done (.reply r))) => (r.outcome matches .startTimedOut)
  | _ => false

/-- Whether nobody launches between the launch of another start and what settles it. -/
def OneAtATime (ms : List (Move Errand.Result σ χ ω ε)) : Prop :=
  ∀ m n i i', m < n → (ms[m]?).bind launcher? = some i → (ms[n]?).bind launcher? = some i' →
    i ≠ i' → ((ms.drop (m + 1)).take (n - m - 1)).any (settles i) = true

def sideBySide : List (Choice (Except Link.Error Status)) :=
  [.start 0, .start 1] ++ List.replicate 8 (.go 0 (.error .channelClosed)) ++
    List.replicate 8 (.go 1 (.error .channelClosed))

/-- Two starts that overlap both launch the controller, before anything has come of the first. -/
theorem not_oneAtATime_side_by_side :
    ∃ ms s, Trail (launchable twoStarts) ModeChange.atRest ms s ∧ InTurns ms ∧ Direct ms ∧
      ¬ OneAtATime ms := by
  have hcomputed : (trace? (launchable twoStarts) sideBySide ModeChange.atRest).map (fun x =>
      (takeTurns [0, 1] x.1, decide (Direct x.1), (x.1[9]?).bind launcher?,
        (x.1[17]?).bind launcher?, ((x.1.drop 10).take 7).any (settles 0))) =
      some (true, true, some 0, some 1, false) := by
    decide +kernel
  obtain ⟨⟨ms, s⟩, htrace, hcomputed⟩ := Option.map_eq_some_iff.1 hcomputed
  obtain ⟨hturns, hdirect, hfirst, hsecond, hopen⟩ := by
    simpa only [Prod.mk.injEq] using hcomputed
  have htrail := trail_of_trace? .nil htrace
  rw [List.nil_append] at htrail
  have hmem : ∀ i j, (launchable twoStarts).jobs i = some j → i ∈ [0, 1] := by
    intro i j hj
    obtain ⟨e, he, -⟩ := Option.map_eq_some_iff.1 hj
    match i, he with
    | 0, _ | 1, _ => simp
  refine ⟨ms, s, htrail, htrail.inTurns_of_takeTurns hmem ⟨rfl, rfl⟩ hturns,
    of_decide_eq_true hdirect, fun hone => ?_⟩
  have hsettled := hone 9 17 0 1 (by decide) hfirst hsecond (by decide)
  rw [hopen] at hsettled
  cases hsettled

end Start

end MillGateway
