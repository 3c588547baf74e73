import MillGateway.Proofs.Command.Attempts
import MillGateway.Proofs.Command.Rejection
import MillGateway.Proofs.Crowd.Play
import MillGateway.Proofs.Poll.Glance
import MillGateway.Proofs.Poll.Order

/-! Actions and the controller's being alive. Main statement: however tasks take turns, nothing is
issued while the controller is marked down. -/

namespace MillGateway

open Crowd Job

namespace Restraint

/-- Whether a task has just found the controller alive, and whether it has given back the lock of the
cache since. -/
inductive Phase where
  | apart
  | seen
  | cleared
  deriving DecidableEq

inductive Turn : Protocol Phase
  | look {c} : Turn .apart (.inside .cache) c (if Cache.alive c then .seen else .apart)
  | give {a} : Turn .seen (.release .cache) a .cleared
  | issue {a x} : Turn .cleared (.outside (.link (.issue a))) x .apart
  | other {ph r a} (hr : r.isIssue = false) (hph : ph ≠ .seen) : Turn ph r a .apart

def Ends (ph : Phase) (_ : α) : Prop :=
  ph ≠ .seen

/-! ### Whatever the gateway does -/

theorem spares : Turn.Spares (· ≠ .seen) fun r => r.isIssue = false :=
  fun _ _ _ hph hr => ⟨.apart, .other hr hph, nofun⟩

theorem keeps_isAlive {ph : Phase} (hph : ph ≠ .seen) :
    isAlive.Keeps Turn (fun ph alive => ph = if alive then .cleared else .apart) ph := by
  refine fun _ => ⟨_, .other rfl hph, fun c => ⟨_, .look, fun _ => ?_⟩⟩
  have halive : ∀ alive : Bool, ∃ ph',
      Turn (if alive then .seen else .apart) (.release .cache) () ph' ∧
        ph' = if alive then .cleared else .apart := by
    intro alive
    cases alive with
    | false => exact ⟨_, .other rfl nofun, rfl⟩
    | true => exact ⟨_, .give, rfl⟩
  exact halive (Cache.alive c)

theorem returns_execute (a : Link.Action) (limit : Nat) :
    (execute a limit).Returns Turn (· ≠ .seen) := by
  intro ph hph
  refine (keeps_isAlive hph).bind ?_
  rintro _ alive rfl
  cases alive with
  | false => exact Phase.noConfusion
  | true =>
    refine fun x => ⟨.apart, .issue, ?_⟩
    cases x with
    | error e => exact Phase.noConfusion
    | ok h =>
      by_cases hlimit : limit = 0
      · simp only [hlimit]
        exact fun _ => ⟨.apart, .other rfl nofun, nofun⟩
      · simp only [hlimit]
        exact fun _ => ⟨.apart, .other rfl nofun, nofun⟩

theorem isIssue_of_ordinary_or_polling {r : Request}
    (hr : r.isOrdinary = true ∨ r.isPolling = true) : r.isIssue = false := by
  rcases hr with hr | hr
  · exact Request.not_isIssue_of_isOrdinary hr
  · exact Request.not_isIssue_of_isPolling hr

theorem partsReturn : PartsReturn Turn (· ≠ .seen) fun _ => True := by
  refine partsReturn_of_ordinary (spares.mono fun _ => Request.not_isIssue_of_isOrdinary)
    (spares.returns (asks_pollStatus.mono fun _ => isIssue_of_ordinary_or_polling))
    (fun _ => returns_execute _) (spares.mono ?_)
  rintro _ ⟨c, hc, -, rfl⟩
  cases c <;> first | rfl | cases hc

theorem not_isIssue_of_isReading {r : Request} (hr : r.isReading = true) : r.isIssue = false := by
  cases r with
  | outside o =>
    cases o with
    | link c => cases c <;> first | rfl | cases hr
    | _ => cases hr
  | _ => rfl

theorem keeps_answer (e : Poll.Errand) : e.answer.Keeps Turn Ends .apart := by
  refine Poll.Errand.returns_of_parts partsReturn (fun _ => ?_) _ nofun
  refine spares.returns (asks_pollErrors.mono ?_)
  rintro r (hr | hr)
  · exact Request.not_isIssue_of_isOrdinary hr
  · exact not_isIssue_of_isReading hr

/-! ### Between the look and the call -/

section

variable [DecidableEq ω] {R : Rules α σ χ ω ε} {s₀ s s' : Crowd α σ ω ε} {e : Crowd.Event χ}
  {ms : List (Move α σ χ ω ε)} {ph ph' : TaskId → Phase} {i : TaskId}

/-- Whether the controller is alive for all who have just found it so. Who has given back the lock
since, and is about to call on the controller, is the one that has just come on. -/
structure Calm (ms : List (Move α σ χ ω ε)) (s : Crowd α σ ω ε) (ph : TaskId → Phase) : Prop where
  seen : ∀ i j, s.jobAt i = some j → ph i = .seen → s.gateway.cache.alive = true
  cleared : ∀ i p, s.tasks i = some p → p.calls = true → ph i = .cleared →
    s.gateway.cache.alive = true ∧ ∃ x, ms.getLast? = some x ∧ x.caller? = some i

theorem unbroken : Unbroken Turn (Ends (α := α)) (· = .seen) where
  prompt := by
    intro ph r a ph' h hin
    cases h with
    | look | issue => cases hin
    | give => rfl
    | other _ hph => exact absurd hin hph
  post := fun h => h

theorem cache_of_other (h : Step R s e s')
    (he : ∀ i x, e.answered? = some (i, x) → x.1.isPolling = false) :
    s'.gateway.cache = s.gateway.cache := by
  rcases Poll.cache_of_step h with ⟨i, st, rfl, -⟩ | ⟨i, rfl, -⟩ | ⟨hcache, -⟩
  · cases he i _ rfl
  · cases he i _ rfl
  · exact hcache

theorem phase_of_unmoved (hadv : Advances Turn e ph ph') (he : e.mover? ≠ some i) :
    ph' i = ph i := by
  cases hanswered : e.answered? with
  | none => rw [hadv.unanswered hanswered]
  | some x =>
    obtain ⟨i', r, a⟩ := x
    obtain ⟨q, -, rfl⟩ := hadv.answered hanswered
    refine Function.update_of_ne (fun hi => he ?_) _ _
    rw [hi]
    exact Event.mover?_of_answered hanswered

theorem Calm.seen_step (h : Calm ms s ph) (hfollows : Follows Turn Ends (fun _ => .apart) s ph)
    (hstep : Step R s e s') (hadv : Advances Turn e ph ph') (hkeeping : Keeping s e) {j : Job α}
    (hj : s'.jobAt i = some j) (hi : ph' i = .seen) : s'.gateway.cache.alive = true := by
  cases he : e.answered? with
  | none =>
    have hcache := cache_of_other hstep fun i x hx => by rw [he] at hx; cases hx
    rw [hadv.unanswered he] at hi
    rw [hcache]
    rcases hstep.jobAt_before he hj with hj | ⟨hnew, -⟩
    · exact h.seen i j hj hi
    · rw [hfollows.start i hnew] at hi
      cases hi
  | some x =>
    obtain ⟨i', r, a⟩ := x
    obtain ⟨k, hk, hput⟩ := hstep.of_answered he
    obtain ⟨q, hq, rfl⟩ := hadv.answered he
    by_cases hne : i = i'
    · subst hne
      rw [Function.update_self] at hi
      generalize ph i = p at hq
      cases hq with
      | @look c =>
        have hlooked : e = .looked i .cache c := by cases e <;> cases he; rfl
        subst hlooked
        have hcache := cache_of_other hstep fun i x hx => by cases hx; rfl
        have hc := hstep.eq_of_looked_cache
        rw [hcache, ← hc]
        cases halive : Cache.alive c with
        | true => rfl
        | false => simp [halive] at hi
      | give | issue | other => cases hi
    -- who has just found the controller alive comes on before anybody else
    · rw [Function.update_of_ne hne] at hi
      rw [hput, Function.update_of_ne hne] at hj
      obtain ⟨p, hp, hyields⟩ := unbroken.within hfollows ⟨⟨j, hj⟩, hi⟩
      have hmover := hkeeping i p hp hyields
      rw [Event.mover?_of_answered he] at hmover
      exact absurd (Option.some.inj hmover).symm hne

theorem calls_of_unanswered (h : Step R s e s') (he : e.answered? = none)
    (hmover : e.mover? = some i) {p : Place α} (hp : s'.tasks i = some p) : p.calls = false := by
  cases h with
  | started | dropped | befell => cases hmover
  | took | woke | gave | looked | heard => cases he
  | queued | asked =>
    cases hmover
    simp only [put, Function.update_self] at hp
    cases hp
    rfl

theorem Calm.cleared_step (h : Calm ms s ph) (hfollows : Follows Turn Ends (fun _ => .apart) s ph)
    (hstep : Step R s e s') (hadv : Advances Turn e ph ph')
    (hdirect : Direct (ms ++ [⟨s, e, s'⟩])) {p : Place α} (hp : s'.tasks i = some p)
    (hcalls : p.calls = true) (hi : ph' i = .cleared) :
    s'.gateway.cache.alive = true ∧ e.mover? = some i := by
  by_cases hmover : e.mover? = some i
  · refine ⟨?_, hmover⟩
    cases he : e.answered? with
    | none =>
      rw [calls_of_unanswered hstep he hmover hp] at hcalls
      cases hcalls
    | some x =>
      obtain ⟨i', r, a⟩ := x
      obtain ⟨k, hk, -⟩ := hstep.of_answered he
      obtain ⟨q, hq, rfl⟩ := hadv.answered he
      have hsame : i' = i :=
        Option.some.inj ((Event.mover?_of_answered he).symm.trans hmover)
      subst hsame
      rw [Function.update_self] at hi
      generalize hph : ph i' = p' at hq
      cases hq with
      | @look c =>
        cases halive : Cache.alive c <;> simp [halive] at hi
      | give =>
        have hcache := cache_of_other hstep fun i x hx => by
          rw [he] at hx
          cases hx
          rfl
        rw [hcache]
        exact h.seen i' _ hk hph
      | issue | other => cases hi
  · rw [phase_of_unmoved hadv hmover] at hi
    rcases hstep.unmoved hmover with hsame | ⟨hnew, -⟩ | hdropped
    · rw [hsame] at hp
      obtain ⟨-, x, hx, hcaller⟩ := h.cleared i p hp hcalls hi
      exact absurd ((direct_snoc_iff.1 hdirect).2 x i hx hcaller) hmover
    · rw [hfollows.start i hnew] at hi
      cases hi
    · rw [hdropped] at hp
      cases hp
      cases hcalls

theorem Calm.step (h : Calm ms s ph) (hfollows : Follows Turn Ends (fun _ => .apart) s ph)
    (hstep : Step R s e s') (hadv : Advances Turn e ph ph') (hkeeping : Keeping s e)
    (hdirect : Direct (ms ++ [⟨s, e, s'⟩])) : Calm (ms ++ [⟨s, e, s'⟩]) s' ph' where
  seen _ _ hj hi := h.seen_step hfollows hstep hadv hkeeping hj hi
  cleared i p hp hcalls hi := by
    obtain ⟨halive, hmover⟩ := h.cleared_step hfollows hstep hadv hdirect hp hcalls hi
    exact ⟨halive, _, List.getLast?_concat, Move.caller?_eq_some.2 ⟨hmover, p, hp, hcalls⟩⟩

theorem calm_of_trail (hjobs : ∀ i j, R.jobs i = some j → j.Keeps Turn Ends .apart)
    (hs₀ : s₀.Fresh) (h : Trail R s₀ ms s) (hturns : InTurns ms) (hdirect : Direct ms) :
    ∃ ph, Follows Turn Ends (fun _ => .apart) s ph ∧ Calm ms s ph := by
  induction h with
  | nil =>
    refine ⟨fun _ => .apart, hs₀.follows, fun i j hj => ?_, fun i p hp => ?_⟩
    · rw [hs₀.jobAt] at hj
      cases hj
    · rw [hs₀.tasks] at hp
      cases hp
  | snoc h hstep ih =>
    obtain ⟨hbefore, hkeeping⟩ := inTurns_snoc_iff.1 hturns
    obtain ⟨ph, hfollows, hcalm⟩ := ih hbefore hdirect.of_append
    obtain ⟨ph', hadv, hfollows'⟩ := hfollows.step hjobs hstep
    exact ⟨ph', hfollows', hcalm.step hfollows hstep hadv hkeeping hdirect⟩

theorem alive_of_issued (hjobs : ∀ i j, R.jobs i = some j → j.Keeps Turn Ends .apart)
    (hs₀ : s₀.Fresh) {x : Move α σ χ ω ε} {ms' : List (Move α σ χ ω ε)}
    (h : Trail R s₀ (ms ++ x :: ms') s) (hturns : InTurns (ms ++ x :: ms'))
    (hdirect : Direct (ms ++ x :: ms')) {a : Link.Action}
    (hx : x.event = .asked i (.link (.issue a))) : x.before.gateway.cache.alive = true := by
  obtain ⟨hbefore, hstep, -⟩ := h.at_move
  obtain ⟨ph, hfollows, hcalm⟩ :=
    calm_of_trail hjobs hs₀ hbefore (inTurns_append_iff.1 hturns).1 hdirect.of_append
  rw [hx] at hstep
  obtain ⟨k, hi⟩ := hstep.task_of_asked
  obtain ⟨ph', hturn, -⟩ := hfollows.keeps i _ (jobAt_of_task hi) (.error .channelClosed)
  have hcleared : ph i = .cleared := by
    generalize ph i = p at hturn
    cases hturn with
    | issue => rfl
    | other hr => cases hr
  exact (hcalm.cleared i _ hi rfl hcleared).1

/-! ### From a failed poll to the next that succeeds -/

theorem exists_store (h : Trail R s₀ ms s) (hdown : s₀.gateway.cache.alive = false)
    (halive : s.gateway.cache.alive = true) :
    ∃ ms₁ x ms₂ i st b, ms = ms₁ ++ x :: ms₂ ∧ x.event = .looked i (.store st) b := by
  induction h with
  | nil =>
    rw [hdown] at halive
    cases halive
  | @snoc ms s e s' h hstep ih =>
    rcases Poll.cache_of_step hstep with ⟨i, st, he, -⟩ | ⟨i, -, hcache⟩ | ⟨hcache, -⟩
    · exact ⟨ms, _, [], i, st, _, rfl, he⟩
    · rw [hcache] at halive
      cases halive
    · rw [hcache] at halive
      obtain ⟨ms₁, x, ms₂, i, st, b, rfl, hx⟩ := ih halive
      exact ⟨ms₁, x, ms₂ ++ [⟨s, e, s'⟩], i, st, b, by simp, hx⟩

theorem down_of_markDown {b : Bool} (h : Step R s (.looked i .markDown b) s') :
    s'.gateway.cache.alive = false := by
  cases h with
  | looked => rfl

def Answered (ms : List (Move α σ χ ω ε)) : Prop :=
  ∃ i st, [.read i (some st), .entered i (some st)] <:+: Poll.log (events ms)

omit [DecidableEq ω] in
theorem log_append (es es' : List (Crowd.Event χ)) :
    Poll.log (es ++ es') = Poll.log es ++ Poll.log es' :=
  List.filterMap_append

theorem read_after_entered {m m' : List Poll.Mark} {i i' : TaskId} {o o' : Option Machine.Status}
    (h : Poll.Orderly (m ++ .entered i o :: m' ++ [.entered i' o'])) :
    ∃ m'', m' = m'' ++ [.read i' o'] := by
  rcases h.snoc_cases with ⟨_, _, hx, -⟩ | ⟨i', o', l, hx, hm, -⟩ | ⟨_, _, _, hx, -⟩
  · cases hx
  · cases hx
    rcases List.eq_nil_or_concat m' with rfl | ⟨m'', y, rfl⟩
    · obtain ⟨-, hlast⟩ := List.append_inj' hm rfl
      cases hlast
    · rw [List.concat_eq_append, ← List.cons_append, ← List.append_assoc] at hm
      obtain ⟨-, hy⟩ := List.append_inj' hm rfl
      rw [List.concat_eq_append, hy]
      exact ⟨m'', rfl⟩
  · cases hx

theorem down_after_failure (hjobs : ∀ i j, R.jobs i = some j → j.Keeps Poll.Turn Poll.Ends .idle)
    (hs₀ : s₀.Fresh) {x y : Move α σ χ ω ε} {ms₁ ms₂ ms₃ : List (Move α σ χ ω ε)} {b : Bool}
    (h : Trail R s₀ (ms₁ ++ x :: ms₂ ++ y :: ms₃) s) (hx : x.event = .looked i .markDown b)
    (hnone : ¬ Answered ms₂) : y.before.gateway.cache.alive = false := by
  have hbefore := h.at_move.1
  obtain ⟨-, hstep, hafter⟩ := hbefore.at_move
  have hdown : x.after.gateway.cache.alive = false := by
    rw [hx] at hstep
    exact down_of_markDown hstep
  cases halive : y.before.gateway.cache.alive with
  | false => rfl
  | true =>
    -- the poll that entered a status in between has read it there
    obtain ⟨ms₄, z, ms₅, i', st, b', rfl, hz⟩ := exists_store hafter hdown halive
    have hsplit : ms₁ ++ x :: (ms₄ ++ z :: ms₅) = ms₁ ++ x :: ms₄ ++ [z] ++ ms₅ := by simp
    rw [hsplit] at hbefore
    obtain ⟨s₁, hstored, -⟩ := hbefore.split
    obtain ⟨ph, hpolled⟩ := Poll.polled_of_run hjobs hs₀ hstored.run
    have hlog : Poll.log (events (ms₁ ++ x :: ms₄ ++ [z])) =
        Poll.log (events ms₁) ++ .entered i none :: Poll.log (events ms₄) ++
          [.entered i' (some st)] := by
      rw [events_append, events_append, log_append, log_append]
      simp [events, Poll.log, hx, hz, Poll.mark?]
    have horderly := hpolled.orderly
    rw [hlog] at horderly
    obtain ⟨m, hm⟩ := read_after_entered horderly
    refine absurd ⟨i', st, m, Poll.log (events ms₅), ?_⟩ hnone
    rw [events_append, log_append, hm]
    simp [events, Poll.log, hz, Poll.mark?]

/-! ### What a task has seen -/

def look? (i : TaskId) (x : Move α σ χ ω ε) : Option Bool :=
  match x.event with
  | .looked i' .cache _ => if i' = i then some x.before.gateway.cache.alive else none
  | _ => none

def looks (i : TaskId) (ms : List (Move α σ χ ω ε)) : List Bool :=
  ms.filterMap (look? i)

theorem look?_eq (h : Step R s e s') (i : TaskId) :
    look? i ⟨s, e, s'⟩ = (e.exchange? i).bind Exchange.look? := by
  cases e with
  | looked i' x a =>
    by_cases hi : i' = i
    · subst hi
      cases x with
      | cache =>
        have hc := h.eq_of_looked_cache
        simp [look?, Event.exchange?, Event.answered?, Exchange.look?, hc]
      | _ => simp [look?, Event.exchange?, Event.answered?, Exchange.look?]
    · cases x <;> simp [look?, Event.exchange?, Event.answered?, hi]
  | took i' | gave i' | heard i' =>
    by_cases hi : i' = i <;> simp [look?, Event.exchange?, Event.answered?, Exchange.look?, hi]
  | _ => rfl

theorem looks_eq (h : Trail R s₀ ms s) (i : TaskId) :
    looks i ms = Exchange.looks (exchanges i (events ms)) := by
  induction h with
  | nil => rfl
  | snoc h hstep ih =>
    rw [events_snoc, exchanges_append, looks, filterMap_snoc, look?_eq hstep]
    change looks i _ ++ _ = _
    rw [ih, Exchange.looks, Exchange.looks, List.filterMap_append]
    congr 1
    cases hx : Event.exchange? i _ with
    | none => simp [exchanges, hx]
    | some x => cases hlook : Exchange.look? x <;> simp [exchanges, hx, hlook]

end

/-! ### Whole runs -/

open Poll (Errand)

section

variable [DecidableEq ω] {R : Rules Errand.Result σ χ ω ε} {errands : TaskId → Option Errand}
  {s₀ s : Crowd Errand.Result σ ω ε} {ms ms' : List (Move Errand.Result σ χ ω ε)} {i : TaskId}
  {setup : Setup} {name : String} {args : Json}

theorem attempts_of_trail (hjobs : ∀ i, R.jobs i = (errands i).map Errand.answer) (hs₀ : s₀.Fresh)
    (h : Trail R s₀ ms s) (hi : errands i = some (.command setup name args)) {o : Order}
    (ho : orderOf? name args = some o) {r : Reply}
    (hdone : s.tasks i = some (.ready (.done (.reply r)))) :
    (r = .of .notRunning ∧ looks i ms = [false] ∧ issues i (events ms) = []) ∨
    ∃ as, o.Attempts setup as r ∧
      issues i (events ms) = (as.filter Attempt.alive).map Attempt.action ∧
      (as ≠ [] → looks i ms = true :: as.map Attempt.alive) ∧
      ∀ x ∈ as, x.outcome = .notRunning ↔ x.alive = false := by
  have hj : R.jobs i = some (Errand.command setup name args).answer := by rw [hjobs, hi]; rfl
  have hstands := h.run.stands hj (congrFun hs₀.tasks i)
  have hreach := hstands.reaches (jobAt_of_task hdone)
  have hasked := hstands.eq_outsides_of_ready hdone
  obtain ⟨t₁, r', t₂, ht, hcommand, hreply⟩ := Reaches.bind_cases hreach
  obtain ⟨rfl, hr⟩ := hreply.done_cases
  cases hr
  rw [List.append_nil] at ht
  rw [issues, hasked, looks_eq h, ht]
  exact attempts_handleCommand ho hcommand

theorem exists_first_look (setup : Setup) (args : Json) {c : Command}
    (hc : Command.ofName? name = some c) (hlink : c.requiresLink = true) :
    ∃ k, (Errand.command setup name args).answer =
        .ask (.acquire .cache) (fun _ => .ask (.inside .cache) k) ∧
      ∀ cache, Cache.alive cache = false →
        k cache = .ask (.release .cache) fun _ => .done (.reply (.of .notRunning)) := by
  have hanswer : (Errand.command setup name args).answer = (isAlive.bind fun alive =>
      if alive then Handle.carryOut setup c args else .done (.of .notRunning)).bind
        fun r => .done (.reply r) := by
    change (handleCommand setup name args).bind _ = _
    rw [handleCommand_of_name hc, if_pos hlink]
    rfl
  rw [hanswer]
  refine ⟨_, rfl, fun cache hcache => ?_⟩
  change (Job.ask (.release .cache) fun _ => Job.bind (Job.bind (Job.done (Cache.alive cache)) _) _) = _
  rw [hcache]
  rfl

theorem refused_of_down (hjobs : ∀ i, R.jobs i = (errands i).map Errand.answer) (hs₀ : s₀.Fresh)
    {x : Move Errand.Result σ χ ω ε} (h : Trail R s₀ (ms ++ x :: ms') s)
    (hturns : InTurns (ms ++ x :: ms')) (hi : errands i = some (.command setup name args))
    {c : Command} (hc : Command.ofName? name = some c) (hlink : c.requiresLink = true)
    (hx : x.event.mover? = some i) (hfirst : ∀ y ∈ ms, y.event.mover? ≠ some i)
    (hdown : x.before.gateway.cache.alive = false) :
    asked i (events (ms ++ x :: ms')) = [] ∧
      ∀ res, s.jobAt i = some (.done res) → res = .reply (.of .notRunning) := by
  obtain ⟨k, hk, hrefused⟩ := exists_first_look setup args hc hlink
  have hj : R.jobs i = some (.ask (.acquire .cache) fun _ => .ask (.inside .cache) k) := by
    rw [hjobs, hi, Option.map_some, hk]
  -- as long as every look finds the controller down, the command does nothing but look
  have hconf : (Job.ask (.acquire .cache) fun _ => .ask (.inside .cache) k).Confined
      (·.isLook = true) (Sees True) (· = .reply (.of .notRunning)) := by
    refine ⟨rfl, fun _ _ => ⟨rfl, fun cache hcache => ?_⟩⟩
    rw [hrefused cache (hcache cache rfl trivial)]
    exact ⟨rfl, fun _ _ => rfl⟩
  suffices hlooks : ∀ y ∈ exchanges i (events (ms ++ x :: ms')), Sees True y from
    (h.of_confined hj hs₀ hconf hlooks).2
  obtain ⟨j, hreach, -⟩ := (h.run.stands hj (congrFun hs₀.tasks i)).exists_reaches
  rcases Glance.exchanges_of_first (Poll.exists_errand hjobs) hs₀ h hturns hj hx hfirst with
    hone | ⟨t, ht⟩
  · rw [hone]
    intro y hy cache hcache
    rw [List.mem_singleton.1 hy] at hcache
    cases hcache
  · rw [ht] at hreach ⊢
    obtain ⟨_, hfirst, hsecond⟩ := hreach.cons_cases
    obtain ⟨cache, hcache, hthird⟩ := hsecond.cons_cases
    cases hcache
    rw [hrefused _ hdown] at hthird
    have hquiet : Job.Asks (α := Errand.Result) (fun r => r ≠ .inside .cache)
        (.ask (.release .cache) fun _ => .done (.reply (.of .notRunning))) :=
      ⟨nofun, fun _ => trivial⟩
    have hrest := (hthird.asks hquiet).2
    intro y hy cache hcache _
    subst hcache
    rcases List.mem_cons.1 hy with hy | hy
    · cases hy
    · rcases List.mem_cons.1 hy with hy | hy
      · cases hy
        exact hdown
      · exact absurd rfl (hrest _ hy)

/-- However commands and polls take turns, and however the controller answers: whatever is issued to
it is issued while the cache tells that it is alive. From a failed poll on, nothing is issued until a
later poll has succeeded. A command that has come to its reply has attempted what its order attempts,
each attempt after a look at the cache, has issued those that found the controller alive, and the
others were answered to be for a controller that is not running. A command that needs the controller
and has its first turn while it is down asks nobody for anything. -/
theorem issued_only_while_alive (hjobs : ∀ i, R.jobs i = (errands i).map Errand.answer)
    (hs₀ : s₀.Fresh) (h : Trail R s₀ ms s) (hturns : InTurns ms) (hdirect : Direct ms) :
    (∀ x ∈ ms, ∀ i a, x.event = .asked i (.link (.issue a)) →
      x.before.gateway.cache.alive = true) ∧
    (∀ ms₁ x ms₂ y ms₃ i b, ms = ms₁ ++ x :: ms₂ ++ y :: ms₃ → x.event = .looked i .markDown b →
      ¬ Answered ms₂ →
      y.before.gateway.cache.alive = false ∧ ∀ i' a, y.event ≠ .asked i' (.link (.issue a))) ∧
    (∀ i setup name args o r, errands i = some (.command setup name args) →
      orderOf? name args = some o → s.tasks i = some (.ready (.done (.reply r))) →
      (r = .of .notRunning ∧ looks i ms = [false] ∧ issues i (events ms) = []) ∨
      ∃ as, o.Attempts setup as r ∧
        issues i (events ms) = (as.filter Attempt.alive).map Attempt.action ∧
        (as ≠ [] → looks i ms = true :: as.map Attempt.alive) ∧
        ∀ x ∈ as, x.outcome = .notRunning ↔ x.alive = false) ∧
    ∀ ms₁ x ms₂ i setup name args c, ms = ms₁ ++ x :: ms₂ →
      errands i = some (.command setup name args) → Command.ofName? name = some c →
      c.requiresLink = true → x.event.mover? = some i →
      (∀ y ∈ ms₁, y.event.mover? ≠ some i) → x.before.gateway.cache.alive = false →
      asked i (events ms) = [] ∧
        ∀ res, s.jobAt i = some (.done res) → res = .reply (.of .notRunning) := by
  have hkeeps : ∀ i j, R.jobs i = some j → j.Keeps Turn Ends .apart := by
    intro i j hj
    obtain ⟨e, rfl⟩ := Poll.exists_errand hjobs i j hj
    exact keeps_answer e
  have hissued : ∀ x ∈ ms, ∀ i a, x.event = .asked i (.link (.issue a)) →
      x.before.gateway.cache.alive = true := by
    intro x hx i a he
    obtain ⟨ms₁, ms₂, rfl⟩ := List.append_of_mem hx
    exact alive_of_issued hkeeps hs₀ h hturns hdirect he
  refine ⟨hissued, ?_, ?_, ?_⟩
  · rintro ms₁ x ms₂ y ms₃ i b rfl hx hnone
    have hpolls : ∀ i j, R.jobs i = some j → j.Keeps Poll.Turn Poll.Ends .idle := by
      intro i j hj
      obtain ⟨e, rfl⟩ := Poll.exists_errand hjobs i j hj
      exact Poll.keeps_answer e
    have hdown := down_after_failure hpolls hs₀ h hx hnone
    refine ⟨hdown, fun i' a hy => ?_⟩
    rw [hissued y (by simp) i' a hy] at hdown
    cases hdown
  · intro i setup name args o r hi ho hdone
    exact attempts_of_trail hjobs hs₀ h hi ho hdone
  · rintro ms₁ x ms₂ i setup name args c rfl hi hc hlink hx hfirst hdown
    exact refused_of_down hjobs hs₀ h hturns hi hc hlink hx hfirst hdown

end

def wavering (errands : TaskId → Option Errand) :
    Rules Errand.Result Unit (Except Link.Error Machine.Status) Empty Unit where
  jobs i := (errands i).map Errand.answer
  mayDrop _ := true
  observers := .nobody
  answer
    | .link .pollStatus, x, w => some (x, w)
    | .link (.issue _), _, w => some (.ok 1, w)
    | .waitWithin _ _, _, w => some (some (.ok .done), w)
    | _, _, _ => none
  befall _ _ := none

def twoClients (i : TaskId) : Option Errand :=
  [.pollStatus, .command default "run_gcode" .null, .pollStatus,
    .command default "pause_gcode" .null][i]?

/-- The second poll fails while the first client waits for the change of the task mode. -/
def downMidway : List (Choice (Except Link.Error Machine.Status)) :=
  [.start 0, .start 1, .start 2, .start 3] ++ List.replicate 8 (.go 0 (.ok default)) ++
    List.replicate 9 (.go 1 (.ok default)) ++ List.replicate 7 (.go 2 (.error .channelClosed)) ++
    List.replicate 3 (.go 3 (.ok default)) ++ List.replicate 4 (.go 1 (.ok default))

theorem issued_only_while_alive_down_midway :
    ∃ ms s, Trail (wavering twoClients) ModeChange.atRest ms s ∧
      (∃ x y : Attempt, issues 1 (events ms) = [x.action] ∧ x.action = .mode .auto ∧
        y.action = .auto (.run 0) ∧ y.outcome = .notRunning) ∧
      asked 3 (events ms) = [] := by
  have hcomputed : (trace? (wavering twoClients) downMidway ModeChange.atRest).map (fun x =>
      (takeTurns (List.range 4) x.1, decide (Direct x.1), looks 1 x.1)) =
        some (true, true, [true, true, false]) := by
    decide +kernel
  have hfirst : (trace? (wavering twoClients) downMidway ModeChange.atRest).map (fun x =>
      ((x.1.dropWhile fun y => y.event.mover? != some 3).head?).map fun y =>
        (y.event.mover?, y.before.gateway.cache.alive)) = some (some (some 3, false)) := by
    decide +kernel
  have hdone : (trace? (wavering twoClients) downMidway ModeChange.atRest).map (fun x =>
      x.2.tasks 1) = some (some (.ready (.done (.reply (.of .notRunning))))) := by
    rfl
  obtain ⟨⟨ms, s⟩, htrace, hcomputed⟩ := Option.map_eq_some_iff.1 hcomputed
  rw [htrace] at hfirst hdone
  obtain ⟨hturns, hdirect, hlooks⟩ := by simpa only [Prod.mk.injEq] using hcomputed
  have htrail := trail_of_trace? .nil htrace
  rw [List.nil_append] at htrail
  have hfresh : (ModeChange.atRest).Fresh := ⟨rfl, rfl⟩
  have hmem : ∀ i j, (wavering twoClients).jobs i = some j → i ∈ List.range 4 := by
    intro i j hj
    obtain ⟨e, he, -⟩ := Option.map_eq_some_iff.1 hj
    exact List.mem_range.2 (List.getElem?_eq_some_iff.1 he).1
  obtain ⟨-, -, hreplies, hrefused⟩ := issued_only_while_alive (fun _ => rfl) hfresh htrail
    (htrail.inTurns_of_takeTurns hmem hfresh hturns) (of_decide_eq_true hdirect)
  refine ⟨ms, s, htrail, ?_, ?_⟩
  · rcases hreplies 1 default "run_gcode" .null (.runGcode 0) (.of .notRunning) rfl rfl
      (Option.some.inj hdone) with ⟨-, hnone, -⟩ | ⟨as, ⟨hactions, -⟩, hissues, hseen, hskipped⟩
    · rw [hlooks] at hnone
      cases hnone
    · obtain ⟨x, as, rfl, hx, hrest⟩ := List.map_eq_cons_iff.1 hactions
      obtain ⟨y, as, rfl, hy, hnil⟩ := List.map_eq_cons_iff.1 hrest
      obtain rfl := List.map_eq_nil_iff.1 hnil
      obtain ⟨halive, hdown⟩ : x.alive = true ∧ y.alive = false := by
        have hseen := hseen nofun
        rw [hlooks] at hseen
        injection hseen with _ hseen
        injection hseen with hx hseen
        injection hseen with hy
        exact ⟨hx.symm, hy.symm⟩
      refine ⟨x, y, ?_, hx, hy, (hskipped y (by simp)).2 hdown⟩
      rw [hissues, List.filter_cons_of_pos halive, List.filter_cons_of_neg (by simp [hdown]),
        List.filter_nil]
      rfl
  · obtain ⟨x, hx, hdown⟩ := Option.map_eq_some_iff.1 (Option.some.inj hfirst)
    obtain ⟨hmover, halive⟩ := Prod.mk.inj hdown
    obtain ⟨ms₂, hms₂⟩ := List.head?_eq_some_iff.1 hx
    refine (hrefused (ms.takeWhile fun y => y.event.mover? != some 3) x ms₂ 3 default
      "pause_gcode" .null .pauseGcode ?_ rfl rfl rfl hmover ?_ halive).1
    · rw [← hms₂, List.takeWhile_append_dropWhile]
    · intro y hy
      simpa using List.mem_takeWhile_imp hy

end Restraint

end MillGateway
