import MillGateway.Proofs.Command.Mode

/-! What commands attempt. An action is attempted after a look at the cache, and skipped if the
controller is down. Main statement: every order attempts the actions of its kind in turn, and replies
what came of one of them, whether they were issued or skipped. -/

namespace MillGateway

open Machine

namespace Exchange

def look? : Exchange → Option Bool
  | ⟨.inside .cache, c⟩ => some (Cache.alive c)
  | _ => none

def looks (t : List Exchange) : List Bool :=
  t.filterMap look?

end Exchange

structure Attempt where
  action : Link.Action
  alive : Bool
  outcome : Outcome

namespace Attempt

/-- Whether exchanges are those of these attempts: one look for each, those that found the controller
alive issued, and the others, and no others, answered to be for a controller that is not running. -/
structure Traced (t : List Exchange) (as : List Attempt) : Prop where
  looks : Exchange.looks t = as.map Attempt.alive
  issued : issued (Exchange.outsides t) = (as.filter Attempt.alive).map Attempt.action
  skipped : ∀ x ∈ as, x.outcome = .notRunning ↔ x.alive = false

theorem Traced.append {t t' : List Exchange} {as as' : List Attempt} (h : Traced t as)
    (h' : Traced t' as') : Traced (t ++ t') (as ++ as') where
  looks := by
    have hlooks : Exchange.looks (t ++ t') = Exchange.looks t ++ Exchange.looks t' :=
      List.filterMap_append
    rw [hlooks, h.looks, h'.looks, List.map_append]
  issued := by
    have hissued : MillGateway.issued (Exchange.outsides (t ++ t')) =
        MillGateway.issued (Exchange.outsides t) ++ MillGateway.issued (Exchange.outsides t') := by
      simp only [MillGateway.issued, Exchange.outsides, List.filterMap_append]
    rw [hissued, h.issued, h'.issued, List.filter_append, List.map_append]
  skipped := by
    intro x hx
    rcases List.mem_append.1 hx with hx | hx
    · exact h.skipped x hx
    · exact h'.skipped x hx

theorem traced_nil : Traced [] [] :=
  ⟨rfl, rfl, List.forall_mem_nil _⟩

end Attempt

namespace Request

def isSilent (r : Request) : Bool :=
  !r.isIssue && match r with
    | .inside .cache => false
    | _ => true

theorem look?_of_isSilent {r : Request} (hr : r.isSilent = true) (a : r.Answer) :
    Exchange.look? ⟨r, a⟩ = none := by
  cases r with
  | inside x => cases x <;> first | rfl | cases hr
  | _ => rfl

theorem not_isIssue_of_isSilent {r : Request} (hr : r.isSilent = true) : r.isIssue = false := by
  simpa using (Bool.and_eq_true_iff.1 hr).1

theorem not_isIssue_of_isOrdinary {r : Request} (hr : r.isOrdinary = true) :
    r.isIssue = false :=
  (isOrdinary_iff.1 hr).2.2.1

theorem not_isIssue_of_isPolling {r : Request} (hr : r.isPolling = true) : r.isIssue = false := by
  cases r with
  | outside o =>
    cases o with
    | link c => cases c <;> first | rfl | cases hr
    | _ => cases hr
  | _ => rfl

theorem issue?_of_not_isIssue {r : Request} (hr : r.isIssue = false) (a : r.Answer) :
    (Exchange.outside? ⟨r, a⟩).bind Outside.issue? = none := by
  cases r with
  | outside o =>
    cases o with
    | link c => cases c <;> first | rfl | cases hr
    | _ => rfl
  | _ => rfl

end Request

namespace Job

open Attempt

def Attempts (P : List Attempt → α → Prop) (j : Job α) : Prop :=
  ∀ t a, j.Reaches t (.done a) → ∃ as, P as a ∧ Traced t as

section

variable {j : Job α} {P Q : List Attempt → α → Prop}

theorem Attempts.mono (hj : j.Attempts P) (h : ∀ as a, P as a → Q as a) : j.Attempts Q := by
  intro t a ht
  obtain ⟨as, hP, htraced⟩ := hj t a ht
  exact ⟨as, h as a hP, htraced⟩

theorem attempts_done {a : α} (h : P [] a) : (Job.done a).Attempts P := by
  intro t b ht
  obtain ⟨rfl, hb⟩ := ht.done_cases
  cases hb
  exact ⟨[], h, traced_nil⟩

theorem Attempts.bind {k : α → Job β} {R : List Attempt → β → Prop} (hj : j.Attempts P)
    (hk : ∀ as a, P as a → (k a).Attempts fun as' b => R (as ++ as') b) :
    (j.bind k).Attempts R := by
  intro t b ht
  obtain ⟨t₁, a, t₂, rfl, hfirst, hrest⟩ := ht.bind_cases
  obtain ⟨as, hP, htraced⟩ := hj t₁ a hfirst
  obtain ⟨as', hR, htraced'⟩ := hk as a hP t₂ b hrest
  exact ⟨as ++ as', hR, htraced.append htraced'⟩

theorem attempts_of_asks (hj : j.Asks fun r => r.isSilent = true) :
    j.Attempts fun as _ => as = [] := by
  intro t a ht
  have hsilent := (ht.asks hj).2
  have hlooks : Exchange.looks t = [] :=
    List.filterMap_eq_nil_iff.2 fun x hx => Request.look?_of_isSilent (hsilent x hx) x.2
  have hissued : issued (Exchange.outsides t) = [] := by
    rw [issued, Exchange.outsides, List.filterMap_filterMap]
    exact List.filterMap_eq_nil_iff.2 fun x hx =>
      Request.issue?_of_not_isIssue (Request.not_isIssue_of_isSilent (hsilent x hx)) x.2
  exact ⟨[], rfl, hlooks, hissued, List.forall_mem_nil _⟩

end

theorem reaches_isAlive {t : List Exchange} {alive : Bool} (h : isAlive.Reaches t (.done alive)) :
    ∃ c : Cache, c.alive = alive ∧
      t = [⟨.acquire .cache, ()⟩, ⟨.inside .cache, c⟩, ⟨.release .cache, ()⟩] := by
  obtain ⟨_, t, rfl, hlook⟩ := h.ask_cases
  obtain ⟨c, t, rfl, hgive⟩ := hlook.ask_cases
  obtain ⟨_, t, rfl, hend⟩ := hgive.ask_cases
  obtain ⟨rfl, hdone⟩ := hend.done_cases
  cases hdone
  exact ⟨c, rfl, rfl⟩

theorem immediateOutcome_ne (x : Except Link.Error Link.Completion) :
    immediateOutcome x ≠ .notRunning := by
  unfold immediateOutcome
  split <;> nofun

theorem awaitedOutcome_ne (x? : Option (Except Link.Error Link.Completion)) :
    awaitedOutcome x? ≠ .notRunning := by
  unfold awaitedOutcome
  split <;> nofun

theorem attempts_execute (a : Link.Action) (limit : Nat) :
    (execute a limit).Attempts fun as o => ∃ alive, as = [⟨a, alive, o⟩] := by
  intro t o ht
  obtain ⟨t₁, alive, t₂, rfl, hlook, hrest⟩ := Reaches.bind_cases (j := isAlive) ht
  obtain ⟨c, rfl, rfl⟩ := reaches_isAlive hlook
  refine ⟨[⟨a, c.alive, o⟩], ⟨c.alive, rfl⟩, ?_⟩
  cases halive : c.alive with
  | false =>
    rw [halive] at hrest
    obtain ⟨rfl, ho⟩ := Reaches.done_cases hrest
    cases ho
    exact ⟨congrArg (fun alive => [alive]) halive, rfl, by simp⟩
  | true =>
    rw [halive] at hrest
    obtain ⟨x, t, rfl, hawait⟩ := Reaches.ask_cases hrest
    -- whatever the controller makes of it, the outcome tells that it was asked
    have hissued : o ≠ .notRunning ∧ Exchange.looks t = [] ∧
        issued (Exchange.outsides t) = [] := by
      cases x with
      | error e =>
        obtain ⟨rfl, ho⟩ := Reaches.done_cases hawait
        cases ho
        exact ⟨nofun, rfl, rfl⟩
      | ok h =>
        by_cases hlimit : limit = 0
        · simp only [hlimit] at hawait
          obtain ⟨x, t, rfl, hdone⟩ := Reaches.ask_cases hawait
          obtain ⟨rfl, ho⟩ := Reaches.done_cases hdone
          cases ho
          exact ⟨immediateOutcome_ne x, rfl, rfl⟩
        · simp only [hlimit] at hawait
          obtain ⟨x?, t, rfl, hdone⟩ := Reaches.ask_cases hawait
          obtain ⟨rfl, ho⟩ := Reaches.done_cases hdone
          cases ho
          exact ⟨awaitedOutcome_ne x?, rfl, rfl⟩
    obtain ⟨hne, hlooks, hissued⟩ := hissued
    refine ⟨?_, ?_, by simpa using hne⟩
    · change c.alive :: Exchange.looks t = [true]
      rw [halive, hlooks]
    · change a :: issued (Exchange.outsides t) = [a]
      rw [hissued]

theorem asks_silent_pollStatus : pollStatus.Asks fun r => r.isSilent = true :=
  asks_pollStatus_of ⟨rfl, rfl⟩ ⟨rfl, rfl⟩ rfl (fun _ => ⟨rfl, rfl⟩) rfl

end Job

/-! ### What orders attempt -/

namespace Attempt

def Script (actions : List Link.Action) (n : Nat) (as : List Attempt) (r : Reply) : Prop :=
  as.map Attempt.action = actions ∧ (as[n]?).map (fun x => Reply.of x.outcome) = some r

def Declined (as : List Attempt) (r : Reply) : Prop :=
  as = [] ∧ r.code < 0

def Homing : List UInt32 → List Attempt → Reply → Prop
  | [], as, r => as = [] ∧ r = .of .ok
  | axis :: axes, as, r => ∃ x rest, as = x :: rest ∧ x.action = .home axis ∧
      if x.outcome.isOk then Homing axes rest r else rest = [] ∧ r = .of x.outcome

end Attempt

open Attempt in
/-- Whether an order that is carried out may attempt this and come to this reply. -/
def Order.Attempts (s : Setup) (as : List Attempt) (r : Reply) : Order → Prop
  | .setState t => Script [.state t] 0 as r
  | .setTaskMode m => Declined as r ∨ Script [.mode m] 0 as r
  | .homeAxis axis => Script [.home axis] 0 as r
  | .homeAll => ∃ x rest, as = x :: rest ∧ x.action = .mode .manual ∧
      Homing (Handle.axisNumbers s.machine.axisCount) rest r
  | .moveAxisStop axis => Script [.jog (.stop axis)] 0 as r
  | .moveAxisContinuous axis v => Script [.mode .manual, .jog (.continuous axis v)] 1 as r
  | .moveAxisIncrement axis v d => Script [.mode .manual, .jog (.increment axis v d)] 1 as r
  | .loadGcode name _ => Declined as r ∨ Script [.resetInterpreter, .mode .auto,
      .programOpen (s.stagingDir.join ⟨name⟩), .mode .manual] 2 as r
  | .runGcode line => Script [.mode .auto, .auto (.run line)] 1 as r
  | .stepGcode => Declined as r ∨ Script [.auto .step] 0 as r ∨
      Script [.mode .auto, .auto .step, .auto .step, .auto .step] 3 as r
  | .pauseGcode => Script [.auto .pause] 0 as r
  | .resumeGcode => Script [.auto .resume] 0 as r
  | .stopGcode => Script [.abort] 0 as r
  | .resetInterpreter => Script [.resetInterpreter] 0 as r
  | .reloadToolTable => Script [.loadToolTable] 0 as r
  | .runMdi command => Declined as r ∨
      Script [.mdi (String.ofList (Text.trim command.toList))] 0 as r
  | .startCnc | .stopCnc | .currentState | .iniParams | .gcodeContent
  | .toolsData | .addTool _ | .deleteTools _ | .updateTools _ => as = []

namespace Handle

open Job Attempt

theorem attempts_act (a : Link.Action) (limit : Nat) :
    (act a limit).Attempts fun as r => ∃ x, as = [x] ∧ x.action = a ∧ r = .of x.outcome := by
  refine (attempts_execute a limit).bind ?_
  rintro _ o ⟨alive, rfl⟩
  exact attempts_done ⟨_, rfl, rfl, rfl⟩

theorem attempts_attempt (a : Link.Action) (limit : Nat) :
    (attempt a limit).Attempts fun as _ => ∃ x, as = [x] ∧ x.action = a := by
  refine (attempts_execute a limit).bind ?_
  rintro _ o ⟨alive, rfl⟩
  exact attempts_done ⟨_, rfl, rfl⟩

theorem script_act (a : Link.Action) (limit : Nat) :
    (act a limit).Attempts fun as r => Script [a] 0 as r := by
  refine (attempts_act a limit).mono ?_
  rintro _ r ⟨x, rfl, rfl, rfl⟩
  exact ⟨rfl, rfl⟩

theorem attempts_poll : pollStatus.Attempts fun as _ => as = [] :=
  attempts_of_asks asks_silent_pollStatus

theorem attempts_homeEach (axes : List UInt32) :
    (homeEach axes).Attempts fun as o => Homing axes as (.of o) := by
  induction axes with
  | nil => exact attempts_done ⟨rfl, rfl⟩
  | cons axis axes ih =>
    refine (attempts_execute (.home axis) Timing.home).bind ?_
    rintro _ o ⟨alive, rfl⟩
    cases ho : o.isOk with
    | true =>
      simp only [if_true]
      refine ih.mono fun as o' h => ⟨_, as, rfl, rfl, ?_⟩
      rwa [if_pos ho]
    | false =>
      simp only [Bool.false_eq_true, if_false]
      refine attempts_done ⟨_, [], rfl, rfl, ?_⟩
      rw [if_neg (by simp [ho])]
      exact ⟨rfl, rfl⟩

theorem attempts_homeAll (s : Setup) :
    (homeAll s).Attempts fun as r => Order.homeAll.Attempts s as r := by
  refine (attempts_attempt _ _).bind ?_
  rintro _ _ ⟨x, rfl, hx⟩
  refine (attempts_homeEach _).bind fun as o h => attempts_done ⟨x, as, ?_, hx, h⟩
  simp

theorem attempts_jog (j : Link.Jog) :
    (jog j).Attempts fun as r => Script [.mode .manual, .jog j] 1 as r := by
  refine (attempts_attempt _ _).bind ?_
  rintro _ _ ⟨x, rfl, hx⟩
  refine (attempts_act _ _).mono ?_
  rintro _ r ⟨y, rfl, hy, rfl⟩
  exact ⟨by simp [hx, hy], rfl⟩

theorem attempts_runGcode (line : Int32) :
    (runGcode line).Attempts fun as r => Script [.mode .auto, .auto (.run line)] 1 as r := by
  refine (attempts_attempt _ _).bind ?_
  rintro _ _ ⟨x, rfl, hx⟩
  refine (attempts_act _ _).mono ?_
  rintro _ r ⟨y, rfl, hy, rfl⟩
  exact ⟨by simp [hx, hy], rfl⟩

theorem attempts_loadGcode (s : Setup) (name content : String) :
    (loadGcode s name content).Attempts fun as r =>
      (Order.loadGcode name content).Attempts s as r := by
  unfold loadGcode
  split
  · exact attempts_done (.inl ⟨rfl, show (-1 : Int32) < 0 by decide⟩)
  · refine (attempts_of_asks (j := outside _) ⟨rfl, fun _ => trivial⟩).bind ?_
    rintro _ saved rfl
    cases saved with
    | error e => exact attempts_done (.inl ⟨rfl, show (-1 : Int32) < 0 by decide⟩)
    | ok =>
      refine (attempts_attempt _ _).bind ?_
      rintro _ _ ⟨x, rfl, hx⟩
      refine (attempts_attempt _ _).bind ?_
      rintro _ _ ⟨y, rfl, hy⟩
      refine (attempts_execute _ _).bind ?_
      rintro _ o ⟨alive, rfl⟩
      refine (attempts_attempt _ _).bind ?_
      rintro _ _ ⟨z, rfl, hz⟩
      exact attempts_done (.inr ⟨by simp [hx, hy, hz], rfl⟩)

theorem attempts_stepGcode (s : Setup) :
    stepGcode.Attempts fun as r => Order.stepGcode.Attempts s as r := by
  refine attempts_poll.bind ?_
  rintro _ s? rfl
  cases s? with
  | none => exact attempts_done (.inl ⟨rfl, show Outcome.code .notRunning < 0 by decide⟩)
  | some st =>
    dsimp only
    split
    · refine (attempts_attempt _ _).bind ?_
      rintro _ _ ⟨x, rfl, hx⟩
      refine (attempts_attempt _ _).bind ?_
      rintro _ _ ⟨y, rfl, hy⟩
      refine (attempts_attempt _ _).bind ?_
      rintro _ _ ⟨z, rfl, hz⟩
      refine (attempts_act _ _).mono ?_
      rintro _ r ⟨w, rfl, hw, rfl⟩
      exact .inr (.inr ⟨by simp [hx, hy, hz, hw], rfl⟩)
    · exact (script_act _ _).mono fun as r h => .inr (.inl h)

theorem attempts_setTaskMode (s : Setup) (m : TaskMode) :
    (setTaskMode m).Attempts fun as r => (Order.setTaskMode m).Attempts s as r := by
  unfold setTaskMode
  split
  · exact attempts_done (.inl ⟨rfl, show Outcome.code .noSuchMode < 0 by decide⟩)
  · refine attempts_poll.bind ?_
    rintro _ s? rfl
    cases s? with
    | none => exact attempts_done (.inl ⟨rfl, show Outcome.code .notRunning < 0 by decide⟩)
    | some st =>
      dsimp only
      split
      · exact attempts_done (.inl ⟨rfl, show (-2 : Int32) < 0 by decide⟩)
      · exact (script_act _ _).mono fun as r h => .inr h

theorem attempts_runMdi (s : Setup) (command : String) :
    (runMdi command).Attempts fun as r => (Order.runMdi command).Attempts s as r := by
  unfold runMdi
  dsimp only
  split
  · exact attempts_done (.inl ⟨rfl, show Outcome.code .emptyCommand < 0 by decide⟩)
  · exact (script_act _ _).mono fun as r h => .inr h

theorem attempts_order {s : Setup} {o : Order} {t : List Exchange} {r : Reply}
    (h : (order s o).Reaches t (.done r)) :
    ∃ as, o.Attempts s as r ∧ (Traced t as ∨ as = [] ∧ issued (Exchange.outsides t) = []) := by
  have htraced : ((order s o).Attempts fun as r => o.Attempts s as r) →
      ∃ as, o.Attempts s as r ∧ (Traced t as ∨ as = [] ∧ issued (Exchange.outsides t) = []) := by
    intro ho
    obtain ⟨as, has, htraced⟩ := ho t r h
    exact ⟨as, has, .inl htraced⟩
  have hnone : (∀ a, ¬ o.MayIssue s a) → issued (Exchange.outsides t) = [] := by
    intro hmay
    rw [issued, Exchange.outsides, List.filterMap_filterMap]
    refine List.filterMap_eq_nil_iff.2 fun x hx => ?_
    rcases (h.asks (composed_order s o).asks).2 x hx with hr | hr | ⟨c, hc, hr⟩
    · exact Request.issue?_of_not_isIssue (Request.not_isIssue_of_isOrdinary hr) x.2
    · exact Request.issue?_of_not_isIssue (Request.not_isIssue_of_isPolling hr) x.2
    · obtain ⟨r, b⟩ := x
      obtain rfl : r = .outside (.link c) := hr
      cases c with
      | issue a => exact absurd hc (hmay a)
      | _ => rfl
  cases o with
  | setState t => exact htraced (script_act _ _)
  | setTaskMode m => exact htraced (attempts_setTaskMode s m)
  | homeAxis axis => exact htraced (script_act _ _)
  | homeAll => exact htraced (attempts_homeAll s)
  | moveAxisStop axis => exact htraced (script_act _ _)
  | moveAxisContinuous axis v => exact htraced (attempts_jog _)
  | moveAxisIncrement axis v d => exact htraced (attempts_jog _)
  | loadGcode name content => exact htraced (attempts_loadGcode s name content)
  | runGcode line => exact htraced (attempts_runGcode line)
  | stepGcode => exact htraced (attempts_stepGcode s)
  | pauseGcode | resumeGcode | stopGcode | resetInterpreter | reloadToolTable =>
    exact htraced (script_act _ _)
  | runMdi command => exact htraced (attempts_runMdi s command)
  | startCnc | stopCnc | currentState | iniParams | gcodeContent | toolsData | addTool
  | deleteTools | updateTools => exact ⟨[], rfl, .inr ⟨rfl, hnone fun _ => id⟩⟩

end Handle

open Attempt Job

theorem Order.Attempts.eq_nil {s : Setup} {as : List Attempt} {r : Reply} {o : Order} {c : Command}
    {args : Json} (h : o.Attempts s as r) (hread : Order.read c args = .ok o)
    (hlink : c.requiresLink = false) : as = [] := by
  cases c with
  | startCnc | stopCnc | toolsData =>
    cases hread
    exact h
  | addTool | deleteTools | updateTools =>
    obtain ⟨b, -, rfl⟩ := exists_of_map_eq_ok hread
    exact h
  | _ => cases hlink

theorem attempts_handleCommand {s : Setup} {name : String} {args : Json} {o : Order}
    {t : List Exchange} {r : Reply} (ho : orderOf? name args = some o)
    (h : (handleCommand s name args).Reaches t (.done r)) :
    (r = .of .notRunning ∧ Exchange.looks t = [false] ∧ issued (Exchange.outsides t) = []) ∨
    ∃ as, o.Attempts s as r ∧
      issued (Exchange.outsides t) = (as.filter Attempt.alive).map Attempt.action ∧
      (as ≠ [] → Exchange.looks t = true :: as.map Attempt.alive) ∧
      ∀ x ∈ as, x.outcome = .notRunning ↔ x.alive = false := by
  obtain ⟨c, hc, hread⟩ := orderOf?_eq_some ho
  have hcarry : Handle.carryOut s c args = Handle.order s o := by
    rw [Handle.carryOut, hread]
  rw [handleCommand_of_name hc, hcarry] at h
  cases hlink : c.requiresLink with
  | false =>
    rw [hlink] at h
    simp only [Bool.false_eq_true, if_false] at h
    obtain ⟨as, has, htraced⟩ := Handle.attempts_order h
    obtain rfl := has.eq_nil hread hlink
    have hissued : issued (Exchange.outsides t) = [] := by
      rcases htraced with htraced | ⟨-, hissued⟩
      · exact htraced.issued
      · exact hissued
    exact .inr ⟨[], has, hissued, fun hne => absurd rfl hne, List.forall_mem_nil _⟩
  | true =>
    rw [hlink] at h
    simp only [if_true] at h
    obtain ⟨t₁, alive, t₂, rfl, hlook, hrest⟩ := h.bind_cases
    obtain ⟨cache, rfl, rfl⟩ := reaches_isAlive hlook
    cases halive : cache.alive with
    | false =>
      rw [halive] at hrest
      obtain ⟨rfl, hr⟩ := Reaches.done_cases hrest
      cases hr
      exact .inl ⟨rfl, congrArg (fun alive => [alive]) halive, rfl⟩
    | true =>
      rw [halive] at hrest
      obtain ⟨as, has, htraced⟩ := Handle.attempts_order hrest
      refine .inr ⟨as, has, ?_⟩
      rcases htraced with htraced | ⟨rfl, hissued⟩
      · refine ⟨htraced.issued, fun _ => ?_, htraced.skipped⟩
        change cache.alive :: Exchange.looks t₂ = _
        rw [halive, htraced.looks]
      · exact ⟨hissued, fun hne => absurd rfl hne, List.forall_mem_nil _⟩

end MillGateway
