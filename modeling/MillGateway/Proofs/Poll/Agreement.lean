import MillGateway.Proofs.Crowd.Section
import MillGateway.Proofs.Crowd.Simulated
import MillGateway.Proofs.Poll.Protocol

/-! What the cache tells of a simulated controller. Whoever launches it or shuts it down polls it
before the task ends. Main statement: while nobody is about to do so, the cache tells whether the
controller runs. -/

namespace MillGateway

open Crowd Job Machine

open Link (Simulator)

namespace Agreement

/-! ### What a task has found, and what it has done -/

inductive Stage where
  | idle
  | holding
  | found (up : Bool)
  | entered

structure Phase where
  /-- Whether the task has started or stopped the controller, and has entered nothing since. -/
  turned : Bool
  stage : Stage

def rest : Phase :=
  ⟨false, .idle⟩

inductive Turn : Protocol Phase
  | take {t a} : Turn ⟨t, .idle⟩ (.acquire .polling) a ⟨t, .holding⟩
  | hear {t a} : Turn ⟨t, .holding⟩ (.outside (.link .pollStatus)) a ⟨t, .found a.toOption.isSome⟩
  | store {t s b} : Turn ⟨t, .found true⟩ (.inside (.store s)) b ⟨false, .entered⟩
  | markDown {t b} : Turn ⟨t, .found false⟩ (.inside .markDown) b ⟨false, .entered⟩
  | announce {t s n} : Turn ⟨t, .entered⟩ (.inside (.announceStatus s)) n ⟨t, .entered⟩
  | give {t a} : Turn ⟨t, .entered⟩ (.release .polling) a ⟨t, .idle⟩
  | switch {t c a} (hc : c.isSwitch = true) :
      Turn ⟨t, .idle⟩ (.outside (.link c)) a ⟨t || a.toOption.isSome, .idle⟩
  | other {p r a} (hr : r.isPolling = false) (hswitch : r.isSwitch = false) : Turn p r a p

def Ends (p : Phase) (_ : α) : Prop :=
  p = rest

theorem guards_polling : Guards Turn .polling (·.stage ≠ .idle) where
  enter
    | .take, _ => .inr rfl
    | .hear, _ => .inl nofun
    | .store, _ => .inl nofun
    | .markDown, _ => .inl nofun
    | .announce, _ => .inl nofun
    | .give, hin => absurd rfl hin
    | .switch _, hin => absurd rfl hin
    | .other _ _, hin => .inl hin
  leave := by
    intro p a p' h
    cases h with
    | give => exact ⟨nofun, fun h => h rfl⟩
    | other hr => cases hr

/-! ### Whatever the gateway does -/

theorem spares (p : Phase) :
    Turn.Spares (· = p) fun r => r.isPolling = false ∧ r.isSwitch = false := by
  rintro _ r a rfl hr
  exact ⟨_, .other hr.1 hr.2, rfl⟩

theorem keeps_pollStatus {t : Bool} : pollStatus.Keeps Turn Ends ⟨t, .idle⟩ := by
  refine fun _ => ⟨_, .take, fun x => ⟨_, .hear, ?_⟩⟩
  cases x with
  | error e =>
    refine fun _ => ⟨_, .other rfl rfl, fun b => ⟨_, .markDown, ?_⟩⟩
    exact fun _ => ⟨_, .other rfl rfl, fun _ => ⟨_, .give, rfl⟩⟩
  | ok s =>
    refine fun _ => ⟨_, .other rfl rfl, fun b => ⟨_, .store, ?_⟩⟩
    refine fun _ => ⟨_, .other rfl rfl, fun n => ⟨_, .announce, ?_⟩⟩
    exact fun _ => ⟨_, .give, rfl⟩

theorem calm_of_isOrdinary {r : Request} (h : r.isOrdinary = true) :
    r.isPolling = false ∧ r.isSwitch = false :=
  have h := Request.isOrdinary_iff.1 h
  ⟨h.1, h.2.2.2⟩

theorem partsReturn {A : Link.Call → Prop} (hA : ∀ c, c.isSwitch = true → ¬ A c) :
    PartsReturn Turn (· = rest) A := by
  refine partsReturn_of_ordinary ((spares rest).mono fun _ => calm_of_isOrdinary)
    keeps_pollStatus.returns (fun {a} _ limit => ?_) ?_
  · refine (spares rest).returns ((asks_execute a limit).mono ?_)
    rintro r (hr | rfl)
    · exact calm_of_isOrdinary hr
    · exact ⟨rfl, rfl⟩
  · rintro _ _ _ - ⟨c, hc, ha, -⟩
    exact absurd ha (hA c hc)

section

open Handle

theorem keeps_of_inert {j : Job α} (h : j.Composed fun _ => False) : j.Keeps Turn Ends rest :=
  (partsReturn fun _ _ => id).returns h _ rfl

theorem keeps_awaitAnswer (deadline tries : Nat) {t : Bool} :
    (awaitAnswer deadline (tries + 1)).Keeps Turn Ends ⟨t, .idle⟩ := by
  unfold awaitAnswer
  refine keeps_pollStatus.bind ?_
  rintro _ s? rfl
  refine keeps_of_inert ?_
  split
  · exact .pure _
  · refine .bind (.plain rfl) fun now => ?_
    split
    · exact .pure _
    · exact .bind (.plain rfl) fun _ => composed_awaitAnswer _ _

theorem keeps_startCnc (s : Setup) : (startCnc s).Keeps Turn Ends rest := by
  refine keeps_pollStatus.bind ?_
  rintro _ s? rfl
  cases s? with
  | some st => rfl
  | none =>
    refine fun x => ⟨_, .switch rfl, ?_⟩
    cases x with
    | error e => rfl
    | ok =>
      refine fun now => ⟨_, .other rfl rfl, (keeps_awaitAnswer _ _).bind ?_⟩
      rintro _ answered rfl
      cases answered with
      | false => rfl
      | true => exact (keeps_of_inert .reset).bind fun _ _ h => h

theorem keeps_stopCnc : stopCnc.Keeps Turn Ends rest := by
  refine fun x => ⟨_, .switch rfl, ?_⟩
  cases x with
  | error e => rfl
  | ok =>
    have hpoll : (discard pollStatus : Job Unit).Keeps Turn Ends ⟨true, .idle⟩ :=
      keeps_pollStatus.bind fun _ _ h => h
    exact hpoll.bind fun _ _ h => h

theorem keeps_order (s : Setup) (o : Order) : (order s o).Keeps Turn Ends rest := by
  by_cases hstart : o = .startCnc
  · subst hstart
    exact keeps_startCnc s
  by_cases hstop : o = .stopCnc
  · subst hstop
    exact keeps_stopCnc
  refine (partsReturn fun c hc => ?_).returns (composed_order s o) _ rfl
  cases c with
  | launch => exact hstart
  | shutdown => exact hstop
  | pollStatus | openChannel | pollChannel | issue | wait => cases hc

theorem keeps_handleCommand (s : Setup) (name : String) (args : Json) :
    (handleCommand s name args).Keeps Turn Ends rest := by
  cases hc : Command.ofName? name with
  | none =>
    unfold handleCommand
    rw [hc]
    rfl
  | some c =>
    have hcarry : (carryOut s c args).Keeps Turn Ends rest := by
      unfold carryOut
      split
      · rfl
      · exact keeps_order s _
    rw [handleCommand_of_name hc]
    split
    · refine (keeps_of_inert .alive).bind ?_
      rintro _ alive rfl
      cases alive with
      | false => rfl
      | true => exact hcarry
    · exact hcarry

end

open Poll (Errand)

theorem not_isSwitch_of_isPolling {r : Request} (h : r.isPolling = true) : r.isSwitch = false := by
  cases r with
  | outside o =>
    cases o with
    | link c => cases c <;> first | rfl | cases h
    | _ => rfl
  | _ => rfl

theorem not_isSwitch_of_isReading {r : Request} (h : r.isReading = true) : r.isSwitch = false := by
  cases r with
  | outside o =>
    cases o with
    | link c => cases c <;> first | rfl | cases h
    | _ => rfl
  | _ => rfl

theorem keeps_answer (e : Errand) : e.answer.Keeps Turn Ends rest := by
  have hinert : PartsReturn Turn (· = rest) fun _ => False := partsReturn fun _ _ => id
  refine Errand.returns (fun s name args => (keeps_handleCommand s name args).returns) hinert.poll
    hinert.reset (fun _ => (spares rest).returns (asks_pollErrors.mono ?_)) _ rfl
  rintro r (hr | hr)
  · exact calm_of_isOrdinary hr
  · exact ⟨Poll.not_isPolling_of_isReading hr, not_isSwitch_of_isReading hr⟩

theorem asks_answer_calm {e : Errand} (he : ∀ c, c.isSwitch = true → ¬ e.MayCall c) :
    e.answer.Asks (·.isSwitch = false) := by
  refine (Poll.asks_answer e).mono ?_
  rintro r (hr | hr | ⟨-, hr⟩ | ⟨c, hc, rfl⟩)
  · exact (calm_of_isOrdinary hr).2
  · exact not_isSwitch_of_isPolling hr
  · exact not_isSwitch_of_isReading hr
  · exact eq_false_of_ne_true fun hswitch => he c hswitch hc

/-! ### The cache and the controller -/

section

variable [DecidableEq ω] {R : Rules α (Simulator × σ) χ ω ε}
  {s₀ s s' : Crowd α (Simulator × σ) ω ε} {e : Crowd.Event χ} {ph ph' : TaskId → Phase}
  {ms : List (Move α (Simulator × σ) χ ω ε)}

/-- Whether the cache agrees with the controller, and with what polls under way have found, unless a
task has started or stopped the controller and has not polled it since. -/
structure Fits (s : Crowd α (Simulator × σ) ω ε) (ph : TaskId → Phase) : Prop where
  found : ∀ i up, Within (·.stage = .found up) s ph i →
    up = s.machine.running ∨ ∃ i', i' ≠ i ∧ Within (·.turned = true) s ph i'
  cache : (∀ i, ¬ Within (·.turned = true) s ph i) →
    s.gateway.cache.alive = s.machine.running

omit [DecidableEq ω] in
theorem Fits.congr (h : Fits s ph)
    (hfound : ∀ i up, Within (·.stage = .found up) s' ph' i → Within (·.stage = .found up) s ph i)
    (hturned : ∀ i, Within (·.turned = true) s' ph' i ↔ Within (·.turned = true) s ph i)
    (halive : s'.gateway.cache.alive = s.gateway.cache.alive)
    (hrunning : s'.machine.running = s.machine.running) : Fits s' ph' where
  found i up hi := by
    rw [hrunning]
    exact (h.found i up (hfound i up hi)).imp_right fun ⟨i', hne, hi'⟩ => ⟨i', hne, (hturned i').2 hi'⟩
  cache hnone := by
    rw [halive, hrunning]
    exact h.cache fun i hi => hnone i ((hturned i).2 hi)

def entered? : Request → Option Bool
  | .inside (.store _) => some true
  | .inside .markDown => some false
  | _ => none

theorem entered?_of_not_isPolling {r : Request} (hr : r.isPolling = false) : entered? r = none := by
  cases r with
  | inside x => cases x <;> first | rfl | cases hr
  | _ => rfl

theorem alive_of_answered (h : Step R s e s') {i : TaskId} {r : Request} {a : r.Answer}
    (he : e.answered? = some (i, ⟨r, a⟩)) :
    s'.gateway.cache.alive = (entered? r).getD s.gateway.cache.alive := by
  cases h with
  | started | queued | asked | dropped | befell => cases he
  | took | woke | gave | heard =>
    cases he
    rfl
  | @looked i x =>
    cases he
    cases x <;> rfl

theorem alive_of_unanswered (h : Step R s e s') (he : e.answered? = none) :
    s'.gateway.cache.alive = s.gateway.cache.alive := by
  cases h with
  | took | woke | gave | looked | heard => cases he
  | started | queued | asked | dropped | befell => rfl

section

variable {i : TaskId} {r : Request} {a : r.Answer} {q : Phase} {t : Bool}

theorem Fits.hear (hR : R.Simulated) (hstep : Step R s e s') {x : Except Link.Error Status}
    (he : e.answered? = some (i, ⟨.outside (.link .pollStatus), x⟩)) (hp : ph i = ⟨t, .holding⟩)
    (h : Fits s ph) : Fits s' (Function.update ph i ⟨t, .found x.toOption.isSome⟩) := by
  obtain ⟨hx, hmachine⟩ := Simulator.Answers.pollStatus_eq (hstep.serves hR he)
  have hturned := (hstep.inside_of_answered (·.turned = true) ph he ⟨t, .found x.toOption.isSome⟩).keep
    (by rw [hp])
  have hup : x.toOption.isSome = s.machine.running := by
    rw [hx]
    cases s.machine.running <;> rfl
  refine ⟨fun i' up hi' => ?_, fun hnone => ?_⟩
  · have hfound := hstep.inside_of_answered (·.stage = .found up) ph he
      ⟨t, .found x.toOption.isSome⟩
    rw [hmachine]
    by_cases hne : i' = i
    · rw [hne, hfound.after] at hi'
      cases hi'
      exact .inl hup
    · rw [hfound.others i' hne] at hi'
      exact (h.found i' up hi').imp_right fun ⟨i₁, h₁, hi₁⟩ => ⟨i₁, h₁, (hturned i₁).2 hi₁⟩
  · rw [hmachine, alive_of_answered hstep he]
    exact h.cache fun i' hi' => hnone i' ((hturned i').2 hi')

theorem Fits.enter (hR : R.Simulated) (hstep : Step R s e s')
    (he : e.answered? = some (i, ⟨r, a⟩)) (halone : Alone (·.stage ≠ .idle) s ph) {up : Bool}
    (hr : entered? r = some up) (hp : ph i = ⟨t, .found up⟩) (h : Fits s ph) :
    Fits s' (Function.update ph i ⟨false, .entered⟩) := by
  have hturned := hstep.inside_of_answered (·.turned = true) ph he ⟨false, .entered⟩
  have hrunning : s'.machine.running = s.machine.running := by
    refine (hstep.serves hR he).running_eq ?_
    cases r <;> first | rfl | cases hr
  have hi : Within (·.stage = .found up) s ph i :=
    (hstep.inside_of_answered _ ph he rest).before.2 (congrArg Phase.stage hp)
  refine ⟨fun i' up' hi' => ?_, fun hnone => ?_⟩
  · obtain ⟨⟨hjob, hfound⟩, hne⟩ :=
      ((hstep.inside_of_answered (·.stage = .found up') ph he ⟨false, .entered⟩).lose nofun i').1 hi'
    refine absurd (halone i' i ⟨hjob, ?_⟩ ⟨hi.1, ?_⟩) hne
    · exact fun hidle => by simp [hfound] at hidle
    · exact fun hidle => by simp [hp] at hidle
  · rw [alive_of_answered hstep he, hr, hrunning, Option.getD_some]
    refine (h.found i up hi).resolve_right ?_
    rintro ⟨i', hne, hi'⟩
    exact hnone i' ((hturned.others i' hne).2 hi')

theorem Fits.switch (hR : R.Simulated) (hstep : Step R s e s') {c : Link.Call} {x : c.Answer}
    (he : e.answered? = some (i, ⟨.outside (.link c), x⟩)) (hp : ph i = ⟨t, .idle⟩)
    (h : Fits s ph) : Fits s' (Function.update ph i ⟨t || x.toOption.isSome, .idle⟩) := by
  have hturned := hstep.inside_of_answered (·.turned = true) ph he ⟨t || x.toOption.isSome, .idle⟩
  have hfound : ∀ i' up, Within (·.stage = .found up) s'
      (Function.update ph i ⟨t || x.toOption.isSome, .idle⟩) i' →
        Within (·.stage = .found up) s ph i' ∧ i' ≠ i := fun i' up =>
    ((hstep.inside_of_answered (·.stage = .found up) ph he ⟨t || x.toOption.isSome, .idle⟩).lose
      nofun i').1
  cases x with
  | error err =>
    refine h.congr (fun i' up hi' => (hfound i' up hi').1) (hturned.keep ?_)
      (alive_of_answered hstep he) (hstep.serves hR he).running_of_error
    rw [hp]
    exact iff_of_eq (congrArg (· = true) (Bool.or_false t))
  | ok v =>
    have hi : Within (·.turned = true) s' (Function.update ph i ⟨t || true, .idle⟩) i :=
      hturned.after.2 (Bool.or_true t)
    exact ⟨fun i' up hi' => .inr ⟨i, (hfound i' up hi').2.symm, hi⟩, fun hnone => absurd hi (hnone i)⟩

theorem Fits.answered (hR : R.Simulated) (hstep : Step R s e s')
    (he : e.answered? = some (i, ⟨r, a⟩)) (hq : Turn (ph i) r a q)
    (halone : Alone (·.stage ≠ .idle) s ph) (h : Fits s ph) :
    Fits s' (Function.update ph i q) := by
  have hserves := hstep.serves hR he
  have halive := alive_of_answered hstep he
  have hturned := hstep.inside_of_answered (·.turned = true) ph he q
  have hfound := fun up => hstep.inside_of_answered (·.stage = .found up) ph he q
  generalize hp : ph i = p at hq hturned hfound
  cases hq with
  | hear => exact h.hear hR hstep he hp
  | store | markDown => exact h.enter hR hstep he halone rfl hp
  | switch => exact h.switch hR hstep he hp
  | take | announce | give =>
    refine h.congr (fun i' up hi' => ?_) (hturned.keep Iff.rfl) halive (hserves.running_eq rfl)
    exact (((hfound up).lose nofun i').1 hi').1
  | other hr hswitch =>
    rw [entered?_of_not_isPolling hr] at halive
    exact h.congr (fun i' up => ((hfound up).keep Iff.rfl i').1) (hturned.keep Iff.rfl) halive
      (hserves.running_eq hswitch)

end

def Calm (R : Rules α (Simulator × σ) χ ω ε) (i : TaskId) : Prop :=
  ∀ j, R.jobs i = some j → j.Asks (·.isSwitch = false)

structure Agreed (R : Rules α (Simulator × σ) χ ω ε) (s : Crowd α (Simulator × σ) ω ε)
    (ph : TaskId → Phase) : Prop where
  follows : Follows Turn Ends (fun _ => rest) s ph
  excludes : Excludes .polling (·.stage ≠ .idle) s ph
  calm : ∀ i, Calm R i → (ph i).turned = false ∧
    ∀ j, s.jobAt i = some j → j.Asks (·.isSwitch = false)
  fits : Fits s ph

theorem Turn.turned_eq {p q : Phase} {r : Request} {a : r.Answer} (h : Turn p r a q)
    (hr : r.isSwitch = false) (hp : p.turned = false) : q.turned = false := by
  cases h with
  | store | markDown => rfl
  | take | hear | announce | give | other => exact hp
  | switch hc => exact absurd hr (by simp [Request.isSwitch, hc])

theorem Agreed.step (hR : R.Simulated)
    (hjobs : ∀ i j, R.jobs i = some j → j.Keeps Turn Ends rest)
    (hdrop : ∀ i, R.mayDrop i = true → Calm R i) (h : Agreed R s ph) (hstep : Step R s e s') :
    ∃ ph', Agreed R s' ph' := by
  obtain ⟨ph', hadv, hfollows⟩ := h.follows.step hjobs hstep
  have hexcludes := guards_polling.step (fun _ hi => hi rfl) h.follows h.excludes hstep hadv
  refine ⟨ph', hfollows, hexcludes, ?_, ?_⟩
  · intro i hi
    obtain ⟨hturned, hasks⟩ := h.calm i hi
    cases he : e.answered? with
    | none =>
      rw [hadv.unanswered he]
      refine ⟨hturned, fun j hj => ?_⟩
      rcases hstep.jobAt_before he hj with hj | ⟨-, hj⟩
      · exact hasks j hj
      · exact hi j hj
    | some x =>
      obtain ⟨i', r, a⟩ := x
      obtain ⟨q, hq, rfl⟩ := hadv.answered he
      obtain ⟨k, hk, hput⟩ := hstep.of_answered he
      rw [hput]
      by_cases hne : i = i'
      · subst hne
        obtain ⟨hr, hrest⟩ := hasks _ hk
        rw [Function.update_self, Function.update_self]
        exact ⟨hq.turned_eq hr hturned, fun j hj => Option.some.inj hj ▸ hrest a⟩
      · rw [Function.update_of_ne hne, Function.update_of_ne hne]
        exact ⟨hturned, hasks⟩
  · cases he : e.answered? with
    | none =>
      rw [hadv.unanswered he]
      have hwithin (inside : Phase → Prop) (hrest : ¬ inside rest) (i : TaskId) :
          Within inside s' ph i ↔ Within inside s ph i ∧ e ≠ .dropped i :=
        hstep.inside_of_unanswered (fun _ => hrest) h.follows he
      refine h.fits.congr (fun i up hi => ((hwithin _ nofun i).1 hi).1) (fun i => ?_)
        (alive_of_unanswered hstep he) (congrArg _ (hstep.machine_of_unanswered hR he))
      rw [hwithin _ nofun, and_iff_left_iff_imp]
      -- only a calm task can be dropped, and that one has turned nothing
      rintro hi rfl
      have hcalm := (h.calm i (hdrop i hstep.mayDrop_of_dropped)).1
      rw [hi.2] at hcalm
      cases hcalm
    | some x =>
      obtain ⟨i, r, a⟩ := x
      obtain ⟨q, hq, rfl⟩ := hadv.answered he
      exact h.fits.answered hR hstep he hq h.excludes.alone

theorem agreed_of_trail (hR : R.Simulated)
    (hjobs : ∀ i j, R.jobs i = some j → j.Keeps Turn Ends rest)
    (hdrop : ∀ i, R.mayDrop i = true → Calm R i) (hs₀ : s₀.Fresh)
    (hstart : s₀.gateway.cache.alive = s₀.machine.running) (h : Trail R s₀ ms s) :
    ∃ ph, Agreed R s ph := by
  have hnone : ∀ (inside : Phase → Prop) i, ¬ Within inside s₀ (fun _ => rest) i := by
    rintro inside i ⟨⟨j, hj⟩, -⟩
    rw [hs₀.jobAt] at hj
    cases hj
  refine h.induction (P := fun s => ∃ ph, Agreed R s ph) (fun hstep ⟨ph, hph⟩ => ?_) ?_
  · exact hph.step hR hjobs hdrop hstep
  · refine ⟨fun _ => rest, hs₀.follows, hs₀.excludes, fun i _ => ⟨rfl, fun j hj => ?_⟩, ?_⟩
    · rw [hs₀.jobAt] at hj
      cases hj
    · exact ⟨fun i up hi => absurd hi (hnone _ i), fun _ => hstart⟩

theorem alive_eq_running (hR : R.Simulated)
    (hjobs : ∀ i j, R.jobs i = some j → j.Keeps Turn Ends rest)
    (hdrop : ∀ i, R.mayDrop i = true → Calm R i) (hs₀ : s₀.Fresh)
    (hstart : s₀.gateway.cache.alive = s₀.machine.running) (h : Trail R s₀ ms s)
    (hcalm : ∀ i, s.Unfinished i → Calm R i) :
    s.gateway.cache.alive = s.machine.running := by
  obtain ⟨ph, hagreed⟩ := agreed_of_trail hR hjobs hdrop hs₀ hstart h
  refine hagreed.fits.cache fun i hi => ?_
  obtain ⟨⟨j, hj⟩, hturned⟩ := hi
  have hkeeps := hagreed.follows.keeps i j hj
  cases j with
  | done a =>
    have hend : ph i = rest := hkeeps
    rw [hend] at hturned
    cases hturned
  | ask r k =>
    rw [(hagreed.calm i (hcalm i ⟨r, k, hj⟩)).1] at hturned
    cases hturned

end

end Agreement

end MillGateway
