import Mathlib.Data.List.Induction
import MillGateway.Console.Session
import MillGateway.Proofs.Command.Homing
import MillGateway.Proofs.Command.Locking
import MillGateway.Proofs.Crowd.Ends
import MillGateway.Proofs.Crowd.Play
import MillGateway.Proofs.Poll.Agreement

/-! The console with polls in the background and a simulated controller, which has the axes that the
settings count. Main statement: all parts of the program mean the same axes. -/

namespace MillGateway

open Crowd Job Machine Agreement

open Link (Simulator)
open Poll (Errand)

/-! ### What runs beside commands -/

def Request.isHandling : Request → Bool
  | .outside o => o.isHandling
  | _ => false

theorem not_isHandling_of_isChannel {r : Request} (h : r.isChannel = true ∨ r.isReading = true) :
    r.isHandling = false := by
  cases r with
  | outside o =>
    cases o with
    | link c => cases c <;> first | rfl | (rcases h with h | h <;> cases h)
    | waitWithin => rcases h with h | h <;> cases h
    | _ => rfl
  | _ => rfl

namespace Poll.Errand

def isCommand : Errand → Bool
  | .command _ _ _ => true
  | .pollStatus | .pollErrors | .resetChannel => false

theorem asks_of_background {e : Errand} (he : e.isCommand = false) :
    e.answer.Asks (·.isHandling = false) := by
  have halive : isAlive.Asks (·.isHandling = false) :=
    Asks.locked rfl rfl ⟨rfl, fun _ => trivial⟩
  cases e with
  | command => cases he
  | pollStatus =>
    have hpoll : Job.pollStatus.Asks (·.isHandling = false) :=
      asks_pollStatus_of ⟨rfl, rfl⟩ ⟨rfl, rfl⟩ rfl (fun _ => ⟨rfl, rfl⟩) rfl
    exact hpoll.bind fun _ => trivial
  | pollErrors =>
    refine Asks.bind (halive.bind fun alive => ?_) fun _ => trivial
    cases alive with
    | false => trivial
    | true =>
      refine (asks_takeMessage.mono fun _ => not_isHandling_of_isChannel).bind fun m? => ?_
      cases m? with
      | none => trivial
      | some m => exact ⟨rfl, fun _ => ⟨rfl, fun _ => ⟨rfl, fun _ => trivial⟩⟩⟩
  | resetChannel =>
    refine Asks.bind (asks_resetChannel.mono fun _ hr => ?_) fun _ => trivial
    exact not_isHandling_of_isChannel (.inl hr)

end Poll.Errand

namespace Console

/-- Whether tasks are commands of a program that has this plan and polls in the background, and the
controller is simulated. Polls may be dropped, commands may not. -/
structure Plan.Runs (p : Plan) (errands : TaskId → Option Errand)
    (R : Rules Errand.Result (Simulator × σ) χ ω ε) : Prop where
  jobs : ∀ i, R.jobs i = (errands i).map Errand.answer
  setup : ∀ i s name args, errands i = some (.command s name args) → s = p.setup
  kept : ∀ i e, errands i = some e → e.isCommand = true → R.mayDrop i = false
  simulated : R.Simulated
  responsive : R.Responsive

structure Plan.Starts (p : Plan) (s : Crowd Errand.Result (Simulator × σ) ω ε) : Prop where
  fresh : s.Fresh
  cache : s.gateway.cache = {}
  machine : s.machine = p.simulator

end Console

namespace Wiring

open Console (Plan)

/-- Whether each command is started when no other is under way. -/
def OneByOne (errands : TaskId → Option Errand)
    (ms : List (Move Errand.Result (Simulator × σ) χ ω ε)) : Prop :=
  ∀ x ∈ ms, ∀ i e, x.event = .started i → errands i = some e → e.isCommand = true →
    ∀ i' e', i' ≠ i → errands i' = some e' → e'.isCommand = true → ¬ x.before.Unfinished i'

def Replied (errands : TaskId → Option Errand) (x : Move Errand.Result (Simulator × σ) χ ω ε)
    (s : Crowd Errand.Result (Simulator × σ) ω ε) (setup : Setup) (name : String) (args : Json)
    (r : Reply) : Prop :=
  ∃ i, x.event = .started i ∧ errands i = some (.command setup name args) ∧
    s.tasks i = some (.ready (.done (.reply r)))

section

variable [DecidableEq ω] {p : Plan} {R : Rules Errand.Result (Simulator × σ) χ ω ε}
  {errands : TaskId → Option Errand} {s₀ s : Crowd Errand.Result (Simulator × σ) ω ε}
  {ms ms₁ ms₂ : List (Move Errand.Result (Simulator × σ) χ ω ε)}
  {x : Move Errand.Result (Simulator × σ) χ ω ε} {i i' : TaskId} {e e' : Errand}

/-! ### One command at a time -/

theorem eq_of_unfinished (hs₀ : s₀.Fresh) (h : Trail R s₀ ms s) (hone : OneByOne errands ms)
    (he : errands i = some e) (hcommand : e.isCommand = true) (he' : errands i' = some e')
    (hcommand' : e'.isCommand = true) (hi : s.Unfinished i) (hi' : s.Unfinished i') : i = i' := by
  induction h with
  | nil =>
    obtain ⟨r, k, hk⟩ := hi
    rw [hs₀.jobAt] at hk
    cases hk
  | @snoc ms s ev s' h hstep ih =>
    have hlast := hone _ (List.mem_append_right ms List.mem_cons_self)
    rcases hstep.unfinished_before hi with hb | rfl
    · rcases hstep.unfinished_before hi' with hb' | rfl
      · exact ih (fun y hy => hone y (List.mem_append_left _ hy)) hb hb'
      · by_contra hne
        exact hlast i' e' rfl he' hcommand' i e hne he hcommand hb
    · rcases hstep.unfinished_before hi' with hb' | hstarted
      · by_contra hne
        exact hlast i e rfl he hcommand i' e' (Ne.symm hne) he' hcommand' hb'
      · cases hstarted
        rfl

def takesCommandsSingly (errands : TaskId → Option Errand) (is : List TaskId)
    (ms : List (Move Errand.Result (Simulator × σ) χ ω ε)) : Bool :=
  ms.all fun x => match x.event with
    | .started i => !(errands i).any Errand.isCommand || is.all fun i' =>
      i' == i || !(errands i').any Errand.isCommand || !(x.before.jobAt i' matches some (.ask _ _))
    | _ => true

omit [DecidableEq ω] in
theorem oneByOne_of_takesCommandsSingly {is : List TaskId}
    (his : ∀ i e, errands i = some e → i ∈ is) (h : takesCommandsSingly errands is ms = true) :
    OneByOne errands ms := by
  rintro x hx i e hev he hcommand i' e' hne he' hcommand' ⟨r, k, hk⟩
  have hx := List.all_eq_true.1 h x hx
  simp only [hev, he, Option.any_some, hcommand, Bool.not_true, Bool.false_or] at hx
  have hi' := List.all_eq_true.1 hx i' (his i' e' he')
  simp [hne, he', hcommand', hk] at hi'

omit [DecidableEq ω] in
theorem calm_of_background (hp : p.Runs errands R)
    (hi : ∀ e, errands i = some e → e.isCommand = false) : Calm R i := by
  intro j hj
  rw [hp.jobs] at hj
  obtain ⟨e, he, rfl⟩ := Option.map_eq_some_iff.1 hj
  refine asks_answer_calm fun c _ ⟨s, name, args, o, hcommand, _⟩ => ?_
  have hnot := hi e he
  rw [hcommand] at hnot
  cases hnot

omit [DecidableEq ω] in
theorem calm_of_command (hp : p.Runs errands R) {setup : Setup} {c : Command} {args : Json}
    (hi : errands i = some (.command setup c.name args)) (hstart : c ≠ .startCnc)
    (hstop : c ≠ .stopCnc) : Calm R i := by
  intro j hj
  rw [hp.jobs, hi] at hj
  cases hj
  refine asks_answer_calm fun call hcall ⟨s, name, args', o, hcommand, ho, hmay⟩ => ?_
  cases hcommand
  obtain ⟨-, hname, -⟩ := name_of_orderOf? ho
  have hc : c = o.command := Option.some.inj ((Command.ofName?_name c).symm.trans hname)
  cases call with
  | launch =>
    obtain rfl : o = .startCnc := hmay
    exact hstart hc
  | shutdown =>
    obtain rfl : o = .stopCnc := hmay
    exact hstop hc
  | pollStatus | openChannel | pollChannel | issue | wait => cases hcall

theorem alive_eq_running_of_calm (hp : p.Runs errands R) (hs₀ : p.Starts s₀)
    (h : Trail R s₀ ms s)
    (hcalm : ∀ i e, errands i = some e → e.isCommand = true → s.Unfinished i → Calm R i) :
    s.gateway.cache.alive = s.machine.running := by
  have hkeeps : ∀ i j, R.jobs i = some j → j.Keeps Turn Ends rest := by
    intro i j hj
    obtain ⟨e, rfl⟩ := Poll.exists_errand hp.jobs i j hj
    exact keeps_answer e
  have hstart : s₀.gateway.cache.alive = s₀.machine.running := by
    rw [hs₀.cache, hs₀.machine]
    rfl
  refine alive_eq_running hp.simulated hkeeps (fun i hdrop => ?_) hs₀.fresh hstart h fun i hi => ?_
  · refine calm_of_background hp fun e he => eq_false_of_ne_true fun hcommand => ?_
    rw [hp.kept i e he hcommand] at hdrop
    cases hdrop
  · by_cases hcommand : ∃ e, errands i = some e ∧ e.isCommand = true
    · obtain ⟨e, he, hcommand⟩ := hcommand
      exact hcalm i e he hcommand hi
    · exact calm_of_background hp fun e he => eq_false_of_ne_true fun hc => hcommand ⟨e, he, hc⟩

/-! ### One command beside polls -/

theorem machine_of_background (hp : p.Runs errands R) (hs₀ : p.Starts s₀) (h : Trail R s₀ ms s)
    {s' : Crowd Errand.Result (Simulator × σ) ω ε} {ev : Crowd.Event χ} (hstep : Step R s ev s')
    {r : Request} {a : r.Answer} (hev : ev.answered? = some (i, ⟨r, a⟩))
    (hi : ∀ e, errands i = some e → e.isCommand = false) : s'.machine = s.machine := by
  obtain ⟨k, hk, -⟩ := hstep.of_answered hev
  obtain ⟨pl, hpl, -⟩ := Option.bind_eq_some_iff.1 hk
  obtain ⟨j, hj⟩ := h.run.job_of_task hs₀.fresh hpl
  have hj' := hj
  rw [hp.jobs] at hj
  obtain ⟨e, he, rfl⟩ := Option.map_eq_some_iff.1 hj
  have hreach := (h.run.stands hj' (congrFun hs₀.fresh.tasks i)).reaches hk
  obtain ⟨⟨hr, -⟩, -⟩ := hreach.asks (Poll.Errand.asks_of_background (hi e he))
  have huntold : s.machine.Untold := h.machine_induction (P := Simulator.Untold)
    (fun m m' hm h => hm.untold h) hp.simulated (hs₀.machine ▸ Simulator.untold_new _ _)
  have hserves := hstep.serves hp.simulated hev
  cases r with
  | outside o => exact Simulator.Answers.eq_of_look hserves hr huntold
  | acquire | release | inside => exact hserves

/-- Whether a command is about to end with a reply like this. -/
def Heading (P : Reply → Simulator → Prop) (i : TaskId)
    (s : Crowd Errand.Result (Simulator × σ) ω ε) : Prop :=
  ∃ j, s.jobAt i = some j ∧ j.Under (fun res m => ∃ r, res = .reply r ∧ P r m) s.machine

section

variable {c : Command} {args : Json} {P : Reply → Simulator → Prop}

theorem Heading.step (hp : p.Runs errands R) (hs₀ : p.Starts s₀) (h : Trail R s₀ ms s)
    (hone : OneByOne errands ms) (he : errands i = some e) (hcommand : e.isCommand = true)
    (hcalm : Calm R i) (hP : ∀ r m m', Simulator.Later m m' → P r m → P r m')
    {s' : Crowd Errand.Result (Simulator × σ) ω ε} {ev : Crowd.Event χ} (hstep : Step R s ev s')
    (hi : Heading P i s) : Heading P i s' := by
  obtain ⟨j, hj, hunder⟩ := hi
  cases hev : ev.answered? with
  | none =>
    refine ⟨j, (hstep.jobAt_after hev hj).resolve_right fun hdropped => ?_, ?_⟩
    · rw [hdropped] at hstep
      have hmay := hstep.mayDrop_of_dropped
      rw [hp.kept i e he hcommand] at hmay
      cases hmay
    · rwa [hstep.machine_of_unanswered hp.simulated hev]
  | some z =>
    obtain ⟨i', r, a⟩ := z
    obtain ⟨k, hk, hput⟩ := hstep.of_answered hev
    unfold Heading
    rw [hput]
    by_cases hne : i = i'
    · subst hne
      rw [hj] at hk
      cases hk
      have hagree : s.gateway.cache.alive = s.machine.running := by
        refine alive_eq_running_of_calm hp hs₀ h fun i₁ e₁ he₁ hcommand₁ hi₁ => ?_
        obtain rfl := eq_of_unfinished hs₀.fresh h hone he₁ hcommand₁ he hcommand hi₁ ⟨r, k, hj⟩
        exact hcalm
      rw [Function.update_self]
      exact ⟨k a, rfl, hunder a _ (hstep.serves hp.simulated hev) (hstep.tells hev hagree)⟩
    · rw [Function.update_of_ne hne]
      refine ⟨j, hj, ?_⟩
      cases j with
      | done res =>
        obtain ⟨r', hr', hPr'⟩ := hunder
        exact ⟨r', hr', hP _ _ _ (hstep.later hp.simulated) hPr'⟩
      | ask r' k' =>
        rw [machine_of_background hp hs₀ h hstep hev fun e' he' =>
          eq_false_of_ne_true fun hcommand' => ?_]
        · exact hunder
        · exact hne (eq_of_unfinished hs₀.fresh h hone he hcommand he' hcommand' ⟨r', k', hj⟩
            ⟨r, k, hk⟩)

theorem heading_of_trail (hp : p.Runs errands R) (hs₀ : p.Starts s₀)
    (h : Trail R s₀ (ms₁ ++ x :: ms₂) s) (hone : OneByOne errands (ms₁ ++ x :: ms₂))
    (hx : x.event = .started i) (hi : errands i = some (.command p.setup c.name args))
    (hcalm : Calm R i) (hP : ∀ r m m', Simulator.Later m m' → P r m → P r m')
    (hunder : (handleCommand p.setup c.name args).Under P x.before.machine) : Heading P i s := by
  induction ms₂ using List.reverseRecOn generalizing s with
  | nil =>
    obtain ⟨-, hstep, -⟩ := h.at_move
    obtain rfl : x.after = s := h.after_last List.getLast?_concat
    rw [hx] at hstep
    obtain ⟨-, j, hj, hjob⟩ := hstep.of_started
    rw [hp.jobs, hi] at hj
    cases hj
    refine ⟨_, hjob, ?_⟩
    rw [hstep.machine_of_unanswered hp.simulated rfl]
    exact hunder.bind fun r m hr => ⟨r, rfl, hr⟩
  | append_singleton ms₂ y ih =>
    have hsplit : ms₁ ++ x :: (ms₂ ++ [y]) = ms₁ ++ x :: ms₂ ++ [y] := by simp
    rw [hsplit] at h hone
    obtain ⟨hbefore, hstep, -⟩ := h.at_move
    obtain rfl : y.after = s := h.after_last List.getLast?_concat
    have hone' : OneByOne errands (ms₁ ++ x :: ms₂) := fun z hz =>
      hone z (List.mem_append_left _ hz)
    exact (ih hbefore hone').step hp hs₀ hbefore hone' hi rfl hcalm hP hstep

theorem reply_of_trail (c : Command) (hstart : c ≠ .startCnc) (hstop : c ≠ .stopCnc)
    (hp : p.Runs errands R) (hs₀ : p.Starts s₀) (h : Trail R s₀ ms s) (hone : OneByOne errands ms)
    (hmem : x ∈ ms)
    (hP : ∀ r m m', Simulator.Later m m' → P r m → P r m')
    (hunder : (handleCommand p.setup c.name args).Under P x.before.machine) {r : Reply}
    (hr : Replied errands x s p.setup c.name args r) : P r s.machine := by
  obtain ⟨i, hx, hi, hdone⟩ := hr
  obtain ⟨ms₁, ms₂, rfl⟩ := List.append_of_mem hmem
  obtain ⟨j, hj, hj'⟩ := heading_of_trail hp hs₀ h hone hx hi (calm_of_command hp hi hstart hstop)
    hP hunder
  rw [jobAt_of_task hdone] at hj
  cases hj
  obtain ⟨r', hr', hPr'⟩ := hj'
  cases hr'
  exact hPr'

end

/-! ### Whole runs -/

theorem machine_of_trail (hp : p.Runs errands R) (hs₀ : p.Starts s₀) (h : Trail R s₀ ms s) :
    s.machine.Untold ∧ s.machine.status.homed.length = p.setup.machine.axisCount := by
  refine h.machine_induction (P := fun m => m.Untold ∧ m.status.homed.length = _)
    (fun m m' hm ⟨huntold, hcount⟩ => ?_) hp.simulated ?_
  · exact ⟨hm.untold huntold, hm.length_homed.trans hcount⟩
  · rw [hs₀.machine]
    exact ⟨Simulator.untold_new _ _, List.length_replicate⟩

theorem machine_of_mem (hp : p.Runs errands R) (hs₀ : p.Starts s₀) (h : Trail R s₀ ms s)
    (hmem : x ∈ ms) : x.before.machine.Untold ∧
      x.before.machine.status.homed.length = p.setup.machine.axisCount := by
  obtain ⟨ms₁, ms₂, rfl⟩ := List.append_of_mem hmem
  exact machine_of_trail hp hs₀ h.at_move.1

theorem alive_of_start (hp : p.Runs errands R) (hs₀ : p.Starts s₀) (h : Trail R s₀ ms s)
    (hone : OneByOne errands ms) (hmem : x ∈ ms) (hx : x.event = .started i)
    (he : errands i = some e) (hcommand : e.isCommand = true) :
    x.before.gateway.cache.alive = x.before.machine.running := by
  have hall := hone x hmem i e hx he hcommand
  obtain ⟨ms₁, ms₂, rfl⟩ := List.append_of_mem hmem
  obtain ⟨hbefore, hstep, -⟩ := h.at_move
  rw [hx] at hstep
  refine alive_eq_running_of_calm hp hs₀ hbefore fun i' e' he' hcommand' hi' => ?_
  refine absurd hi' ?_
  by_cases hne : i' = i
  · rintro ⟨r, k, hk⟩
    rw [hne, jobAt_of_none hstep.of_started.1] at hk
    cases hk
  · exact hall i' e' hne he' hcommand'

def hasReplied (s : Crowd Errand.Result (Simulator × σ) ω ε) (i : TaskId) : Bool :=
  s.tasks i matches some (.ready (.done (.reply _)))

theorem exists_replied (hs₀ : s₀.Fresh) (h : Trail R s₀ ms s) {setup : Setup} {name : String}
    {args : Json} (hi : errands i = some (.command setup name args))
    (hdone : hasReplied s i = true) :
    ∃ x ∈ ms, x.event = .started i ∧ ∃ r, Replied errands x s setup name args r := by
  obtain ⟨r, hr⟩ : ∃ r, s.tasks i = some (.ready (.done (.reply r))) := by
    unfold hasReplied at hdone
    split at hdone
    next r hr => exact ⟨r, hr⟩
    next => cases hdone
  have hstarted : s.tasks i ≠ none := fun hnone => nomatch hr.symm.trans hnone
  obtain ⟨ms₁, x, ms₂, rfl, hx⟩ := h.exists_start (congrFun hs₀.tasks i) hstarted
  exact ⟨x, List.mem_append_right _ List.mem_cons_self, hx, r, i, hx, hi, hr⟩

theorem exists_replied_later (hp : p.Runs errands R) (hs₀ : s₀.Fresh) (h : Trail R s₀ ms s)
    (hone : OneByOne errands ms) (hmem : x ∈ ms) (hx : x.event = .started i) {setup : Setup}
    {name : String} {args : Json} (he : errands i = some (.command setup name args)) :
    ∃ ms' s' r, Trail R s₀ (ms ++ ms') s' ∧ OneByOne errands (ms ++ ms') ∧
      Replied errands x s' setup name args r := by
  have hkeeps : ∀ i j, R.jobs i = some j → j.Keeps Discipline Discipline.Ends [] := by
    intro i j hj
    obtain ⟨e, rfl⟩ := Poll.exists_errand hp.jobs i j hj
    exact Locking.returns_answer e _ rfl
  obtain ⟨j, hj⟩ := h.exists_jobAt hmem hx (hp.kept i _ he rfl)
  obtain ⟨ms', s', a, htrail, hmovers, hdone⟩ := h.exists_end hp.responsive hkeeps hs₀ hj
  have hone' : OneByOne errands (ms ++ ms') := by
    intro y hy i e hev
    rcases List.mem_append.1 hy with hy | hy
    · exact hone y hy i e hev
    · exact absurd (congrArg Crowd.Event.mover? hev) (hmovers y hy)
  obtain ⟨r, rfl⟩ : ∃ r, a = .reply r := by
    have hjob : R.jobs i = some (.reply <$> handleCommand setup name args) := by
      rw [hp.jobs, he]
      rfl
    have hreach := (htrail.run.stands hjob (congrFun hs₀.tasks i)).reaches (jobAt_of_task hdone)
    have hcomes : ComesTo (fun a => ∃ r, a = Errand.Result.reply r)
        (.reply <$> handleCommand setup name args) := ComesTo.after fun r => ⟨r, rfl⟩
    exact hreach.concludes hcomes.concludes
  exact ⟨ms', s', r, htrail, hone', i, hx, he, hdone⟩

theorem homeAll_of_trail (hp : p.Runs errands R) (hs₀ : p.Starts s₀)
    (haxes : Machine.axisCount p.ini < UInt32.size) (h : Trail R s₀ ms s)
    (hone : OneByOne errands ms) (hmem : x ∈ ms) {args : Json} {r : Reply}
    (hr : Replied errands x s p.setup "home_all" args r) :
    (x.before.machine.running = true → r = .of .ok) ∧
      (r = .of .ok → s.machine.status.allHomed = true) := by
  obtain ⟨huntold, hcount⟩ := machine_of_mem hp hs₀ h hmem
  refine reply_of_trail .homeAll nofun nofun hp hs₀ h hone hmem ?_
    (Handle.under_homeAll_command huntold.scripted hcount haxes) hr
  exact fun r m m' hm hr => ⟨hr.1, fun hok => hm.allHomed (hr.2 hok)⟩

/-- However commands, one at a time, and polls beside them come on, and however often the controller
is stopped and started: a command comes to a reply, and finds in the cache whether the controller
runs. While it does, homing all axes succeeds, the axes that are told are those of the settings, and
homing one axis succeeds exactly if its number is below their count. Once all axes were homed by a
command, nobody is told that they are not. -/
theorem axes_agree (hp : p.Runs errands R) (hs₀ : p.Starts s₀)
    (haxes : Machine.axisCount p.ini < UInt32.size) (h : Trail R s₀ ms s)
    (hone : OneByOne errands ms) :
    (∀ x ∈ ms, ∀ i e, x.event = .started i → errands i = some e → e.isCommand = true →
      x.before.gateway.cache.alive = x.before.machine.running) ∧
    (∀ x ∈ ms, ∀ i name args, x.event = .started i →
      errands i = some (.command p.setup name args) →
      ∃ ms' s' r, Trail R s₀ (ms ++ ms') s' ∧ OneByOne errands (ms ++ ms') ∧
        Replied errands x s' p.setup name args r) ∧
    (∀ x ∈ ms, ∀ args r, Replied errands x s p.setup "home_all" args r →
      x.before.gateway.cache.alive = true → r = .of .ok) ∧
    (∀ x ∈ ms, ∀ args r, Replied errands x s p.setup "ini_params" args r →
      x.before.gateway.cache.alive = true → r.body = .machine p.setup.machine) ∧
    (∀ x ∈ ms, ∀ args r, Replied errands x s p.setup "home_axis" args r →
      x.before.gateway.cache.alive = true →
      (r = .of .ok ↔ ∃ axis, orderOf? "home_axis" args = some (.homeAxis axis) ∧
        axis.toNat < p.setup.machine.axisCount)) ∧
    ∀ ms₁ x ms₂, ms = ms₁ ++ x :: ms₂ → ∀ y ∈ ms₁, ∀ args args' r,
      Replied errands y x.before p.setup "home_all" args (.of .ok) →
      Replied errands x s p.setup "set_task_mode" args' r → ¬ Handle.BlamesAxes r := by
  have hup : ∀ x ∈ ms, ∀ {name args r}, Replied errands x s p.setup name args r →
      x.before.gateway.cache.alive = true → x.before.machine.running = true := by
    rintro x hmem name args r ⟨i, hx, hi, -⟩ halive
    rw [← halive]
    exact (alive_of_start hp hs₀ h hone hmem hx hi rfl).symm
  refine ⟨fun x hmem i e hx he hcommand => ?_, fun x hmem i name args hx he => ?_,
    fun x hmem args r hr halive => ?_, fun x hmem args r hr halive => ?_,
    fun x hmem args r hr halive => ?_, ?_⟩
  · exact alive_of_start hp hs₀ h hone hmem hx he hcommand
  · exact exists_replied_later hp hs₀.fresh h hone hmem hx he
  · exact (homeAll_of_trail hp hs₀ haxes h hone hmem hr).1 (hup x hmem hr halive)
  · exact reply_of_trail .iniParams nofun nofun hp hs₀ h hone hmem (fun _ _ _ _ => id)
      Handle.under_iniParams_command hr (hup x hmem hr halive)
  · obtain ⟨huntold, hcount⟩ := machine_of_mem hp hs₀ h hmem
    rw [← hcount]
    exact reply_of_trail .homeAxis nofun nofun hp hs₀ h hone hmem (fun _ _ _ _ => id)
      (Handle.under_homeAxis_command huntold.scripted) hr (hup x hmem hr halive)
  · rintro ms₁ x ms₂ rfl y hmem args args' r hhomed hr
    have hx : x ∈ ms₁ ++ x :: ms₂ := List.mem_append_right _ List.mem_cons_self
    have hbefore : OneByOne errands ms₁ := fun z hz => hone z (List.mem_append_left _ hz)
    have hall := (homeAll_of_trail hp hs₀ haxes h.at_move.1 hbefore hmem hhomed).2 rfl
    exact reply_of_trail .setTaskMode nofun nofun hp hs₀ h hone hx (fun _ _ _ _ => id)
      (Handle.under_setTaskMode_command hall (machine_of_mem hp hs₀ h hx).1.scripted) hr

end

def reachable (errands : TaskId → Option Errand) :
    Rules Errand.Result (Simulator × Unit) Unit Empty Unit where
  jobs i := (errands i).map Errand.answer
  mayDrop _ := false
  observers := .nobody
  answer
    | .link c, _, (m, _) => some ((m.answer 0 c).1, (m.answer 0 c).2, ())
    | .waitWithin h limit, _, (m, _) =>
      some ((m.waitWithin h limit).1, (m.waitWithin h limit).2, ())
    | .sleep _, _, w => some ((), w)
    | .clock, _, w => some (0, w)
    | .localTime, _, w => some ("", w)
    | .readText _, _, w | .writeText _ _, _, w | .appendText _ _, _, w => some (.error .notFound, w)
  befall _ _ := none

theorem simulated_reachable (errands : TaskId → Option Errand) : (reachable errands).Simulated where
  answer {o c w a w'} h := by
    obtain ⟨m, u⟩ := w
    cases o with
    | link call =>
      cases h
      exact ⟨0, rfl⟩
    | waitWithin handle limit =>
      cases h
      rfl
    | sleep | clock | localTime | readText | writeText | appendText =>
      cases h
      rfl
  befall h := nomatch h

theorem responsive_reachable (errands : TaskId → Option Errand) :
    (reachable errands).Responsive := by
  intro o w
  cases o <;> exact ⟨(), _, rfl⟩

def twoAxes : Plan where
  settings := { controller := { stagingDir := ⟨"/tmp"⟩ } }
  ini := Ini.parse "[TRAJ]\nAXES = 2\n"

def session (i : TaskId) : Option Errand :=
  [.command twoAxes.setup "start_cnc" .null, .command twoAxes.setup "home_all" .null,
    .command twoAxes.setup "ini_params" .null,
    .command twoAxes.setup "home_axis" (.obj [("axis_number", .num (.int 2))]),
    .command twoAxes.setup "stop_cnc" .null, .command twoAxes.setup "start_cnc" .null,
    .command twoAxes.setup "set_task_mode" (.obj [("mode", .str "mdi")]),
    .pollStatus, .pollErrors][i]?

/-- Both polls come on while all axes are homed, and the controller is stopped and started before
the client asks for a mode. -/
def restart : List (Choice Unit) :=
  let comeOn (i : TaskId) (n : Nat) := List.replicate n (Choice.go i ())
  [.start 0] ++ comeOn 0 22 ++ [.start 1, .start 7, .start 8] ++ comeOn 1 10 ++ comeOn 7 8 ++
    comeOn 8 11 ++ comeOn 1 14 ++ [.start 2] ++ comeOn 2 3 ++ [.start 3] ++ comeOn 3 10 ++
    [.start 4] ++ comeOn 4 9 ++ [.start 5] ++ comeOn 5 22 ++ [.start 6] ++ comeOn 6 11

def atRest : Crowd Errand.Result (Simulator × Unit) Empty Unit :=
  { gateway := { left := () }, world := (twoAxes.simulator, ()) }

theorem runs_session : twoAxes.Runs session (reachable session) := by
  refine ⟨fun _ => rfl, fun i setup name args hi => ?_, fun _ _ _ _ => rfl,
    simulated_reachable session, responsive_reachable session⟩
  have hmem := List.mem_of_getElem? hi
  simp only [List.mem_cons, Errand.command.injEq] at hmem
  grind

theorem starts_atRest : twoAxes.Starts atRest :=
  ⟨⟨rfl, rfl⟩, rfl, rfl⟩

def startsOnly (p : TaskId → Bool) : Crowd.Event χ → Bool
  | .started i => p i
  | _ => true

theorem axes_agree_two_axes :
    ∃ ms s, Trail (reachable session) atRest ms s ∧ OneByOne session ms ∧
      (∃ x ∈ ms, Replied session x s twoAxes.setup "home_all" .null (.of .ok)) ∧
      (∃ x ∈ ms, ∃ r, Replied session x s twoAxes.setup "ini_params" .null r ∧
        r.body = .machine twoAxes.setup.machine) ∧
      (∃ x ∈ ms, ∃ r, Replied session x s twoAxes.setup "home_axis"
        (.obj [("axis_number", .num (.int 2))]) r ∧ r ≠ .of .ok) ∧
      ∃ x ∈ ms, ∃ r, Replied session x s twoAxes.setup "set_task_mode"
        (.obj [("mode", .str "mdi")]) r ∧ ¬ Handle.BlamesAxes r := by
  have hcomputed : (trace? (reachable session) restart atRest).map (fun x =>
      (takesCommandsSingly session (List.range 9) x.1,
        x.1.all fun y => startsOnly
          (fun i => !decide (i ∈ [1, 2, 3]) || y.before.gateway.cache.alive) y.event,
        x.1.all fun y => startsOnly (fun i => i != 6 || hasReplied y.before 1) y.event,
        [1, 2, 3, 6].all (hasReplied x.2))) = some (true, true, true, true) := by
    decide +kernel
  obtain ⟨⟨ms, s⟩, htrace, hcomputed⟩ := Option.map_eq_some_iff.1 hcomputed
  obtain ⟨hsingly, hup, hbefore, hdone⟩ := by simpa only [Prod.mk.injEq] using hcomputed
  have htrail := trail_of_trace? .nil htrace
  rw [List.nil_append] at htrail
  have haxes : axisCount twoAxes.ini < UInt32.size := by decide +kernel
  have hone : OneByOne session ms := by
    refine oneByOne_of_takesCommandsSingly (fun i e hi => ?_) hsingly
    exact List.mem_range.2 (List.getElem?_eq_some_iff.1 hi).1
  have halive : ∀ x ∈ ms, ∀ i ∈ [1, 2, 3], x.event = .started i →
      x.before.gateway.cache.alive = true := by
    intro x hx i hi hev
    have hxup := List.all_eq_true.1 hup x hx
    simpa only [startsOnly, hev, decide_eq_true hi, Bool.not_true, Bool.false_or] using hxup
  obtain ⟨-, -, hall, hini, haxis, hmode⟩ := axes_agree runs_session starts_atRest haxes htrail hone
  obtain ⟨x₁, hx₁, hev₁, r₁, hr₁⟩ := exists_replied starts_atRest.fresh htrail
    (show session 1 = _ from rfl) (List.all_eq_true.1 hdone 1 (by decide))
  obtain ⟨x₂, hx₂, hev₂, r₂, hr₂⟩ := exists_replied starts_atRest.fresh htrail
    (show session 2 = _ from rfl) (List.all_eq_true.1 hdone 2 (by decide))
  obtain ⟨x₃, hx₃, hev₃, r₃, hr₃⟩ := exists_replied starts_atRest.fresh htrail
    (show session 3 = _ from rfl) (List.all_eq_true.1 hdone 3 (by decide))
  obtain ⟨x₆, hx₆, hev₆, r₆, hr₆⟩ := exists_replied starts_atRest.fresh htrail
    (show session 6 = _ from rfl) (List.all_eq_true.1 hdone 6 (by decide))
  refine ⟨ms, s, htrail, hone, ⟨x₁, hx₁, ?_⟩, ⟨x₂, hx₂, r₂, hr₂, ?_⟩, ⟨x₃, hx₃, r₃, hr₃, ?_⟩,
    x₆, hx₆, r₆, hr₆, ?_⟩
  · rwa [← hall x₁ hx₁ _ r₁ hr₁ (halive x₁ hx₁ 1 (by decide) hev₁)]
  · exact hini x₂ hx₂ _ r₂ hr₂ (halive x₂ hx₂ 2 (by decide) hev₂)
  · refine mt (haxis x₃ hx₃ _ r₃ hr₃ (halive x₃ hx₃ 3 (by decide) hev₃)).1 ?_
    rintro ⟨axis, horder, hlt⟩
    cases horder
    revert hlt
    decide +kernel
  · -- what happened before the request for a mode is a run of its own
    have hbefore₆ := List.all_eq_true.1 hbefore x₆ hx₆
    simp only [startsOnly, hev₆] at hbefore₆
    obtain ⟨ms₁, ms₂, rfl⟩ := List.append_of_mem hx₆
    have htrail₁ := htrail.at_move.1
    obtain ⟨y, hy, hevy, r, hr⟩ := exists_replied starts_atRest.fresh htrail₁
      (show session 1 = _ from rfl) hbefore₆
    obtain ⟨-, -, hall₁, -⟩ := axes_agree runs_session starts_atRest haxes htrail₁ fun z hz =>
      hone z (List.mem_append_left _ hz)
    have hyup := halive y (List.mem_append_left _ hy) 1 (by decide) hevy
    rw [hall₁ y hy _ r hr hyup] at hr
    exact hmode ms₁ x₆ ms₂ rfl y hy _ _ r₆ hr hr₆

end Wiring

end MillGateway
