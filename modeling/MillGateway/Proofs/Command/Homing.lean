import MillGateway.Proofs.Alone.Machine
import MillGateway.Proofs.Crowd.Simulated

/-! Commands that a simulated controller answers while the cache tells truly whether it runs. Main
statements: homing all axes homes all axes of the settings, homing one axis succeeds exactly if the
settings count it, and who asks for a mode when all axes are homed is not told that they are not. -/

namespace MillGateway

open Machine

open Link (Simulator)

def Link.Simulator.Tells (m : Simulator) : (r : Request) → r.Answer → Prop
  | .inside .cache, c => Cache.alive c = m.running
  | _, _ => True

theorem Crowd.Step.tells [DecidableEq ω] {R : Rules α (Simulator × σ) χ ω ε}
    {s s' : Crowd α (Simulator × σ) ω ε} {e : Crowd.Event χ} (h : Step R s e s') {i : TaskId}
    {r : Request} {a : r.Answer} (he : e.answered? = some (i, ⟨r, a⟩))
    (halive : s.gateway.cache.alive = s.machine.running) : s.machine.Tells r a := by
  cases h with
  | started | queued | asked | dropped | befell => cases he
  | took | woke | gave | heard =>
    cases he
    trivial
  | @looked i x =>
    cases he
    cases x with
    | cache => exact halive
    | _ => trivial

namespace Job

/-- Whether a job that a simulated controller answers ends like this, if the cache is right about
the controller all along. -/
def Under (P : α → Simulator → Prop) : Job α → Simulator → Prop
  | .done a, m => P a m
  | .ask r k, m => ∀ a m', m.Serves r a m' → m.Tells r a → (k a).Under P m'

section

variable {P Q : α → Simulator → Prop} {j : Job α} {m : Simulator}

theorem Under.bind {P' : β → Simulator → Prop} {k : α → Job β} (hj : j.Under P m)
    (hk : ∀ a m', P a m' → (k a).Under P' m') : (j >>= k).Under P' m := by
  induction j generalizing m with
  | done a => exact hk a m hj
  | ask r k' ih => exact fun a m' hserves htells => ih a (hj a m' hserves htells)

theorem Under.mono (hj : j.Under P m) (h : ∀ a m', P a m' → Q a m') : j.Under Q m := by
  induction j generalizing m with
  | done a => exact h a m hj
  | ask r k ih => exact fun a m' hserves htells => ih a (hj a m' hserves htells)

theorem Under.locked {l : Lock} (hj : j.Under P m) : (locked l j).Under P m := by
  rintro _ _ rfl -
  refine hj.bind fun a m' ha => ?_
  rintro _ _ rfl -
  exact ha

theorem under_of_asks (hj : j.Asks fun r => ∀ o, r ≠ .outside o) (m : Simulator) :
    j.Under (fun _ m' => m' = m) m := by
  induction j with
  | done a => rfl
  | ask r k ih =>
    intro a m' hserves htells
    cases r with
    | outside o => exact absurd rfl (hj.1 o)
    | acquire | release | inside =>
      obtain rfl : m' = m := hserves
      exact ih a (hj.2 a)

end

section

variable (m : Simulator)

theorem under_isAlive : isAlive.Under (fun alive m' => alive = m.running ∧ m' = m) m := by
  refine Under.locked ?_
  rintro cache _ rfl htells
  exact ⟨htells, rfl⟩

theorem under_pollStatus : pollStatus.Under
    (fun s? m' => s? = (if m.running then some m.status else none) ∧ m' = m) m := by
  refine Under.locked fun x m' hserves _ => ?_
  obtain ⟨hx, rfl⟩ := Simulator.Answers.pollStatus_eq hserves
  have hinner : ∀ i : Inside, Asks (fun r => ∀ o, r ≠ .outside o) (Job.inside i) :=
    fun i => ⟨nofun, fun _ => trivial⟩
  cases x with
  | error e =>
    have hdown : (discard markDown : Job Unit).Asks fun r => ∀ o, r ≠ .outside o :=
      (Asks.locked nofun nofun (hinner _)).bind fun _ => trivial
    refine (under_of_asks hdown m').bind ?_
    rintro _ _ rfl
    exact ⟨hx, rfl⟩
  | ok s =>
    have hstore : (discard (storeStatus s) : Job Unit).Asks fun r => ∀ o, r ≠ .outside o :=
      (Asks.locked nofun nofun (hinner _)).bind fun _ => trivial
    have hannounce : (discard (Job.inside (.announceStatus s)) : Job Unit).Asks fun r =>
        ∀ o, r ≠ .outside o := (hinner _).bind fun _ => trivial
    refine (under_of_asks hstore m').bind ?_
    rintro _ _ rfl
    refine (under_of_asks hannounce _).bind ?_
    rintro _ _ rfl
    exact ⟨hx, rfl⟩

variable {m}

theorem under_execute_up (hm : m.running = true) (hscripted : m.scripted = []) (a : Link.Action)
    (limit : Nat) : (execute a limit).Under (fun o m' =>
      o = immediateOutcome (.ok (Simulator.apply m.status a).2) ∧
        m'.status = (Simulator.apply m.status a).1 ∧ m'.running = true ∧ m'.scripted = []) m := by
  obtain ⟨h, m', hissue, hlookup, hstatus, hrunning, hscripted'⟩ :=
    Simulator.exists_issue hm hscripted a
  have hsettled := Simulator.isSettled_apply m.status a
  have hcollect := Simulator.collect_of_lookup hlookup hsettled
  have hwait := Simulator.waitWithin_of_lookup hlookup hsettled limit
  refine (under_isAlive m).bind ?_
  rintro _ _ ⟨rfl, hsame⟩
  rw [hm, hsame]
  rintro x _ ⟨next, hserves⟩ -
  obtain ⟨rfl, rfl⟩ := Prod.mk.inj (hissue.symm.trans hserves)
  change Under _ (if limit = 0 then
    ask (.outside (.link (.wait h 0))) fun x => done (immediateOutcome x)
    else ask (.outside (.waitWithin h limit)) fun x => done (awaitedOutcome x)) m'
  split
  · rintro x _ ⟨next', hserves'⟩ -
    obtain ⟨rfl, rfl⟩ := Prod.mk.inj (hcollect.symm.trans hserves')
    exact ⟨rfl, hstatus, hrunning, hscripted'⟩
  · rintro x _ hserves' -
    obtain ⟨rfl, rfl⟩ := Prod.mk.inj (hwait.symm.trans hserves')
    exact ⟨awaitedOutcome_of_settled hsettled, hstatus, hrunning, hscripted'⟩

end

end Job

open Job

namespace Handle

/-! ### The axes that are homed -/

/-- Whether all these axes exist, and nothing is left to home but them. -/
structure Covers (axes : List UInt32) (homed : List Bool) : Prop where
  present : ∀ axis ∈ axes, axis.toNat < homed.length
  rest : ∀ n : Nat, homed[n]? = some false → ∃ axis ∈ axes, axis.toNat = n

theorem covers_axisNumbers {homed : List Bool} (h : homed.length < UInt32.size) :
    Covers (axisNumbers homed.length) homed := by
  have hsize : homed.length % UInt32.size = homed.length := Nat.mod_eq_of_lt h
  have hnumber : ∀ n, n < homed.length → (UInt32.ofNat n).toNat = n := fun n hn =>
    UInt32.toNat_ofNat_of_lt' (Nat.lt_trans hn h)
  unfold axisNumbers
  rw [hsize]
  constructor
  · intro axis haxis
    obtain ⟨n, hn, rfl⟩ := List.mem_map.1 haxis
    have hn := List.mem_range.1 hn
    rwa [hnumber n hn]
  · intro n hn
    have hlt : n < homed.length := (List.getElem?_eq_some_iff.1 hn).1
    exact ⟨.ofNat n, List.mem_map_of_mem (List.mem_range.2 hlt), hnumber n hlt⟩

theorem Covers.tail {axis : UInt32} {axes : List UInt32} {homed : List Bool}
    (h : Covers (axis :: axes) homed) : Covers axes (homed.set axis.toNat true) := by
  constructor
  · intro axis' haxis'
    rw [List.length_set]
    exact h.present axis' (List.mem_cons_of_mem _ haxis')
  · intro n hn
    by_cases hne : axis.toNat = n
    · subst hne
      rw [List.getElem?_set_self (h.present axis List.mem_cons_self)] at hn
      cases hn
    · rw [List.getElem?_set_ne hne] at hn
      obtain ⟨axis', haxis', rfl⟩ := h.rest n hn
      rcases List.mem_cons.1 haxis' with rfl | haxis'
      · exact absurd rfl hne
      · exact ⟨axis', haxis', rfl⟩

theorem Covers.allHomed {s : Status} (h : Covers [] s.homed) : s.allHomed = true := by
  refine List.all_eq_true.2 fun b hb => ?_
  obtain ⟨n, hn⟩ := List.getElem?_of_mem hb
  cases b with
  | true => rfl
  | false =>
    obtain ⟨axis, haxis, -⟩ := h.rest n hn
    cases haxis

section

variable {m : Simulator}

theorem under_homeEach {axes : List UInt32} (h : Covers axes m.status.homed)
    (hm : m.running = true) (hscripted : m.scripted = []) :
    (homeEach axes).Under (fun o m' => o = .ok ∧ m'.status.allHomed = true) m := by
  induction axes generalizing m with
  | nil => exact ⟨rfl, h.allHomed⟩
  | cons axis axes ih =>
    have happly := Simulator.apply_home_of_lt (h.present axis List.mem_cons_self)
    unfold homeEach
    refine (under_execute_up hm hscripted (.home axis) _).bind ?_
    rintro _ m' ⟨rfl, hstatus, hm', hscripted'⟩
    rw [happly] at hstatus ⊢
    refine ih ?_ hm' hscripted'
    rw [hstatus]
    exact h.tail

theorem under_homeAll {s : Setup} (hm : m.running = true) (hscripted : m.scripted = [])
    (hcount : m.status.homed.length = s.machine.axisCount)
    (haxes : s.machine.axisCount < UInt32.size) :
    (homeAll s).Under (fun r m' => r = .of .ok ∧ m'.status.allHomed = true) m := by
  have hattempt : (attempt (.mode .manual) Timing.noWait).Under (fun _ m' =>
      m'.status.homed = m.status.homed ∧ m'.running = true ∧ m'.scripted = []) m := by
    refine (under_execute_up hm hscripted _ _).bind ?_
    rintro _ m' ⟨-, hstatus, hm', hscripted'⟩
    exact ⟨by rw [hstatus]; rfl, hm', hscripted'⟩
  refine hattempt.bind ?_
  rintro _ m' ⟨hhomed, hm', hscripted'⟩
  rw [← hcount, ← hhomed]
  refine (under_homeEach (covers_axisNumbers ?_) hm' hscripted').bind ?_
  · rwa [hhomed, hcount]
  · rintro _ m'' ⟨rfl, hall⟩
    exact ⟨rfl, hall⟩

theorem under_homeAxis (hm : m.running = true) (hscripted : m.scripted = []) (axis : UInt32) :
    (act (.home axis) Timing.home).Under
      (fun r _ => r = .of .ok ↔ axis.toNat < m.status.homed.length) m := by
  refine (under_execute_up hm hscripted _ _).bind ?_
  rintro _ m' ⟨rfl, -⟩
  by_cases haxis : axis.toNat < m.status.homed.length
  · rw [Simulator.apply_home_of_lt haxis]
    exact iff_of_true rfl haxis
  · rw [Simulator.apply_home_of_not_lt haxis]
    exact iff_of_false nofun haxis

theorem not_axesHomed_of_allHomed {s : Status} (hs : s.allHomed = true) {mode : TaskMode}
    {r : EntryRefusal} (h : s.entryRefusal? mode = some r) : r.unmet ≠ .axesHomed := by
  obtain ⟨p, hp, rfl⟩ := Option.map_eq_some_iff.1 h
  have hunmet := List.find?_some hp
  rintro rfl
  simp [Precondition.isMet, hs] at hunmet

def BlamesAxes (r : Reply) : Prop :=
  ∃ mode, r.outcome = .entryRefused ⟨mode, .axesHomed⟩

theorem under_setTaskMode (hall : m.status.allHomed = true) (hscripted : m.scripted = [])
    (mode : TaskMode) : (setTaskMode mode).Under (fun r _ => ¬ BlamesAxes r) m := by
  have hother : ∀ o : Outcome, (∀ r, o ≠ .entryRefused r) → ¬ BlamesAxes (.of o) :=
    fun o ho ⟨mode, hr⟩ => ho _ hr
  unfold setTaskMode
  split
  · exact hother _ nofun
  · refine (under_pollStatus m).bind ?_
    rintro _ _ ⟨rfl, hsame⟩
    rw [hsame]
    cases hm : m.running with
    | false => exact hother _ nofun
    | true =>
      simp only [if_true]
      split
      next r hr =>
        rintro ⟨mode', hblame⟩
        cases hblame
        exact not_axesHomed_of_allHomed hall hr rfl
      next =>
        refine (under_execute_up hm hscripted _ _).bind ?_
        rintro _ m' ⟨rfl, -⟩
        refine hother _ fun r => ?_
        rcases Simulator.done_or_error m.status (.mode mode) with hc | hc
        · rw [hc]
          exact nofun
        · rw [hc]
          exact nofun

end

/-! ### The commands -/

section

variable {m : Simulator} {s : Setup} {args : Json}

theorem under_handleCommand {P : Reply → Simulator → Prop} {c : Command}
    (hlink : c.requiresLink = true) (hup : m.running = true → (carryOut s c args).Under P m)
    (hdown : m.running = false → P (.of .notRunning) m) :
    (handleCommand s c.name args).Under P m := by
  rw [handleCommand_of_name (Command.ofName?_name c), if_pos hlink]
  refine (under_isAlive m).bind ?_
  rintro _ _ ⟨rfl, hsame⟩
  rw [hsame]
  cases hm : m.running with
  | true => exact hup hm
  | false => exact hdown hm

theorem under_homeAll_command (hscripted : m.scripted = [])
    (hcount : m.status.homed.length = s.machine.axisCount)
    (haxes : s.machine.axisCount < UInt32.size) :
    (handleCommand s Command.homeAll.name args).Under (fun r m' =>
      (m.running = true → r = .of .ok) ∧ (r = .of .ok → m'.status.allHomed = true)) m := by
  refine under_handleCommand rfl (fun hm => ?_) fun hm => ?_
  · refine (under_homeAll hm hscripted hcount haxes).mono fun r m' ⟨hr, hall⟩ => ?_
    exact ⟨fun _ => hr, fun _ => hall⟩
  · refine ⟨fun hup => ?_, nofun⟩
    rw [hm] at hup
    cases hup

theorem under_homeAxis_command (hscripted : m.scripted = []) :
    (handleCommand s Command.homeAxis.name args).Under (fun r _ => m.running = true →
      (r = .of .ok ↔ ∃ axis, orderOf? Command.homeAxis.name args = some (.homeAxis axis) ∧
        axis.toNat < m.status.homed.length)) m := by
  have horder : orderOf? Command.homeAxis.name args =
      (Order.read .homeAxis (argsOrEmpty args)).toOption := by
    rw [orderOf?, Command.ofName?_name]
    rfl
  refine under_handleCommand rfl (fun hm => ?_) fun hm hup => ?_
  · rw [carryOut, horder]
    cases hread : Order.read .homeAxis (argsOrEmpty args) with
    | error e =>
      intro _
      constructor
      · intro hr
        cases hr
      · rintro ⟨_, hnone, _⟩
        cases hnone
    | ok o =>
      obtain ⟨axis, -, rfl⟩ := exists_of_map_eq_ok hread
      refine (under_homeAxis hm hscripted axis).mono fun r m' hr _ => hr.trans ?_
      refine ⟨fun haxis => ⟨axis, rfl, haxis⟩, ?_⟩
      rintro ⟨axis', haxis', hlt⟩
      cases haxis'
      exact hlt
  · rw [hm] at hup
    cases hup

theorem under_iniParams_command :
    (handleCommand s Command.iniParams.name args).Under (fun r _ =>
      m.running = true → r.body = .machine s.machine) m := by
  refine under_handleCommand rfl (fun _ _ => rfl) fun hm hup => ?_
  rw [hm] at hup
  cases hup

theorem under_setTaskMode_command (hall : m.status.allHomed = true) (hscripted : m.scripted = []) :
    (handleCommand s Command.setTaskMode.name args).Under (fun r _ => ¬ BlamesAxes r) m := by
  refine under_handleCommand rfl (fun _ => ?_) fun _ ⟨_, hr⟩ => by cases hr
  rw [carryOut]
  cases hread : Order.read .setTaskMode (argsOrEmpty args) with
  | error e => exact fun ⟨_, hr⟩ => by cases hr
  | ok o =>
    obtain ⟨mode, -, rfl⟩ := exists_of_map_eq_ok hread
    exact under_setTaskMode hall hscripted mode

end

end Handle

end MillGateway
