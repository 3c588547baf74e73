import MillGateway.Job.Execute
import MillGateway.Proofs.Alone.Basic
import MillGateway.Proofs.Link.Simulator

/-! Jobs alone with a simulated controller that nobody interferes with: no call waits or fails, and
every action has its own effect. -/

namespace MillGateway

open Machine

namespace Schedule.World

open Link

structure Still (w : World) : Prop where
  unhindered : ∀ p, w.gate.queue p = []
  unscripted : w.gate.machine.scripted = []

def withMachine (w : World) (m : Simulator) : World :=
  { w with gate := { w.gate with machine := m } }

section

variable {w : World}

theorem Still.withMachine (hw : w.Still) {m : Simulator} (hm : m.scripted = []) :
    (w.withMachine m).Still :=
  ⟨hw.unhindered, hm⟩

theorem Still.enter (hw : w.Still) (c : Call) : w.gate.enter c = w.gate.perform c := by
  rw [Gate.enter, hw.unhindered]

theorem Still.answer_link (hw : w.Still) {c : Call} {a : c.Answer} {m : Simulator}
    (h : w.gate.perform c = (.inl a, { w.gate with machine := m })) :
    w.answer (.link c) = (a, w.withMachine m) := by
  apply answer_eq
  rw [ask, hw.enter, h]
  rfl

theorem Still.answer_waitWithin (hw : w.Still) {h : Handle} {limit : Nat}
    {a : Call.Answer (.wait h limit)} {m : Simulator}
    (hperform : w.gate.perform (.wait h limit) = (.inl a, { w.gate with machine := m })) :
    w.answer (.waitWithin h limit) = (some a, w.withMachine m) := by
  apply answer_eq
  rw [ask, hw.enter, hperform]
  rfl

theorem perform_wait {h : Handle} {c : Completion}
    (hlookup : w.gate.machine.completions.lookup h = some c) (hsettled : c.isSettled = true)
    (limit : Nat) : ∃ m, w.gate.perform (.wait h limit) =
      (.inl (.ok c), { w.gate with machine := m }) ∧ m.status = w.gate.machine.status ∧
        m.running = w.gate.machine.running ∧ m.scripted = w.gate.machine.scripted := by
  have hdelay : Simulator.delay (.wait h limit) (.ok c) = 0 := if_pos hsettled
  refine ⟨{ w.gate.machine with
    completions := w.gate.machine.completions.filter (·.1 != h) }, ?_, rfl, rfl, rfl⟩
  rw [Gate.perform, Simulator.answer, Simulator.collect_of_lookup hlookup hsettled]
  dsimp only
  rw [hdelay]
  rfl

theorem answer_sleep (w : World) (ms : Nat) :
    ∃ now, w.answer (.sleep ms) = ((), { w with now := now }) := by
  by_cases h : ms = 0
  · refine ⟨w.now, answer_eq ?_⟩
    rw [ask, if_pos h]
    rfl
  · refine ⟨max w.now (w.now + ms), answer_eq ?_⟩
    rw [ask, if_neg h]
    rfl

end

end Schedule.World

namespace Scene

def withMachine (s : Scene ω ε) (m : Link.Simulator) : Scene ω ε :=
  { s with world := s.world.withMachine m }

def withGateway (s : Scene ω ε) (g : Gateway ω ε) : Scene ω ε :=
  { s with gateway := g }

end Scene

def Gateway.informed [DecidableEq ω] (observers : Observers ω ε) (g : Gateway ω ε) (s : Status) :
    Gateway ω ε :=
  ({ g with cache := g.cache.store s }.announce .status (observers.onStatus s)).2

namespace Job

variable [DecidableEq ω] (observers : Observers ω ε) {s : Scene ω ε}

theorem alone_isAlive (s : Scene ω ε) :
    isAlive.alone observers s = (s.gateway.cache.alive, s) := by
  rw [isAlive, alone_locked]
  rfl

theorem alone_snapshot (s : Scene ω ε) :
    snapshot.alone observers s = (s.gateway.cache.snapshot, s) := by
  rw [snapshot, alone_locked]
  rfl

theorem alone_link (hs : s.world.Still) {c : Link.Call} {a : c.Answer} {m : Link.Simulator}
    (h : s.world.gate.perform c = (.inl a, { s.world.gate with machine := m }))
    (k : c.Answer → Job α) :
    (ask (.outside (.link c)) k).alone observers s = (k a).alone observers (s.withMachine m) := by
  rw [alone_ask, Scene.answer, hs.answer_link h]
  rfl

theorem alone_waitWithin (hs : s.world.Still) {h : Link.Handle} {limit : Nat}
    {a : Link.Call.Answer (.wait h limit)} {m : Link.Simulator}
    (hperform : s.world.gate.perform (.wait h limit) =
      (.inl a, { s.world.gate with machine := m }))
    (k : (Outside.waitWithin h limit).Answer → Job α) :
    (ask (.outside (.waitWithin h limit)) k).alone observers s =
      (k (some a)).alone observers (s.withMachine m) := by
  rw [alone_ask, Scene.answer, hs.answer_waitWithin hperform]
  rfl

/-! ### Status polls -/

theorem alone_pollStatus_running (hs : s.world.Still) (hrunning : s.machine.running = true) :
    pollStatus.alone observers s = (some s.machine.status,
      s.withGateway (s.gateway.informed observers s.machine.status)) := by
  have hperform : s.world.gate.perform .pollStatus =
      (.inl (.ok s.machine.status), s.world.gate) := by
    show (Sum.inl s.machine.pollStatus, s.world.gate) = _
    rw [Link.Simulator.pollStatus, if_pos hrunning]
  rw [pollStatus, alone_locked]
  exact alone_link observers hs hperform _

theorem alone_pollStatus_stopped (hs : s.world.Still) (hstopped : s.machine.running = false) :
    pollStatus.alone observers s =
      (none, s.withGateway { s.gateway with cache := s.gateway.cache.markDown }) := by
  have hperform : s.world.gate.perform .pollStatus =
      (.inl (.error (.notRunning s.machine.name)), s.world.gate) := by
    show (Sum.inl s.machine.pollStatus, s.world.gate) = _
    rw [Link.Simulator.pollStatus, hstopped]
    rfl
  rw [pollStatus, alone_locked]
  exact alone_link observers hs hperform _

/-! ### Actions -/

theorem alone_execute_down (hdown : s.gateway.cache.alive = false) (a : Link.Action) (limit : Nat) :
    (execute a limit).alone observers s = (.notRunning, s) := by
  rw [execute]
  show (isAlive.bind _).alone observers s = _
  rw [alone_bind, alone_isAlive, hdown]
  rfl

theorem awaitedOutcome_of_settled {c : Link.Completion} (h : c.isSettled = true) :
    awaitedOutcome (some (.ok c)) = immediateOutcome (.ok c) := by
  cases c with
  | done | error => rfl
  | started | executing => cases h

theorem alone_execute_up (hs : s.world.Still) (halive : s.gateway.cache.alive = true)
    (hrunning : s.machine.running = true) (a : Link.Action) (limit : Nat) :
    ∃ m, (execute a limit).alone observers s =
        (immediateOutcome (.ok (Link.Simulator.apply s.machine.status a).2), s.withMachine m) ∧
      m.status = (Link.Simulator.apply s.machine.status a).1 ∧ m.running = true ∧
      m.scripted = [] := by
  obtain ⟨h, m, hissue, hlookup, hstatus, hrunning', hscripted⟩ :=
    Link.Simulator.exists_issue hrunning hs.unscripted a
  have hperform : s.world.gate.perform (.issue a) =
      (.inl (.ok h), { s.world.gate with machine := m }) := by
    show (Sum.inl (s.machine.issue a).1, { s.world.gate with machine := (s.machine.issue a).2 }) = _
    rw [hissue]
  have hsettled := Link.Simulator.isSettled_apply s.machine.status a
  have hs' : (s.withMachine m).world.Still := hs.withMachine hscripted
  obtain ⟨m', hwait, hstatus', hrunning'', hscripted'⟩ :=
    Schedule.World.perform_wait (w := (s.withMachine m).world) hlookup hsettled limit
  refine ⟨m', ?_, hstatus'.trans hstatus, hrunning''.trans hrunning', hscripted'.trans hscripted⟩
  rw [execute]
  show (isAlive.bind _).alone observers s = _
  rw [alone_bind, alone_isAlive, halive]
  refine (alone_link observers hs hperform _).trans ?_
  show Job.alone observers (if limit = 0 then
    ask (.outside (.link (.wait h 0))) fun x => done (immediateOutcome x)
    else ask (.outside (.waitWithin h limit)) fun x => done (awaitedOutcome x)) _ = _
  split
  next hlimit =>
    subst hlimit
    exact alone_link observers hs' hwait _
  next =>
    rw [← awaitedOutcome_of_settled hsettled]
    exact alone_waitWithin observers hs' hwait _

end Job

end MillGateway
