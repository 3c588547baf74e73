import MillGateway.Proofs.Alone.Machine

/-! What the world's answers do to the simulated controller behind its gate, where calls are held up
or fail. Main statements: a call that fails at the gate does not reach the controller, any other has
its effect once, and while no wait is hindered each wait collects once, given up or not. -/

namespace MillGateway

open Link

def Outside.isAtGate : Outside → Bool
  | .link _ | .waitWithin _ _ => true
  | _ => false

namespace Link.Gate

variable {g : Gate} {c : Call}

structure Settles (g : Gate) (c : Call) (a : c.Answer) (g' : Gate) : Prop where
  machine : (∃ next, g.machine.answer next c = (a, g'.machine)) ∨
    (∃ text, a = .error (.reported text)) ∧ g'.machine = g.machine
  waits : g'.queue .wait = g.queue .wait

theorem settles_perform (hc : c.point ≠ .wait) :
    ∃ a g', g.perform c = (.inl a, g') ∧ g.Settles c a g' := by
  cases c with
  | wait h limit => exact absurd rfl hc
  | pollStatus | pollChannel | issue | launch | shutdown =>
    exact ⟨_, _, rfl, .inl ⟨g.opened + 1, rfl⟩, rfl⟩
  | openChannel =>
    cases hrunning : g.machine.running with
    | true =>
      refine ⟨.ok (g.opened + 1), { g with opened := g.opened + 1 }, ?_, .inl ⟨g.opened + 1, ?_⟩, rfl⟩
      · simp [perform, Simulator.answer, hrunning]
      · simp [Simulator.answer, hrunning]
    | false =>
      refine ⟨.error (.channelUnavailable g.machine.name), g, ?_, .inl ⟨g.opened + 1, ?_⟩, rfl⟩
      · simp [perform, Simulator.answer, hrunning]
      · simp [Simulator.answer, hrunning]

theorem settles_pass (hc : c.point ≠ .wait) (fail? : Option String) :
    ∃ a g', g.pass c fail? = (.inl a, g') ∧ g.Settles c a g' := by
  cases fail? with
  | none => exact settles_perform hc
  | some text => exact ⟨_, g, rfl, .inr ⟨⟨text, rfl⟩, rfl⟩, rfl⟩

theorem Settles.of_queue {queue : Point → List (Option Fault)} {a : c.Answer} {g' : Gate}
    (hqueue : queue .wait = g.queue .wait) (h : { g with queue := queue }.Settles c a g') :
    g.Settles c a g' :=
  ⟨h.machine, h.waits.trans hqueue⟩

theorem settles_enter (hc : c.point ≠ .wait) :
    (∃ a g', g.enter c = (.inl a, g') ∧ g.Settles c a g') ∨
      ∃ ms fail? queue, g.enter c = (.inr (ms, .held fail?), { g with queue := queue }) ∧
        queue .wait = g.queue .wait := by
  rw [enter]
  cases hqueue : g.queue c.point with
  | nil => exact .inl (settles_perform hc)
  | cons fault rest =>
    have hwaits : (if Point.wait = c.point then rest else g.queue .wait) = g.queue .wait :=
      if_neg hc.symm
    cases fault with
    | none =>
      obtain ⟨a, g', hperform, h⟩ := settles_perform (g := { g with
        queue := fun q => if q = c.point then rest else g.queue q }) hc
      exact .inl ⟨a, g', hperform, h.of_queue hwaits⟩
    | some f =>
      dsimp only
      split
      · obtain ⟨a, g', hpass, h⟩ := settles_pass (g := { g with
          queue := fun q => if q = c.point then rest else g.queue q }) hc f.fail?
        exact .inl ⟨a, g', hpass, h.of_queue hwaits⟩
      · exact .inr ⟨f.delay, f.fail?, _, rfl, hwaits⟩

end Link.Gate

namespace Schedule.World

variable {w : World}

theorem settles_answer {c : Call} (hc : c.point ≠ .wait) (w : World) :
    w.gate.Settles c (w.answer (.link c)).1 (w.answer (.link c)).2.gate := by
  rcases w.gate.settles_enter hc with ⟨a, g', henter, h⟩ | ⟨ms, fail?, queue, henter, hwaits⟩
  · have hanswer : w.answer (.link c) = (a, { w with gate := g' }) := by
      apply answer_eq
      rw [ask, henter]
      rfl
    rw [hanswer]
    exact h
  · obtain ⟨a, g', hpass, h⟩ := Gate.settles_pass (g := { w.gate with queue := queue }) hc fail?
    have hanswer : w.answer (.link c) =
        (a, { w with gate := g', now := max w.now (w.now + ms) }) := by
      apply answer_eq
      rw [ask, henter]
      show await (.link c) 1 (World.resume (.link c) ⟨w.now + ms, .stage (.held fail?), none⟩
        { w with gate := { w.gate with queue := queue }, now := max w.now (w.now + ms) }) = _
      have hresume : ({ w.gate with queue := queue } : Gate).resume c (.held fail?) = (.inl a, g') :=
        hpass
      rw [World.resume]
      dsimp only
      rw [hresume]
      rfl
    rw [hanswer]
    exact h.of_queue hwaits

theorem enter_wait (hw : w.gate.queue .wait = []) (h : Handle) (limit : Nat) :
    w.gate.enter (.wait h limit) =
        (.inl (w.gate.machine.collect h).1,
          { w.gate with machine := (w.gate.machine.collect h).2 }) ∨
      ∃ ms reached, w.gate.enter (.wait h limit) = (.inr (ms, .settling reached),
        { w.gate with machine := (w.gate.machine.collect h).2 }) := by
  have henter : w.gate.enter (.wait h limit) = w.gate.perform (.wait h limit) := by
    have hqueue : w.gate.queue (Call.wait h limit).point = [] := hw
    rw [Gate.enter, hqueue]
  rw [henter, Gate.perform, Simulator.answer]
  cases w.gate.machine.collect h with
  | mk x m =>
    cases x with
    | error e => exact .inl rfl
    | ok reached =>
      dsimp only
      split
      · exact .inl rfl
      · exact .inr ⟨_, reached, rfl⟩

theorem gate_answer_wait (hw : w.gate.queue .wait = []) (h : Handle) (limit : Nat) :
    (w.answer (.link (.wait h limit))).2.gate =
      { w.gate with machine := (w.gate.machine.collect h).2 } := by
  rcases enter_wait hw h limit with henter | ⟨ms, reached, henter⟩
  · have hanswer : w.answer (.link (.wait h limit)) = ((w.gate.machine.collect h).1,
        { w with gate := { w.gate with machine := (w.gate.machine.collect h).2 } }) := by
      apply answer_eq
      rw [ask, henter]
      rfl
    rw [hanswer]
  · have hanswer : w.answer (.link (.wait h limit)) = (.ok reached,
        { w with
          gate := { w.gate with machine := (w.gate.machine.collect h).2 }
          now := max w.now (w.now + ms) }) := by
      apply answer_eq
      rw [ask, henter]
      rfl
    rw [hanswer]

theorem gate_answer_waitWithin (hw : w.gate.queue .wait = []) (h : Handle) (limit : Nat) :
    (w.answer (.waitWithin h limit)).2.gate =
      { w.gate with machine := (w.gate.machine.collect h).2 } := by
  suffices ∃ x? now, w.answer (.waitWithin h limit) = (x?,
      { w with gate := { w.gate with machine := (w.gate.machine.collect h).2 }, now := now }) by
    obtain ⟨x?, now, hanswer⟩ := this
    rw [hanswer]
  rcases enter_wait hw h limit with henter | ⟨ms, reached, henter⟩
  · refine ⟨some (w.gate.machine.collect h).1, w.now, answer_eq ?_⟩
    rw [ask, henter]
    rfl
  · by_cases hin : w.now + ms ≤ w.now + limit
    · refine ⟨some (.ok reached), max w.now (w.now + ms), answer_eq ?_⟩
      rw [ask, henter]
      dsimp only
      rw [within, if_pos hin]
      rfl
    · by_cases hover : w.now + limit ≤ w.now
      · refine ⟨none, w.now, answer_eq ?_⟩
        rw [ask, henter]
        dsimp only
        rw [within, if_neg hin, if_pos hover]
        rfl
      · refine ⟨none, max w.now (w.now + limit), answer_eq ?_⟩
        rw [ask, henter]
        dsimp only
        rw [within, if_neg hin, if_neg hover]
        rfl

theorem gate_answer {o : Outside} (ho : o.isAtGate = false) (w : World) :
    (w.answer o).2.gate = w.gate := by
  cases o with
  | link | waitWithin => cases ho
  | sleep ms =>
    obtain ⟨now, hanswer⟩ := w.answer_sleep ms
    rw [hanswer]
  | clock => rfl
  | localTime => rfl
  | readText p => rw [answer_readText]
  | writeText p text =>
    rw [answer_writeText]
    cases w.files.write p text <;> rfl
  | appendText p text =>
    rw [answer_appendText]
    cases w.files.append p text <;> rfl

end Schedule.World

end MillGateway
