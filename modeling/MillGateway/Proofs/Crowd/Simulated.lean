import MillGateway.Proofs.Command.Parts
import MillGateway.Proofs.Crowd.Trail
import MillGateway.Proofs.Link.Simulator

/-! Tasks side by side with a simulated controller outside. Main statement: a step changes the
controller only as the answer that it gives does, and whatever answers leave alone stays. -/

namespace MillGateway

namespace Link.Simulator

def Serves (m : Simulator) : (r : Request) → r.Answer → Simulator → Prop
  | .outside o, a, m' => m.Answers o a m'
  | .acquire _, _, m' | .release _, _, m' | .inside _, _, m' => m' = m

variable {m m' : Simulator} {r : Request} {a : r.Answer}

theorem Serves.later (h : m.Serves r a m') : m.Later m' := by
  cases r with
  | outside o => exact Answers.later h
  | acquire | release | inside =>
    obtain rfl : m' = m := h
    exact .refl m'

theorem Serves.running_eq (h : m.Serves r a m') (hr : r.isSwitch = false) :
    m'.running = m.running := by
  cases r with
  | outside o =>
    refine Answers.running_eq h ?_ ?_ <;>
    · rintro rfl
      cases hr
  | acquire | release | inside => exact congrArg running h

theorem Serves.running_of_error {c : Call} {e : Error}
    (h : m.Serves (.outside (.link c)) (.error e) m') : m'.running = m.running := by
  cases c with
  | launch => rw [Answers.eq_of_launch_error h]
  | shutdown =>
    obtain ⟨next, h⟩ := h
    cases (Prod.mk.inj h).1
  | pollStatus | openChannel | pollChannel | issue | wait => exact h.running_eq rfl

end Link.Simulator

open Link (Simulator)

namespace Crowd

/-- Whether the world outside holds a simulated controller, which nothing but calls changes. -/
structure Rules.Simulated (R : Rules α (Simulator × σ) χ ω ε) : Prop where
  answer : ∀ {o c w a w'}, R.answer o c w = some (a, w') → w.1.Answers o a w'.1
  befall : ∀ {c r w r' w'}, R.befall c (r, w) = some (r', w') → w'.1 = w.1

def machine (s : Crowd α (Simulator × σ) ω ε) : Simulator :=
  s.world.1

variable [DecidableEq ω] {R : Rules α (Simulator × σ) χ ω ε}
  {s s' : Crowd α (Simulator × σ) ω ε} {e : Event χ}

theorem Step.serves (hR : R.Simulated) (h : Step R s e s') {i : TaskId} {r : Request}
    {a : r.Answer} (he : e.answered? = some (i, ⟨r, a⟩)) : s.machine.Serves r a s'.machine := by
  cases h with
  | started | queued | asked | dropped | befell => cases he
  | took | woke | gave | looked =>
    cases he
    rfl
  | heard hi ha =>
    cases he
    exact hR.answer ha

theorem Step.machine_of_unanswered (hR : R.Simulated) (h : Step R s e s')
    (he : e.answered? = none) : s'.machine = s.machine := by
  cases h with
  | took | woke | gave | looked | heard => cases he
  | started | queued | asked | dropped => rfl
  | befell h => exact hR.befall h

theorem Step.later (hR : R.Simulated) (h : Step R s e s') : s.machine.Later s'.machine := by
  cases he : e.answered? with
  | none =>
    rw [h.machine_of_unanswered hR he]
    exact .refl _
  | some x => exact (h.serves hR he).later

theorem Trail.machine_induction {P : Simulator → Prop}
    (hP : ∀ m m', Simulator.Later m m' → P m → P m') (hR : R.Simulated)
    {ms : List (Move α (Simulator × σ) χ ω ε)} (h : Trail R s ms s') (hs : P s.machine) :
    P s'.machine :=
  h.induction (fun hstep => hP _ _ (hstep.later hR)) hs

end Crowd

end MillGateway
