import MillGateway.Proofs.Command.Locking
import MillGateway.Proofs.Poll.Glance
import MillGateway.Proofs.Poll.Order
import MillGateway.Proofs.Schedule.Trails

/-! What the gateway's tasks come to when they take turns. Main statement: between turns at most one
of them waits for the status of the controller, the cache is that of an outcome, and nobody holds its
lock. -/

namespace MillGateway.Schedule

open Crowd Job
open Poll (Errand)

variable [DecidableEq ω] {jobs : TaskId → Option (Job Errand.Result)} {mayDrop : TaskId → Bool}
  {s : Schedule Errand.Result ω ε}

theorem polls_apart_of_runFor (h : s.Begins jobs mayDrop)
    (hjobs : ∀ i j, jobs i = some j → ∃ e : Errand, j = e.answer)
    (hcache : s.shared.gateway.cache = {}) (busy : Schedule Errand.Result ω ε → Bool) (n : Nat) :
    (∀ t ∈ (s.runFor busy n).tasks, ∀ t' ∈ (s.runFor busy n).tasks, ∀ d k d' k',
      t.stand = .waiting (.link .pollStatus) d k → t'.stand = .waiting (.link .pollStatus) d' k' →
        t'.id = t.id) ∧
    (∃ o, (s.runFor busy n).shared.gateway.cache = .ofOutcome o) ∧
    ((s.runFor busy n).shared.locks .cache).holder = none := by
  have hkeeps : ∀ i j, jobs i = some j → j.Keeps Discipline Discipline.Ends [] := by
    intro i j hj
    obtain ⟨e, rfl⟩ := hjobs i j hj
    exact Locking.returns_answer e _ rfl
  have hpolls : ∀ i j, jobs i = some j → j.Keeps Poll.Turn Poll.Ends .idle := by
    intro i j hj
    obtain ⟨e, rfl⟩ := hjobs i j hj
    exact Poll.keeps_answer e
  obtain ⟨ms, places, runs, -, hmirrors⟩ := h.mirrors.runFor hkeeps ⟨rfl, rfl⟩ busy n
  obtain ⟨ph, hpolled⟩ := Poll.polled_of_run hpolls ⟨rfl, rfl⟩ hmirrors.trail.run
  refine ⟨fun t ht t' ht' d k d' k' hstand hstand' => ?_, ?_, ?_⟩
  · have hat := (hmirrors.tasks t ht).stand
    have hat' := (hmirrors.tasks t' ht').stand
    rw [hstand] at hat
    rw [hstand'] at hat'
    exact nameAt_injective runs (hpolled.eq_of_reading hat hat')
  · exact ⟨_, Poll.cache_eq_latest hcache hmirrors.trail.run⟩
  · have hfree := Glance.free_of_trail hjobs ⟨rfl, rfl⟩ hmirrors.trail hmirrors.inTurns
      hmirrors.yields
    exact Option.map_eq_none_iff.1 hfree

end MillGateway.Schedule
