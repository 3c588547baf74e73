import MillGateway.Proofs.Crowd.Play
import MillGateway.Proofs.Crowd.Queues
import MillGateway.Proofs.Poll.Protocol
import MillGateway.Proofs.Tool.Edits

/-! Which locks the tasks of the gateway hold, and what they wait for meanwhile. Main statement: who
waits for a lock waits for a task that can come on, and no such task is one that has the controller
do something. -/

namespace MillGateway

open Crowd Job

def Lock.allows (l : Lock) : Request → Bool
  | .inside _ => true
  | .outside o => l.admits o
  | .acquire _ | .release _ => false

def Request.isLock : Request → Bool
  | .acquire _ | .release _ => true
  | .inside _ | .outside _ => false

theorem Request.not_isLock_of_isReport {r : Request} (h : r.isReport = true) : r.isLock = false := by
  cases r with
  | inside | outside => rfl
  | acquire | release => cases h

def Outside.isCommandWait : Outside → Bool
  | .link (.issue _) | .link (.wait _ _) | .link .launch | .link .shutdown => true
  | .waitWithin _ _ | .sleep _ => true
  | _ => false

theorem Lock.not_admits_of_isCommandWait {o : Outside} (h : o.isCommandWait = true) (l : Lock) :
    l.admits o = false := by
  cases o with
  | link c => cases c <;> cases l <;> first | rfl | cases h
  | waitWithin | sleep => cases l <;> rfl
  | clock | localTime | readText | writeText | appendText => cases h

namespace Discipline

/-! ### What the gateway does -/

theorem returns_locked {l : Lock} {j : Job α} (hj : j.Asks fun r => l.allows r = true) :
    (locked l j).Returns Discipline (· = []) := by
  rintro _ rfl
  refine fun _ => ⟨[l], .take (List.forall_mem_nil _), ?_⟩
  have hkeeps : j.Keeps Discipline (fun held _ => held = [l]) [l] := by
    refine hj.keeps (fun r a hr => ?_) fun _ => rfl
    cases r with
    | inside x => exact .look
    | outside o => exact .ask (List.forall_mem_singleton.2 hr)
    | acquire | release => cases hr
  refine hkeeps.bind ?_
  rintro held a rfl
  exact fun _ => ⟨[], .give List.not_mem_nil, rfl⟩

theorem spares_lockless : Discipline.Spares (· = []) fun r => r.isLock = false := by
  rintro _ r a rfl hr
  cases r with
  | inside x => exact ⟨[], .look, rfl⟩
  | outside o => exact ⟨[], .ask (List.forall_mem_nil _), rfl⟩
  | acquire | release => cases hr

theorem returns_isAlive : isAlive.Returns Discipline (· = []) :=
  returns_locked ⟨rfl, fun _ => trivial⟩

theorem returns_pollStatus : pollStatus.Returns Discipline (· = []) := by
  have hcache : ∀ l ∈ [Lock.polling], l.rank < Lock.cache.rank := by decide
  have hpoll : ∀ l ∈ [Lock.polling], l.admits (.link .pollStatus) = true := by decide
  have hfree : Lock.cache ∉ [Lock.polling] := by decide
  rintro _ rfl
  refine fun _ => ⟨[.polling], .take (List.forall_mem_nil _), fun x => ⟨_, .ask hpoll, ?_⟩⟩
  cases x with
  | error e =>
    refine fun _ => ⟨[.cache, .polling], .take hcache, fun b => ⟨_, .look, ?_⟩⟩
    exact fun _ => ⟨_, .give hfree, fun _ => ⟨_, .give List.not_mem_nil, rfl⟩⟩
  | ok s =>
    refine fun _ => ⟨[.cache, .polling], .take hcache, fun b => ⟨_, .look, ?_⟩⟩
    refine fun _ => ⟨_, .give hfree, fun n => ⟨_, .look, ?_⟩⟩
    exact fun _ => ⟨_, .give List.not_mem_nil, rfl⟩

theorem returns_takeMessage : takeMessage.Returns Discipline (· = []) := by
  refine returns_locked (Asks.bind ⟨rfl, fun c? => ?_⟩ fun c? => ?_)
  · cases c? with
    | some c => trivial
    | none =>
      refine ⟨rfl, fun opened => ?_⟩
      cases opened with
      | ok c => exact ⟨rfl, fun _ => trivial⟩
      | error e => trivial
  · cases c? with
    | none => trivial
    | some c =>
      refine ⟨rfl, fun m? => ?_⟩
      cases m? with
      | ok m? => trivial
      | error e => exact ⟨rfl, fun _ => trivial⟩

theorem allows_of_isFile {r : Request} (h : r.isFile = true) : Lock.editing.allows r = true := by
  cases r with
  | outside o => cases o <;> first | rfl | cases h
  | _ => cases h

theorem partsReturn : PartsReturn Discipline (· = []) fun _ => True where
  poll := returns_pollStatus
  alive := returns_isAlive
  snapshot := returns_locked ⟨rfl, fun _ => trivial⟩
  reset := returns_locked ⟨rfl, fun _ => trivial⟩
  execute {a} _ limit := by
    refine returns_execute returns_isAlive (spares_lockless.mono ?_) limit
    rintro r (rfl | ⟨o, -, rfl⟩)
    · rfl
    · rfl
  switch _ _ := spares_lockless.returns ⟨rfl, fun _ => trivial⟩
  plain _ := spares_lockless.returns ⟨rfl, fun _ => trivial⟩
  edit hj := returns_locked (hj.mono fun _ => allows_of_isFile)

theorem returns_pollErrors : pollErrors.Returns Discipline (· = []) :=
  Job.returns_pollErrors returns_isAlive returns_takeMessage
    (spares_lockless.mono fun _ => Request.not_isLock_of_isReport)

end Discipline

/-! ### Tasks side by side -/

namespace Locking

open Poll (Errand)

inductive Work where
  | errand (e : Errand)
  | call (table : Path) (c : Tool.Call)

abbrev Work.Result : Type :=
  Errand.Result ⊕ Except Tool.Error Tool.Outcome

def Work.job : Work → Job Work.Result
  | .errand e => .inl <$> e.answer
  | .call table c => .inr <$> c.job table

theorem returns_answer (e : Errand) : e.answer.Returns Discipline (· = []) :=
  Errand.returns_of_parts Discipline.partsReturn fun _ => Discipline.returns_pollErrors

theorem returns_call (table : Path) (c : Tool.Call) :
    (c.job table).Returns Discipline (· = []) := by
  have hreturns {β : Type} {j : Job β} (h : j.Composed fun _ => False) :
      j.Returns Discipline (· = []) :=
    Discipline.partsReturn.returns (h.mono fun _ _ => trivial)
  cases c with
  | read => exact (hreturns (Tool.Store.composed_read table)).map
  | add r => exact (hreturns (Tool.Store.composed_add table r)).map
  | remove ns => exact (hreturns (Tool.Store.composed_remove table ns)).map
  | update rs => exact (hreturns (Tool.Store.composed_update table rs)).map

theorem returns_job (w : Work) : w.job.Returns Discipline (· = []) := by
  cases w with
  | errand e => exact (returns_answer e).map
  | call table c => exact (returns_call table c).map

section

variable [DecidableEq ω] {R : Rules Work.Result σ χ ω ε} {works : TaskId → Option Work}
  {s₀ s : Crowd Work.Result σ ω ε} {es : List (Crowd.Event χ)}

/-- However the tasks of the gateway come on side by side, and whenever the controller answers: each
task that has still something to do waits, perhaps over others, for one that can come on, and none
for itself. A task that waits for the controller to do something, or sleeps, holds no lock and is in
no queue, so nobody waits for it. -/
theorem no_deadlock (hjobs : ∀ i, R.jobs i = (works i).map Work.job) (hs₀ : s₀.Fresh)
    (h : Run R s₀ es s) :
    (∀ i, s.Unfinished i → ∃ i', Relation.ReflTransGen s.WaitsFor i i' ∧ s.Unfinished i' ∧
      CanComeOn R s i') ∧
    (∀ i, ¬ Relation.TransGen s.WaitsFor i i) ∧
    ∀ i o k, s.tasks i = some (.away o k) → o.isCommandWait = true →
      (∀ l, (s.locks l).holder ≠ some i ∧ i ∉ (s.locks l).waiting) ∧
        ∀ i', ¬ Relation.TransGen s.WaitsFor i' i := by
  have hkeeps : ∀ i j, R.jobs i = some j → j.Keeps Discipline Discipline.Ends [] := by
    intro i j hj
    rw [hjobs] at hj
    obtain ⟨w, -, rfl⟩ := Option.map_eq_some_iff.1 hj
    exact returns_job w _ rfl
  obtain ⟨held, hfollows, horderly⟩ := h.orderly hkeeps hs₀
  refine ⟨fun i hi => exists_canComeOn R hfollows horderly hi,
    fun i => not_waitsFor_circle hfollows horderly, fun i o k hi ho => ?_⟩
  have hlockless := lockless_of_outside hfollows horderly (jobAt_of_task hi)
    (Lock.not_admits_of_isCommandWait ho)
  exact ⟨hlockless, fun i' => not_waitsFor_of_lockless fun l => (hlockless l).1⟩

end

def working (works : TaskId → Option Work) : Rules Work.Result Unit Unit Empty Unit where
  jobs i := (works i).map Work.job
  mayDrop _ := true
  observers := .nobody
  answer
    | .link .pollStatus, _, w => some (.ok default, w)
    | .link (.issue _), _, w => some (.ok 1, w)
    | _, _, _ => none
  befall _ _ := none

def busy (i : TaskId) : Option Work :=
  [.errand .pollStatus, .errand (.command default "home_axis" (.obj [("axis_number", .ofInt 0)])),
    .errand .pollStatus, .errand .pollStatus][i]?

def allIdle : Crowd Work.Result Unit Empty Unit :=
  { gateway := { left := () }, world := () }

/-- The axis moves, one poll is under way, and the last waits for it. -/
def queueing : List (Choice Unit) :=
  [.start 0, .start 1, .start 2, .start 3] ++ List.replicate 8 (.go 0 ()) ++
    List.replicate 9 (.go 1 ()) ++ List.replicate 2 (.go 2 ()) ++ [.go 3 ()]

theorem no_deadlock_busy :
    ∃ es s, Run (working busy) allIdle es s ∧
      (s.locks .polling).holder = some 2 ∧ (s.locks .polling).waiting = [3] ∧
      (∃ i', Relation.ReflTransGen s.WaitsFor 3 i' ∧ i' ≠ 1 ∧ CanComeOn (working busy) s i') ∧
      ∃ o k, s.tasks 1 = some (.away o k) ∧ ∀ l, (s.locks l).holder ≠ some 1 := by
  have hcomputed : (play? (working busy) queueing ([], allIdle)).map (fun x =>
      (x.2.locks .polling, (x.2.tasks 3).map Place.isSuspended,
        ((x.2.tasks 1).bind Place.pending?).map Outside.isCommandWait)) =
          some (⟨some 2, [3]⟩, some true, some true) := by
    decide +kernel
  obtain ⟨⟨es, s⟩, hplay, hcomputed⟩ := Option.map_eq_some_iff.1 hcomputed
  obtain ⟨hlock, hthree, hone⟩ := by simpa only [Prod.mk.injEq] using hcomputed
  obtain ⟨p, hp, hsuspended⟩ := Option.map_eq_some_iff.1 hthree
  obtain ⟨o, hpending, ho⟩ := Option.map_eq_some_iff.1 hone
  obtain ⟨q, hq, hpending⟩ := Option.bind_eq_some_iff.1 hpending
  have haway : ∃ k, s.tasks 1 = some (.away o k) := by
    cases q with
    | away o' k =>
      cases hpending
      exact ⟨k, hq⟩
    | ready | queued | dropped => cases hpending
  obtain ⟨k, haway⟩ := haway
  have hrun := run_of_play? .nil hplay
  obtain ⟨hon, -, hlockless⟩ := no_deadlock (fun _ => rfl) ⟨rfl, rfl⟩ hrun
  obtain ⟨i', hchain, -, hi'⟩ := hon 3 (unfinished_of_isSuspended hp hsuspended)
  obtain ⟨hnone, hnobody⟩ := hlockless 1 o k haway ho
  refine ⟨es, s, hrun, by rw [hlock], by rw [hlock], ⟨i', hchain, ?_, hi'⟩, o, k, haway,
    fun l => (hnone l).1⟩
  -- the third does not wait for the one that moves the axis
  rintro rfl
  rcases Relation.reflTransGen_iff_eq_or_transGen.1 hchain with he | hwaits
  · cases he
  · exact hnobody 3 hwaits

end Locking

end MillGateway
