import Mathlib.Logic.Function.Basic
import MillGateway.Job.Advance

/-! Tasks that come on side by side, one step of one task at a time and in any order. Locks and the
gateway's own state are those of a task that comes on alone; the world outside answers as it likes. -/

namespace MillGateway

namespace Crowd

inductive Place (α : Type) where
  | ready (j : Job α)
  /-- It waits for a lock, or has been handed it in the meantime. -/
  | queued (l : Lock) (k : Unit → Job α)
  | away (o : Outside) (k : o.Answer → Job α)
  | dropped

namespace Place

def job? : Place α → Option (Job α)
  | .ready j => some j
  | .queued l k => some (.ask (.acquire l) k)
  | .away o k => some (.ask (.outside o) k)
  | .dropped => none

/-- Whether a task can be dropped here: it is about to wait, or waits. -/
def isSuspended : Place α → Bool
  | .ready (.ask (.acquire _) _) | .ready (.ask (.outside _) _) => true
  | .queued _ _ | .away _ _ => true
  | _ => false

def isMidway : Place α → Bool
  | .ready (.ask (.release _) _) | .ready (.ask (.inside _) _) => true
  | _ => false

end Place

inductive Event (χ : Type) where
  | started (i : TaskId)
  | took (i : TaskId) (l : Lock)
  | queued (i : TaskId) (l : Lock)
  | gave (i : TaskId) (l : Lock)
  | looked (i : TaskId) (x : Inside) (a : x.Answer)
  | asked (i : TaskId) (o : Outside)
  | heard (i : TaskId) (o : Outside) (c : χ) (a : o.Answer)
  | dropped (i : TaskId)
  | befell (c : χ)

def Event.answered? : Event χ → Option (TaskId × (r : Request) × r.Answer)
  | .took i l => some (i, ⟨.acquire l, ()⟩)
  | .gave i l => some (i, ⟨.release l, ()⟩)
  | .looked i x a => some (i, ⟨.inside x, a⟩)
  | .heard i o _ a => some (i, ⟨.outside o, a⟩)
  | .started _ | .queued _ _ | .asked _ _ | .dropped _ | .befell _ => none

/-- What does not change while tasks come on: which job each of them does, which may be dropped, how
observers react, and what the world outside may do, by itself or when it is asked. -/
structure Rules (α σ χ ω ε : Type) where
  jobs : TaskId → Option (Job α)
  mayDrop : TaskId → Bool
  observers : Observers ω ε
  answer : (o : Outside) → χ → σ → Option (o.Answer × σ)
  befall : χ → Subscription.Registry ω × σ → Option (Subscription.Registry ω × σ)

end Crowd

open Crowd

structure Crowd (α σ ω ε : Type) where
  gateway : Gateway ω ε
  locks : Locks := .free
  world : σ
  tasks : TaskId → Option (Place α) := fun _ => none

namespace Crowd

def put (s : Crowd α σ ω ε) (i : TaskId) (p : Place α) : Crowd α σ ω ε :=
  { s with tasks := Function.update s.tasks i (some p) }

def jobAt (s : Crowd α σ ω ε) (i : TaskId) : Option (Job α) :=
  (s.tasks i).bind Place.job?

def Unfinished (s : Crowd α σ ω ε) (i : TaskId) : Prop :=
  ∃ r k, s.jobAt i = some (.ask r k)

theorem jobAt_put (s : Crowd α σ ω ε) (i : TaskId) (p : Place α) :
    (s.put i p).jobAt = Function.update s.jobAt i p.job? := by
  funext i'
  by_cases h : i' = i
  · subst h
    simp [jobAt, put]
  · simp [jobAt, put, h]

theorem jobAt_of_task {s : Crowd α σ ω ε} {i : TaskId} {p : Place α} (h : s.tasks i = some p) :
    s.jobAt i = p.job? := by
  simp [jobAt, h]

theorem jobAt_of_none {s : Crowd α σ ω ε} {i : TaskId} (h : s.tasks i = none) :
    s.jobAt i = none := by
  simp [jobAt, h]

theorem jobAt_put_of_same {s : Crowd α σ ω ε} {i : TaskId} {p q : Place α}
    (h : s.tasks i = some p) (hpq : p.job? = q.job?) : (s.put i q).jobAt = s.jobAt := by
  rw [jobAt_put, ← hpq, ← jobAt_of_task h, Function.update_eq_self]

def Rests (s : Crowd α σ ω ε) : Prop :=
  ∀ i p, s.tasks i = some p → p.isMidway = false

variable [DecidableEq ω]

inductive Step (R : Rules α σ χ ω ε) (s : Crowd α σ ω ε) : Event χ → Crowd α σ ω ε → Prop
  | started {i j} (hj : R.jobs i = some j) (hi : s.tasks i = none) :
      Step R s (.started i) (s.put i (.ready j))
  | took {i l k} (hi : s.tasks i = some (.ready (.ask (.acquire l) k)))
      (hl : (s.locks.acquire l i).1 = true) :
      Step R s (.took i l) ({ s with locks := (s.locks.acquire l i).2 }.put i (.ready (k ())))
  | queued {i l k} (hi : s.tasks i = some (.ready (.ask (.acquire l) k)))
      (hl : (s.locks.acquire l i).1 = false) :
      Step R s (.queued i l) ({ s with locks := (s.locks.acquire l i).2 }.put i (.queued l k))
  | woke {i l k} (hi : s.tasks i = some (.queued l k)) (hl : (s.locks l).holder = some i) :
      Step R s (.took i l) (s.put i (.ready (k ())))
  | gave {i l k} (hi : s.tasks i = some (.ready (.ask (.release l) k))) :
      Step R s (.gave i l) ({ s with locks := (s.locks.release l).2 }.put i (.ready (k ())))
  | looked {i x k} (hi : s.tasks i = some (.ready (.ask (.inside x) k))) :
      Step R s (.looked i x (s.gateway.answer R.observers x).1)
        ({ s with gateway := (s.gateway.answer R.observers x).2 }.put i
          (.ready (k (s.gateway.answer R.observers x).1)))
  | asked {i o k} (hi : s.tasks i = some (.ready (.ask (.outside o) k))) :
      Step R s (.asked i o) (s.put i (.away o k))
  | heard {i o k c a w} (hi : s.tasks i = some (.away o k))
      (ha : R.answer o c s.world = some (a, w)) :
      Step R s (.heard i o c a) ({ s with world := w }.put i (.ready (k a)))
  | dropped {i p} (hi : s.tasks i = some p) (hp : p.isSuspended = true)
      (hmay : R.mayDrop i = true) :
      Step R s (.dropped i) ({ s with locks := (s.locks.abandon i).2 }.put i .dropped)
  | befell {c r w} (h : R.befall c (s.gateway.registry, s.world) = some (r, w)) :
      Step R s (.befell c) { s with gateway := { s.gateway with registry := r }, world := w }

inductive Run (R : Rules α σ χ ω ε) (s₀ : Crowd α σ ω ε) : List (Event χ) → Crowd α σ ω ε → Prop
  | nil : Run R s₀ [] s₀
  | snoc {es s e s'} (h : Run R s₀ es s) (hstep : Step R s e s') : Run R s₀ (es ++ [e]) s'

structure Fresh (s : Crowd α σ ω ε) : Prop where
  tasks : s.tasks = fun _ => none
  locks : s.locks = .free

omit [DecidableEq ω] in
theorem Fresh.jobAt {s : Crowd α σ ω ε} (h : s.Fresh) (i : TaskId) : s.jobAt i = none :=
  jobAt_of_none (congrFun h.tasks i)

theorem filterMap_snoc (f : β → Option γ) (l : List β) (x : β) :
    (l ++ [x]).filterMap f = l.filterMap f ++ (f x).toList := by
  rw [List.filterMap_append]
  cases h : f x with
  | none => rw [List.filterMap_cons_none h, List.filterMap_nil, Option.toList_none]
  | some y => rw [List.filterMap_cons_some h, List.filterMap_nil, Option.toList_some]

/-! ### What a step does to jobs -/

section

variable {R : Rules α σ χ ω ε} {s s' : Crowd α σ ω ε} {e : Event χ} {i : TaskId}

theorem Step.of_answered {r : Request} {a : r.Answer} (h : Step R s e s')
    (he : e.answered? = some (i, ⟨r, a⟩)) :
    ∃ k, s.jobAt i = some (.ask r k) ∧ s'.jobAt = Function.update s.jobAt i (some (k a)) := by
  cases h with
  | started | queued | asked | dropped | befell => cases he
  | took hi hl =>
    cases he
    exact ⟨_, jobAt_of_task hi, jobAt_put _ _ _⟩
  | woke hi hl =>
    cases he
    exact ⟨_, jobAt_of_task hi, jobAt_put _ _ _⟩
  | gave hi =>
    cases he
    exact ⟨_, jobAt_of_task hi, jobAt_put _ _ _⟩
  | looked hi =>
    cases he
    exact ⟨_, jobAt_of_task hi, jobAt_put _ _ _⟩
  | heard hi ha =>
    cases he
    exact ⟨_, jobAt_of_task hi, jobAt_put _ _ _⟩

theorem Step.of_unanswered (h : Step R s e s') (he : e.answered? = none) :
    s'.jobAt = s.jobAt ∨
      (∃ i j, s.tasks i = none ∧ R.jobs i = some j ∧
        s'.jobAt = Function.update s.jobAt i (some j)) ∨
      ∃ i, e = .dropped i ∧ s'.jobAt = Function.update s.jobAt i none := by
  cases h with
  | took | woke | gave | looked | heard => cases he
  | started hj hi => exact .inr (.inl ⟨_, _, hi, hj, jobAt_put _ _ _⟩)
  | queued hi hl => exact .inl (jobAt_put_of_same hi rfl)
  | asked hi => exact .inl (jobAt_put_of_same hi rfl)
  | dropped hi hp hmay => exact .inr (.inr ⟨_, rfl, jobAt_put _ _ _⟩)
  | befell h => exact .inl rfl

theorem Step.jobAt_of_dropped (h : Step R s (.dropped i) s') : s'.jobAt i = none := by
  cases h with
  | dropped hi hp hmay => rw [jobAt_put, Function.update_self, Place.job?]

theorem Step.mayDrop_of_dropped (h : Step R s (.dropped i) s') : R.mayDrop i = true := by
  cases h with
  | dropped hi hp hmay => exact hmay

theorem Step.jobAt_before {j : Job α} (h : Step R s e s') (he : e.answered? = none)
    (hj : s'.jobAt i = some j) : s.jobAt i = some j ∨ s.tasks i = none ∧ R.jobs i = some j := by
  rcases h.of_unanswered he with hsame | ⟨i', j', hi', hj', hput⟩ | ⟨i', -, hput⟩
  · exact .inl (hsame ▸ hj)
  · rw [hput] at hj
    by_cases hi : i = i'
    · subst hi
      rw [Function.update_self] at hj
      exact .inr ⟨hi', hj'.trans hj⟩
    · rw [Function.update_of_ne hi] at hj
      exact .inl hj
  · rw [hput] at hj
    by_cases hi : i = i'
    · subst hi
      rw [Function.update_self] at hj
      cases hj
    · rw [Function.update_of_ne hi] at hj
      exact .inl hj

theorem Step.jobAt_after {j : Job α} (h : Step R s e s') (he : e.answered? = none)
    (hj : s.jobAt i = some j) : s'.jobAt i = some j ∨ e = .dropped i := by
  rcases h.of_unanswered he with hsame | ⟨i', j', hi', hj', hput⟩ | ⟨i', rfl, hput⟩
  · exact .inl (hsame ▸ hj)
  · have hi : i ≠ i' := by
      rintro rfl
      rw [jobAt_of_none hi'] at hj
      cases hj
    rw [hput, Function.update_of_ne hi]
    exact .inl hj
  · by_cases hi : i = i'
    · exact .inr (hi ▸ rfl)
    · rw [hput, Function.update_of_ne hi]
      exact .inl hj

theorem Step.tasks_mono (h : Step R s e s') (hi : s'.tasks i = none) : s.tasks i = none := by
  have hput : ∀ (t : Crowd α σ ω ε) (i' : TaskId) (p : Place α), (t.put i' p).tasks i = none →
      t.tasks i = none := by
    intro t i' p hp
    by_cases hne : i = i'
    · subst hne
      simp [put] at hp
    · simpa [put, hne] using hp
  cases h with
  | befell => exact hi
  | _ => exact hput _ _ _ hi

theorem Step.of_started (h : Step R s (.started i) s') :
    s.tasks i = none ∧ ∃ j, R.jobs i = some j ∧ s'.jobAt i = some j := by
  cases h with
  | started hj hi => exact ⟨hi, _, hj, by rw [jobAt_put, Function.update_self]; rfl⟩

theorem Step.started_of_new (h : Step R s e s') (hi : s.tasks i = none) (hi' : s'.tasks i ≠ none) :
    e = .started i := by
  have hput : ∀ {t : Crowd α σ ω ε} {i' : TaskId} {p : Place α}, t.tasks = s.tasks →
      (t.put i' p).tasks i ≠ none → i = i' := by
    intro t i' p ht hp
    by_contra hne
    exact hp ((Function.update_of_ne hne _ _).trans ((congrFun ht i).trans hi))
  cases h with
  | befell => exact absurd hi hi'
  | started hj hnew =>
    obtain rfl := hput rfl hi'
    rfl
  | took hnew | queued hnew | woke hnew | gave hnew | looked hnew | asked hnew | heard hnew
  | dropped hnew =>
    obtain rfl := hput rfl hi'
    rw [hi] at hnew
    cases hnew

theorem Step.unfinished_before (h : Step R s e s') (hi : s'.Unfinished i) :
    s.Unfinished i ∨ e = .started i := by
  obtain ⟨r, k, hk⟩ := hi
  cases hs : s.tasks i with
  | none =>
    refine .inr (h.started_of_new hs fun hnone => ?_)
    rw [jobAt_of_none hnone] at hk
    cases hk
  | some p =>
    left
    cases he : e.answered? with
    | none =>
      rcases h.jobAt_before he hk with hk | ⟨hnone, -⟩
      · exact ⟨r, k, hk⟩
      · rw [hs] at hnone
        cases hnone
    | some x =>
      obtain ⟨i', r', a⟩ := x
      obtain ⟨k', hk', hput⟩ := h.of_answered he
      by_cases hne : i = i'
      · exact ⟨r', k', hne ▸ hk'⟩
      · rw [hput, Function.update_of_ne hne] at hk
        exact ⟨r, k, hk⟩

end

end Crowd

end MillGateway
