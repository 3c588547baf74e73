import Mathlib.Data.Nat.Pairing
import MillGateway.Proofs.Crowd.Advance
import MillGateway.Proofs.Schedule.Rounds

/-! Runs of a schedule are trails of a crowd, in which tasks take turns and each run of a job that is
repeated is a task by itself. Main statement: whatever holds of all such trails holds of what the
schedule comes to. -/

namespace MillGateway

open Crowd

namespace Locks

variable {f g : TaskId → TaskId} {ls : Locks} {i : TaskId}

theorem rename_congr (h : ∀ i, f i ≠ g i → ∀ l, (ls l).holder ≠ some i ∧ i ∉ (ls l).waiting) :
    ls.rename f = ls.rename g := by
  funext l
  have hholder : (ls l).holder.map f = (ls l).holder.map g := by
    refine Option.map_congr fun i hi => ?_
    by_contra hne
    exact (h i hne l).1 hi
  have hwaiting : (ls l).waiting.map f = (ls l).waiting.map g := by
    refine List.map_congr_left fun i hi => ?_
    by_contra hne
    exact (h i hne l).2 hi
  exact congrArg₂ LockState.mk hholder hwaiting

theorem lockless_of_rename (h : ∀ l, (ls.rename f l).holder ≠ some (f i) ∧
    f i ∉ (ls.rename f l).waiting) (l : Lock) : (ls l).holder ≠ some i ∧ i ∉ (ls l).waiting :=
  ⟨fun hl => (h l).1 (congrArg (Option.map f) hl), fun hl => (h l).2 (List.mem_map_of_mem hl)⟩

theorem abandon_of_lockless (h : ∀ l, (ls l).holder ≠ some i ∧ i ∉ (ls l).waiting) :
    ls.abandon i = ([], ls) := by
  refine Prod.ext ?_ (funext fun l => ?_)
  · refine List.eq_nil_iff_forall_not_mem.2 fun i' hi' => ?_
    obtain ⟨l, hheld, -⟩ := mem_abandon hi'
    exact (h l).1 hheld
  · have hfilter : (ls l).waiting.filter (· != i) = (ls l).waiting := by
      refine List.filter_eq_self.2 fun i' hi' => ?_
      have hne : i' ≠ i := fun he => (h l).2 (he ▸ hi')
      simpa using hne
    rw [abandon_apply, LockState.abandoned, hfilter, if_neg (h l).1]

end Locks

theorem Crowd.Unfinished.isSuspended {s : Crowd α σ ω ε} {i : TaskId} (h : s.Unfinished i)
    (hyields : ∀ i p, s.tasks i = some p → p.yields = true) :
    ∃ p, s.tasks i = some p ∧ p.isSuspended = true := by
  obtain ⟨r, k, hk⟩ := h
  obtain ⟨p, hp, hjob⟩ := Option.bind_eq_some_iff.1 hk
  have hyield := hyields i p hp
  refine ⟨p, hp, ?_⟩
  cases p with
  | ready j =>
    cases hjob
    cases r with
    | acquire | outside => rfl
    | release | inside => cases hyield
  | queued | away => rfl
  | dropped => cases hjob

namespace Schedule

/-- The name of the run that a task is at, or is to begin next. -/
def nameAt (runs : TaskId → Nat) (id : TaskId) : TaskId :=
  Nat.pair id (runs id)

theorem nameAt_injective (runs : TaskId → Nat) : Function.Injective (nameAt runs) :=
  fun _ _ h => (Nat.pair_eq_pair.1 h).1

theorem nameAt_update_of_ne {runs : TaskId → Nat} {id id' : TaskId} {n : Nat} (h : id' ≠ id) :
    nameAt (Function.update runs id n) id' = nameAt runs id' :=
  congrArg (Nat.pair id') (Function.update_of_ne h _ _)

/-- Where the run `i` of a task that stands like this is to be found in the crowd. -/
def Stand.At (R : Rules α World Chance ω ε) (s : Crowd α World ω ε) (i : TaskId) :
    Stand α → Prop
  | .ready j =>
    s.tasks i = some (.ready j) ∨ (s.tasks i = none ∧ R.jobs i = some j) ∨
      ∃ l k, s.tasks i = some (.queued l k) ∧ k () = j ∧ (s.locks l).holder = some i
  | .blocked j => ∃ l k, s.tasks i = some (.queued l k) ∧ k () = j
  | .waiting o _ k => s.tasks i = some (.away o k)
  | .ticking => s.tasks i = none
  | .ending => R.mayDrop i = true

/-- Whether a task that repeats its job has a run of the crowd for each time, and those to come have
not begun. -/
def Task.Again (jobs : TaskId → Option (Job α)) (runs : TaskId → Nat)
    (places : TaskId → Option (Place α)) (t : Task α) : Prop :=
  ∀ x, t.repeats? = some x → ∀ n, jobs (Nat.pair t.id n) = some x.2 ∧
    (runs t.id < n → places (Nat.pair t.id n) = none)

structure Task.At (R : Rules α World Chance ω ε) (s : Crowd α World ω ε) (runs : TaskId → Nat)
    (t : Task α) : Prop where
  stand : t.stand.At R s (nameAt runs t.id)
  again : t.Again R.jobs runs s.tasks

theorem Task.Again.update {jobs : TaskId → Option (Job α)} {runs : TaskId → Nat}
    {places : TaskId → Option (Place α)} {t : Task α} (h : t.Again jobs runs places) (p : Place α) :
    t.Again jobs runs (Function.update places (nameAt runs t.id) (some p)) := by
  refine fun x hx n => ⟨(h x hx n).1, fun hn => ?_⟩
  have hne : Nat.pair t.id n ≠ nameAt runs t.id :=
    fun he => Nat.ne_of_gt hn (Nat.pair_eq_pair.1 he).2
  exact (Function.update_of_ne hne _ _).trans ((h x hx n).2 hn)

section

variable {R : Rules α World Chance ω ε} {c c' : Crowd α World ω ε} {runs runs' : TaskId → Nat}
  {t : Task α} {i : TaskId}

theorem Stand.At.congr {st : Stand α} (h : st.At R c i) (htasks : c'.tasks i = c.tasks i)
    (hhanded : Handed c i → Handed c' i) : st.At R c' i := by
  cases st with
  | ready j =>
    rcases h with hready | ⟨hnone, hj⟩ | ⟨l, k, hqueued, hk, hl⟩
    · exact .inl (htasks.trans hready)
    · exact .inr (.inl ⟨htasks.trans hnone, hj⟩)
    · refine .inr (.inr ⟨l, k, htasks.trans hqueued, hk, hhanded ?_ l k (htasks.trans hqueued)⟩)
      intro l' k' hqueued'
      rw [hqueued] at hqueued'
      cases hqueued'
      exact hl
  | blocked j =>
    obtain ⟨l, k, hqueued, hk⟩ := h
    exact ⟨l, k, htasks.trans hqueued, hk⟩
  | waiting | ticking => exact htasks.trans h
  | ending => exact h

theorem Task.At.congr (h : t.At R c runs) (hruns : runs' t.id = runs t.id)
    (htasks : ∀ n, c'.tasks (Nat.pair t.id n) = c.tasks (Nat.pair t.id n))
    (hhanded : Handed c (nameAt runs t.id) → Handed c' (nameAt runs t.id)) : t.At R c' runs' where
  stand := by
    rw [nameAt, hruns]
    exact h.stand.congr (htasks _) hhanded
  again x hx n := by
    rw [hruns, htasks]
    exact h.again x hx n

end

/-- Whether a trail has come to where a schedule is, between turns. -/
structure Mirrors [DecidableEq ω] (R : Rules α World Chance ω ε) (s₀ : Crowd α World ω ε)
    (s : Schedule α ω ε) (ms : List (Move α World Chance ω ε))
    (places : TaskId → Option (Place α)) (runs : TaskId → Nat) : Prop where
  observers : s.observers = R.observers
  trail : Trail R s₀ ms (s.shared.crowd (nameAt runs) places)
  inTurns : InTurns ms
  direct : Direct ms
  quiet : ∀ x, ms.getLast? = some x → x.caller? = none
  yields : ∀ i p, places i = some p → p.yields = true
  woken : s.shared.woken = []
  tasks : ∀ t ∈ s.tasks, t.At R (s.shared.crowd (nameAt runs) places) runs
  results : ∀ x ∈ s.results, (∀ t ∈ s.tasks, t.id ≠ x.1) ∧
    ∃ n, places (Nat.pair x.1 n) = some (.ready (.done x.2))

def without (s : Schedule α ω ε) (id : TaskId) : Schedule α ω ε :=
  { s with tasks := s.tasks.filter (·.id != id) }

theorem mem_without {s : Schedule α ω ε} {id : TaskId} {t : Task α} :
    t ∈ (s.without id).tasks ↔ t ∈ s.tasks ∧ t.id ≠ id := by
  simp [without]

theorem Alike.without {s s' : Schedule α ω ε} (h : Alike s s') (id : TaskId) :
    Alike (s.without id) (s'.without id) :=
  ⟨h.shared, h.observers, congrArg (List.filter _) h.tasks, h.results, h.nextTask⟩

theorem alike_wake_without (s : Schedule α ω ε) (id : TaskId) :
    Alike (s.without id).wake (s.wake.without id) := by
  refine ⟨rfl, rfl, ?_, rfl, rfl⟩
  refine List.filter_map.trans (congrArg (List.map _) (List.filter_congr fun t _ => ?_))
  dsimp only [Function.comp]
  split
  · split <;> rfl
  · rfl

namespace Mirrors

section

variable [DecidableEq ω] {R : Rules α World Chance ω ε} {s₀ : Crowd α World ω ε}
  {s s' : Schedule α ω ε} {ms ms' : List (Move α World Chance ω ε)}
  {places : TaskId → Option (Place α)} {runs : TaskId → Nat} {t : Task α} {me : TaskId}
  {p : Place α}

theorem alike (hlike : Alike s s') (h : Mirrors R s₀ s ms places runs) :
    Mirrors R s₀ s' ms places runs where
  observers := hlike.observers.trans h.observers
  trail := by
    rw [hlike.shared]
    exact h.trail
  inTurns := h.inTurns
  direct := h.direct
  quiet := h.quiet
  yields := h.yields
  woken := by
    rw [hlike.shared]
    exact h.woken
  tasks := by
    rw [hlike.tasks, hlike.shared]
    exact h.tasks
  results := by
    rw [hlike.tasks, hlike.results]
    exact h.results

theorem without (h : Mirrors R s₀ s ms places runs) (id : TaskId) :
    Mirrors R s₀ (s.without id) ms places runs where
  observers := h.observers
  trail := h.trail
  inTurns := h.inTurns
  direct := h.direct
  quiet := h.quiet
  yields := h.yields
  woken := h.woken
  tasks t ht := h.tasks t (mem_without.1 ht).1
  results x hx := ⟨fun t ht => (h.results x hx).1 t (mem_without.1 ht).1, (h.results x hx).2⟩

theorem underway (h : Mirrors R s₀ s ms places runs) (me : TaskId) :
    Underway R s₀ (nameAt runs) me (Handed (s.shared.crowd (nameAt runs) places)) ms s.shared
      places where
  trail := h.trail
  inTurns := h.inTurns
  direct := h.direct
  last x i hx hi := by
    rw [h.quiet x hx] at hi
    cases hi
  others i p _ hi := h.yields i p hi
  handed := by
    rintro i - (hi | ⟨i', hi', -⟩)
    · exact hi
    · rw [h.woken] at hi'
      cases hi'

theorem after_turn {sh : Shared World ω ε} {places' : TaskId → Option (Place α)}
    (h : Mirrors R s₀ (s.without me) ms places runs) (hresults : ∀ x ∈ s.results, x.1 ≠ me)
    (hunder : Underway R s₀ (nameAt runs) me (Handed (s.shared.crowd (nameAt runs) places)) ms' sh
      places')
    (hplaces : places' = Function.update places (nameAt runs me) (some p))
    (hyields : p.yields = true) (hcalls : p.calls = false) :
    Mirrors R s₀ (wake { s.without me with shared := sh }) ms' places' runs := by
  subst hplaces
  have hself : Function.update places (nameAt runs me) (some p) (nameAt runs me) = some p :=
    Function.update_self ..
  have hother : ∀ {id n}, id ≠ me →
      Function.update places (nameAt runs me) (some p) (Nat.pair id n) = places (Nat.pair id n) :=
    fun hne => Function.update_of_ne (fun he => hne (Nat.pair_eq_pair.1 he).1) _ _
  have hat : ∀ t ∈ (s.without me).tasks,
      t.At R (sh.crowd (nameAt runs) (Function.update places (nameAt runs me) (some p))) runs := by
    intro t ht
    have hne := (mem_without.1 ht).2
    refine (h.tasks t ht).congr rfl (fun n => hother hne) fun hhanded => ?_
    exact hunder.handed _ (fun he => hne (nameAt_injective runs he)) (.inl hhanded)
  constructor
  case observers => exact h.observers
  case trail =>
    rw [shared_wake]
    exact hunder.trail
  case inTurns => exact hunder.inTurns
  case direct => exact hunder.direct
  case quiet =>
    intro x hx
    cases hi : x.caller? with
    | none => rfl
    | some i =>
      obtain rfl := hunder.last x i hx hi
      obtain ⟨-, q, hq, hcalls'⟩ := Move.caller?_eq_some.1 hi
      rw [hunder.trail.after_last hx] at hq
      obtain rfl := Option.some.inj (hself.symm.trans hq)
      rw [hcalls] at hcalls'
      cases hcalls'
  case yields =>
    intro i q hq
    by_cases hne : i = nameAt runs me
    · subst hne
      obtain rfl := Option.some.inj (hself.symm.trans hq)
      exact hyields
    · exact hunder.others i q hne hq
  case woken => rw [shared_wake]
  case tasks =>
    intro t ht
    rw [shared_wake]
    rcases mem_wake ht with ht | ⟨t', ht', k, hstand, hwoken, rfl⟩
    · exact hat t ht
    · -- it has queued still, and the lock that it was handed in this turn is its own
      obtain ⟨l, k', hqueued, hk⟩ : (Stand.blocked k).At R _ _ := hstand ▸ (hat t' ht').stand
      refine ⟨.inr (.inr ⟨l, k', hqueued, hk, ?_⟩), (hat t' ht').again⟩
      refine hunder.handed _ (fun he => ?_) (.inr ⟨_, hwoken, rfl⟩) l k' hqueued
      exact (mem_without.1 ht').2 (nameAt_injective runs he)
  case results =>
    intro x hx
    obtain ⟨hgone, n, hn⟩ := h.results x hx
    refine ⟨fun t ht => ?_, n, (hother (hresults x hx)).trans hn⟩
    rcases mem_wake ht with ht | ⟨t', ht', k, -, -, rfl⟩
    · exact hgone t ht
    · exact hgone t' ht'

theorem setTask (h : Mirrors R s₀ (s.without t.id) ms places runs)
    (ht : t.At R (s.shared.crowd (nameAt runs) places) runs)
    (hresults : ∀ x ∈ s.results, x.1 ≠ t.id) :
    Mirrors R s₀ (s.setTask t) ms places runs where
  observers := h.observers
  trail := h.trail
  inTurns := h.inTurns
  direct := h.direct
  quiet := h.quiet
  yields := h.yields
  woken := h.woken
  tasks t' ht' := by
    rcases mem_setTask ht' with rfl | hother
    · exact ht
    · exact h.tasks t' (mem_without.2 hother)
  results x hx := by
    obtain ⟨hgone, hn⟩ := h.results x hx
    refine ⟨fun t' ht' => ?_, hn⟩
    rcases mem_setTask ht' with rfl | hother
    · exact (hresults x hx).symm
    · exact hgone t' (mem_without.2 hother)

section

variable (hjobs : ∀ i j, R.jobs i = some j → j.Keeps Discipline Discipline.Ends [])
  (hs₀ : s₀.Fresh)
include hjobs hs₀

theorem lockless (h : Mirrors R s₀ s ms places runs)
    (hme : ¬ (s.shared.crowd (nameAt runs) places).Unfinished (nameAt runs me)) (l : Lock) :
    (s.shared.locks l).holder ≠ some me ∧ me ∉ (s.shared.locks l).waiting := by
  obtain ⟨held, hfollows, horderly⟩ := h.trail.run.orderly hjobs hs₀
  exact Locks.lockless_of_rename (lockless_of_finished hfollows horderly hme) l

theorem renumber (h : Mirrors R s₀ (s.without me) ms places runs)
    (hme : ¬ (s.shared.crowd (nameAt runs) places).Unfinished (nameAt runs me)) (n : Nat) :
    Mirrors R s₀ (s.without me) ms places (Function.update runs me n) := by
  -- nothing but the locks knows a task by its name, and one that has ended is in none of them
  have hcrowd : s.shared.crowd (nameAt (Function.update runs me n)) places =
      s.shared.crowd (nameAt runs) places := by
    have hlocks : s.shared.locks.rename (nameAt (Function.update runs me n)) =
        s.shared.locks.rename (nameAt runs) := by
      refine Locks.rename_congr fun i hi => ?_
      obtain rfl : i = me := by
        by_contra hne
        exact hi (nameAt_update_of_ne hne)
      have hlockless := h.lockless hjobs hs₀ hme
      exact hlockless
    unfold Shared.crowd
    rw [hlocks]
  have htrail := h.trail
  have htasks := h.tasks
  change Trail R s₀ ms (s.shared.crowd _ places) at htrail
  change ∀ t ∈ (s.without me).tasks, t.At R (s.shared.crowd _ places) runs at htasks
  rw [← hcrowd] at htrail htasks
  refine ⟨h.observers, htrail, h.inTurns, h.direct, h.quiet, h.yields, h.woken, fun t ht => ?_,
    h.results⟩
  exact (htasks t ht).congr (Function.update_of_ne (mem_without.1 ht).2 _ _) (fun _ => rfl) id

theorem settle (h : Mirrors R s₀ (s.without t.id) ms places runs) {q : Pause Delay α}
    (hme : places (nameAt runs t.id) = some q.place)
    (hagain : t.Again R.jobs runs places)
    (hresults : ∀ x ∈ s.results, x.1 ≠ t.id) :
    ∃ runs', Mirrors R s₀ (s.settle t q) ms places runs' := by
  cases q with
  | finished a =>
    cases hrepeats : t.repeats? with
    | none =>
      refine ⟨runs, ?_⟩
      rw [Schedule.settle, hrepeats]
      refine ⟨h.observers, h.trail, h.inTurns, h.direct, h.quiet, h.yields, h.woken, h.tasks,
        fun x hx => ?_⟩
      rcases List.mem_append.1 hx with hx | hx
      · exact h.results x hx
      · obtain rfl := List.mem_singleton.1 hx
        exact ⟨fun t' ht' => (mem_without.1 ht').2, _, hme⟩
    | some x =>
      have hended : ¬ (s.shared.crowd (nameAt runs) places).Unfinished (nameAt runs t.id) := by
        rintro ⟨r, k, hk⟩
        rw [jobAt_of_task hme] at hk
        cases hk
      -- the next run is a task by itself, which nobody has started yet
      have hnext := h.renumber hjobs hs₀ hended (runs t.id + 1)
      have hruns : Function.update runs t.id (runs t.id + 1) t.id = runs t.id + 1 :=
        Function.update_self ..
      refine ⟨_, (hnext.setTask (t := { t with stand := .ticking, since := s.nextWait }) ⟨?_, ?_⟩
        hresults).alike (alike_settle_finished hrepeats a)⟩
      · change places (Nat.pair t.id _) = none
        rw [hruns]
        exact (hagain x hrepeats _).2 (Nat.lt_succ_self _)
      · intro y hy n
        refine ⟨(hagain y hy n).1, fun hn => (hagain y hy n).2 ?_⟩
        change Function.update runs t.id _ t.id < n at hn
        rw [hruns] at hn
        exact Nat.lt_of_succ_lt hn
  | blocked l k =>
    exact ⟨runs, h.setTask (t := { t with stand := .blocked k }) ⟨⟨l, _, hme, rfl⟩, hagain⟩ hresults⟩
  | waiting o d k =>
    exact ⟨runs, (h.setTask (t := { t with stand := .waiting o d k, since := s.nextWait })
      ⟨hme, hagain⟩ hresults).alike (alike_settle_waiting o d k)⟩
  | spent j =>
    exact ⟨runs, (h.setTask (t := { t with stand := .ready j }) ⟨.inl hme, hagain⟩ hresults).alike
      (alike_settle_spent j)⟩

end

end

/-! ### Turns -/

section

variable [DecidableEq ω] {jobs : TaskId → Option (Job α)} {mayDrop : TaskId → Bool}
  {observers : Observers ω ε} {s₀ : Crowd α World ω ε} {s s' : Schedule α ω ε}
  {ms ms' : List (Move α World Chance ω ε)} {places : TaskId → Option (Place α)}
  {runs : TaskId → Nat} {t : Task α} {me : TaskId} {p : Place α}
  (hjobs : ∀ i j, jobs i = some j → j.Keeps Discipline Discipline.Ends []) (hs₀ : s₀.Fresh)
include hjobs hs₀

theorem carryOn (h : Mirrors (rules jobs mayDrop observers) s₀ s ms places runs)
    (hlike : Alike { s with shared := s'.shared } s') (hid : ∀ x ∈ s.results, x.1 ≠ t.id) {j : Job α}
    (hagain : t.Again jobs runs places)
    (hunder : Underway (rules jobs mayDrop observers) s₀ (nameAt runs) t.id
      (Handed (s.shared.crowd (nameAt runs) places)) ms' s'.shared
      (Function.update places (nameAt runs t.id) (some (.ready j)))) (left : Nat) :
    ∃ ms'' places' runs', ms' <+: ms'' ∧ Mirrors (rules jobs mayDrop observers) s₀
      (s'.carryOn t j left) ms'' places' runs' := by
  have hobservers : s'.observers = observers := hlike.observers.trans h.observers
  obtain ⟨ms'', hstopped, hyields, hcalls⟩ := stops_advance hjobs hs₀ (allows_floor hobservers) left
    hunder (Function.update_self ..)
  rw [Function.update_idem] at hstopped
  have hafter := (h.without t.id).after_turn hid hstopped rfl hyields hcalls
  unfold Schedule.carryOn
  dsimp only
  generalize j.advance s'.floor t.id left s'.shared = x at hstopped hyields hcalls hafter ⊢
  obtain ⟨q, left', sh⟩ := x
  generalize hleft : (if t.inFront then { s' with left := left' } else s') = s''
  have hsame : Alike { s with shared := sh } { s'' with shared := sh } := by
    rw [← hleft]
    split <;> exact ⟨rfl, hlike.observers, hlike.tasks, hlike.results, hlike.nextTask⟩
  have hwake := (alike_wake_without { s with shared := sh } t.id).trans (hsame.wake.without t.id)
  have hresults : ∀ y ∈ (wake { s'' with shared := sh }).results, y.1 ≠ t.id := by
    rw [hsame.wake.results]
    exact hid
  obtain ⟨runs', hsettled⟩ := (hafter.alike hwake).settle hjobs hs₀ (Function.update_self ..)
    (hagain.update _) hresults
  exact ⟨_, _, runs', List.prefix_append .., hsettled⟩

theorem ready (h : Mirrors (rules jobs mayDrop observers) s₀ s ms places runs) {j : Job α}
    (hj : (Stand.ready j).At (rules jobs mayDrop observers) (s.shared.crowd (nameAt runs) places)
      (nameAt runs me)) :
    ∃ ms', ms <+: ms' ∧ Underway (rules jobs mayDrop observers) s₀ (nameAt runs) me
      (Handed (s.shared.crowd (nameAt runs) places)) ms' s.shared
      (Function.update places (nameAt runs me) (some (.ready j))) := by
  have hunder := h.underway me
  rcases hj with hready | ⟨hnone, hj⟩ | ⟨l, k, hqueued, rfl, hl⟩
  · have hplaces : Function.update places (nameAt runs me) (some (.ready j)) = places :=
      Function.update_eq_self_iff.2 hready.symm
    refine ⟨ms, List.prefix_rfl, ?_⟩
    rw [hplaces]
    exact hunder
  · refine ⟨_, List.prefix_append .., hunder.snoc hjobs hs₀ (.started hj hnone)
      (fun _ hne => Function.update_of_ne hne _ _) nofun (fun p hp => ?_) (fun x hx hi => ?_)
      fun i hi _ => .inl hi⟩
    · cases hnone.symm.trans hp
    · rw [h.quiet x hx] at hi
      cases hi
  · exact ⟨_, List.prefix_append .., hunder.step hjobs hs₀ (.woke hqueued hl) rfl
      fun i hi _ => .inl hi⟩

theorem turn_waiting (h : Mirrors (rules jobs mayDrop observers) s₀ s ms places runs)
    (ht : t ∈ s.tasks) {o : Outside} {d : Delay} {k : o.Answer → Job α}
    (hstand : t.stand = .waiting o d k) (left : Nat) :
    ∃ ms' places' runs', ms <+: ms' ∧ Mirrors (rules jobs mayDrop observers) s₀
      (match s.world.resume o d with
        | (.inl a, w) => (s.setWorld w).carryOn t (k a) (left - 1)
        | (.inr d, w) => (s.setWorld w).settle t (.waiting o d k)) ms' places' runs' := by
  have hid : ∀ x ∈ s.results, x.1 ≠ t.id := fun x hx => ((h.results x hx).1 t ht).symm
  obtain ⟨haway, hagain⟩ := h.tasks t ht
  rw [hstand] at haway
  have hunder := h.underway t.id
  rcases hresume : s.world.resume o d with ⟨a | d', w⟩
  · have hheard : Step (rules jobs mayDrop observers) (s.shared.crowd (nameAt runs) places)
        (.heard (nameAt runs t.id) o (.answers (some d)) a)
        (Shared.crowd { s.shared with world := w } (nameAt runs) _) :=
      .heard haway (rules_answer (some d) hresume)
    have hunder' := hunder.step hjobs hs₀ hheard rfl fun i hi _ => .inl hi
    have halike : Alike { s with shared := (s.setWorld w).shared } (s.setWorld w) :=
      ⟨rfl, rfl, rfl, rfl, rfl⟩
    obtain ⟨ms', places', runs', hms, h'⟩ := h.carryOn hjobs hs₀ halike hid hagain hunder' (left - 1)
    exact ⟨ms', places', runs', (List.prefix_append ..).trans hms, h'⟩
  · have hplaces : Function.update places (nameAt runs t.id) (some (.away o k)) = places :=
      Function.update_eq_self_iff.2 haway.symm
    have hyields := h.yields _ _ haway
    have hbefell : Step (rules jobs mayDrop observers) (s.shared.crowd (nameAt runs) places)
        (.befell (.waits o (some d))) (Shared.crowd { s.shared with world := w } (nameAt runs) _) :=
      .befell (rules_befall (some d) hresume _)
    have hunder' := hunder.befall hjobs hs₀ hbefell haway hyields rfl rfl
    have hafter := (h.without t.id).after_turn hid hunder' hplaces.symm hyields rfl
    have hquiet : wake ((s.setWorld w).without t.id) = (s.setWorld w).without t.id :=
      wake_of_none h.woken
    obtain ⟨runs', hsettled⟩ := settle (s := s.setWorld w) (q := .waiting o d' k) hjobs hs₀
      (hquiet ▸ hafter) haway hagain hid
    exact ⟨_, _, runs', List.prefix_append .., hsettled⟩

theorem underway_dropped (h : Mirrors (rules jobs mayDrop observers) s₀ s ms places runs)
    (hp : places (nameAt runs me) = some p) (hsuspended : p.isSuspended = true)
    (hmay : mayDrop (nameAt runs me) = true) :
    ∃ ms', ms <+: ms' ∧ Underway (rules jobs mayDrop observers) s₀ (nameAt runs) me
      (Handed (s.shared.crowd (nameAt runs) places)) ms'
      { s.shared with
        locks := (s.shared.locks.abandon me).2
        woken := s.shared.woken ++ (s.shared.locks.abandon me).1 }
      (Function.update places (nameAt runs me) (some .dropped)) := by
  have hdropped : Step (rules jobs mayDrop observers) (s.shared.crowd (nameAt runs) places) _ _ :=
    .dropped hp hsuspended hmay
  have hlocks : ((s.shared.crowd (nameAt runs) places).locks.abandon (nameAt runs me)).2 =
      (s.shared.locks.abandon me).2.rename (nameAt runs) :=
    s.shared.locks.abandon_rename (nameAt_injective runs) me
  rw [hlocks] at hdropped
  refine ⟨_, List.prefix_append .., (h.underway me).snoc hjobs hs₀ hdropped
    (fun _ hne => Function.update_of_ne hne _ _) nofun (fun q hq hno => ?_) (fun x hx hi => ?_)
    fun i hi hne => ?_⟩
  · rw [h.yields _ q hq] at hno
    cases hno
  · rw [h.quiet x hx] at hi
    cases hi
  · rcases List.mem_append.1 hi with hi | hi
    · exact .inl hi
    · obtain ⟨l, -, hwaiting, hheld⟩ := Locks.mem_abandon hi
      obtain ⟨held, -, horderly⟩ := h.trail.run.orderly hjobs hs₀
      exact .inr (handed_of_waiting (l := l) horderly (List.mem_map_of_mem hwaiting)
        (Function.update_of_ne hne _ _) (congrArg (Option.map (nameAt runs)) hheld))

theorem drop (h : Mirrors (rules jobs mayDrop observers) s₀ s ms places runs) (ht : t ∈ s.tasks)
    (hstand : t.stand = .ending) :
    ∃ ms' places', ms <+: ms' ∧
      Mirrors (rules jobs mayDrop observers) s₀ (s.drop t.id) ms' places' runs := by
  have hid : ∀ x ∈ s.results, x.1 ≠ t.id := fun x hx => ((h.results x hx).1 t ht).symm
  have hmay : (Stand.ending : Stand α).At _ _ _ := hstand ▸ (h.tasks t ht).stand
  by_cases hunfinished : (s.shared.crowd (nameAt runs) places).Unfinished (nameAt runs t.id)
  · obtain ⟨q, hq, hsuspended⟩ := hunfinished.isSuspended h.yields
    obtain ⟨ms', hms, hunder⟩ := h.underway_dropped hjobs hs₀ hq hsuspended hmay
    exact ⟨_, _, hms, (h.without t.id).after_turn hid hunder rfl rfl rfl⟩
  · have hlockless := Locks.abandon_of_lockless (h.lockless hjobs hs₀ hunfinished)
    have hsame : s.drop t.id = (s.without t.id).wake := by
      unfold Schedule.drop
      rw [hlockless]
      dsimp only
      rw [List.append_nil]
      rfl
    have hquiet : (s.without t.id).wake = s.without t.id := wake_of_none h.woken
    rw [hsame, hquiet]
    exact ⟨ms, places, List.prefix_rfl, h.without t.id⟩

theorem turn (h : Mirrors (rules jobs mayDrop observers) s₀ s ms places runs) (id : TaskId) :
    ∃ ms' places' runs', ms <+: ms' ∧
      Mirrors (rules jobs mayDrop observers) s₀ (s.turn id) ms' places' runs' := by
  unfold Schedule.turn
  cases hfind : s.task? id with
  | none => exact ⟨_, _, _, List.prefix_rfl, h⟩
  | some t =>
    obtain ⟨ht, rfl⟩ := mem_of_task? hfind
    obtain ⟨hat, hagain⟩ := h.tasks t ht
    have hid : ∀ x ∈ s.results, x.1 ≠ t.id := fun x hx => ((h.results x hx).1 t ht).symm
    dsimp only
    generalize (if t.inFront then s.left else Job.turnLength) = left
    cases hstand : t.stand with
    | ready j =>
      rw [hstand] at hat
      obtain ⟨ms', hms, hunder⟩ := h.ready hjobs hs₀ hat
      obtain ⟨ms'', places', runs', hms', h'⟩ := h.carryOn hjobs hs₀
        ⟨rfl, rfl, rfl, rfl, rfl⟩ hid hagain hunder left
      exact ⟨ms'', places', runs', hms.trans hms', h'⟩
    | blocked k => exact ⟨_, _, _, List.prefix_rfl, h⟩
    | waiting o d k => exact h.turn_waiting hjobs hs₀ ht hstand left
    | ticking =>
      dsimp only
      cases hrepeats : t.repeats? with
      | none => exact ⟨_, _, _, List.prefix_rfl, h⟩
      | some x =>
        obtain ⟨ticker, j⟩ := x
        rw [hstand] at hat
        obtain ⟨ms', hms, hunder⟩ := h.ready hjobs hs₀ (.inr (.inl ⟨hat, (hagain _ hrepeats _).1⟩))
        have hagain' : Task.Again jobs runs places
            { t with repeats? := some (ticker.tick s.now, j) } := by
          rintro _ ⟨⟩
          have hsame := hagain _ hrepeats
          exact hsame
        obtain ⟨ms'', places', runs', hms', h'⟩ :=
          h.carryOn (t := { t with repeats? := some (ticker.tick s.now, j) }) hjobs hs₀
            ⟨rfl, rfl, rfl, rfl, rfl⟩ hid hagain' hunder (left - 1)
        exact ⟨ms'', places', runs', hms.trans hms', h'⟩
    | ending =>
      obtain ⟨ms', places', hms, hdropped⟩ := h.drop hjobs hs₀ ht hstand
      exact ⟨ms', places', runs, hms, hdropped⟩

omit hjobs hs₀ in
theorem passes (h : Mirrors (rules jobs mayDrop observers) s₀ s ms places runs) (due : Nat) :
    ∃ ms', ms <+: ms' ∧ Mirrors (rules jobs mayDrop observers) s₀
      (s.setWorld { s.world with now := max s.now due }) ms' places runs := by
  have hstep : Step (rules jobs mayDrop observers) (s.shared.crowd (nameAt runs) places)
      (.befell (.passes due)) (Shared.crowd
        { s.shared with world := { s.world with now := max s.now due } } (nameAt runs) places) :=
    .befell rfl
  refine ⟨_, List.prefix_append .., h.observers, h.trail.snoc hstep,
    inTurns_snoc_iff.2 ⟨h.inTurns, fun i p hi hno => ?_⟩,
    direct_snoc_iff.2 ⟨h.direct, fun x i hx hi => ?_⟩, fun x hx => ?_, h.yields, h.woken,
    fun t ht => (h.tasks t ht).congr rfl (fun _ => rfl) id, h.results⟩
  · rw [h.yields i p hi] at hno
    cases hno
  · rw [h.quiet x hx] at hi
    cases hi
  · rw [List.getLast?_concat] at hx
    cases hx
    rfl

theorem kept (ms : List (Move α World Chance ω ε)) : Kept fun s : Schedule α ω ε =>
    ∃ ms' places runs, ms <+: ms' ∧
      Mirrors (rules jobs mayDrop observers) s₀ s ms' places runs where
  alike := by
    rintro s s' hlike ⟨ms', places, runs, hms, h⟩
    exact ⟨ms', places, runs, hms, h.alike hlike⟩
  turn := by
    rintro s id ⟨ms', places, runs, hms, h⟩
    obtain ⟨ms'', places', runs', hms', h'⟩ := h.turn hjobs hs₀ id
    exact ⟨ms'', places', runs', hms.trans hms', h'⟩
  passes := by
    rintro s due ⟨ms', places, runs, hms, h⟩
    obtain ⟨ms'', hms', h'⟩ := h.passes due
    exact ⟨ms'', places, runs, hms.trans hms', h'⟩

theorem step? (h : Mirrors (rules jobs mayDrop observers) s₀ s ms places runs)
    (hstep : s.step? = some s') :
    ∃ ms' places' runs', ms <+: ms' ∧
      Mirrors (rules jobs mayDrop observers) s₀ s' ms' places' runs' :=
  (kept hjobs hs₀ ms).step? hstep ⟨ms, places, runs, List.prefix_rfl, h⟩

theorem runFor (h : Mirrors (rules jobs mayDrop observers) s₀ s ms places runs)
    (busy : Schedule α ω ε → Bool) (n : Nat) :
    ∃ ms' places' runs', ms <+: ms' ∧
      Mirrors (rules jobs mayDrop observers) s₀ (s.runFor busy n) ms' places' runs' :=
  (kept hjobs hs₀ ms).runFor busy n ⟨ms, places, runs, List.prefix_rfl, h⟩

end

end Mirrors

/-! ### Whole runs -/

structure Begins (s : Schedule α ω ε) (jobs : TaskId → Option (Job α)) (mayDrop : TaskId → Bool) :
    Prop where
  locks : s.shared.locks = .free
  woken : s.shared.woken = []
  results : s.results = []
  stand : ∀ t ∈ s.tasks, match t.stand with
    | .ready j => jobs (Nat.pair t.id 0) = some j
    | .ticking => True
    | .ending => mayDrop (Nat.pair t.id 0) = true
    | .blocked _ | .waiting _ _ _ => False
  again : ∀ t ∈ s.tasks, ∀ x, t.repeats? = some x → ∀ n, jobs (Nat.pair t.id n) = some x.2

def crowd (s : Schedule α ω ε) : Crowd α World ω ε where
  gateway := s.shared.gateway
  world := s.shared.world

section

variable [DecidableEq ω] {jobs : TaskId → Option (Job α)} {mayDrop : TaskId → Bool}
  {s : Schedule α ω ε}

theorem Begins.mirrors (h : s.Begins jobs mayDrop) :
    Mirrors (rules jobs mayDrop s.observers) s.crowd s [] (fun _ => none) fun _ => 0 where
  observers := rfl
  trail := by
    have hcrowd : s.shared.crowd (nameAt fun _ => 0) (fun _ => none) = s.crowd := by
      unfold Shared.crowd
      rw [h.locks]
      rfl
    rw [hcrowd]
    exact .nil
  inTurns := List.forall_mem_nil _
  direct := .nil
  quiet x hx := by cases hx
  yields i p hp := by cases hp
  woken := h.woken
  tasks t ht := by
    refine ⟨?_, fun x hx n => ⟨h.again t ht x hx n, fun _ => rfl⟩⟩
    have hstand := h.stand t ht
    cases hst : t.stand with
    | ready j =>
      rw [hst] at hstand
      exact .inr (.inl ⟨rfl, hstand⟩)
    | ticking => rfl
    | ending =>
      rw [hst] at hstand
      exact hstand
    | blocked | waiting =>
      rw [hst] at hstand
      exact hstand.elim
  results := by
    rw [h.results]
    exact List.forall_mem_nil _

/-- What a schedule comes to a trail comes to as well, in which no task comes on before the turn of
another is over. Each result is that of a run which has ended there. -/
theorem exists_trail_of_runFor (h : s.Begins jobs mayDrop)
    (hjobs : ∀ i j, jobs i = some j → j.Keeps Discipline Discipline.Ends [])
    (busy : Schedule α ω ε → Bool) (n : Nat) :
    ∃ ms c, Trail (rules jobs mayDrop s.observers) s.crowd ms c ∧ InTurns ms ∧ Direct ms ∧
      c.gateway = (s.runFor busy n).shared.gateway ∧ c.world = (s.runFor busy n).world ∧
      (∃ runs, c.locks = (s.runFor busy n).shared.locks.rename (nameAt runs)) ∧
      (∀ i p, c.tasks i = some p → p.yields = true) ∧
      ∀ x ∈ (s.runFor busy n).results, ∃ k, c.tasks (Nat.pair x.1 k) = some (.ready (.done x.2)) := by
  obtain ⟨ms, places, runs, -, hmirrors⟩ := h.mirrors.runFor hjobs ⟨rfl, rfl⟩ busy n
  exact ⟨ms, _, hmirrors.trail, hmirrors.inTurns, hmirrors.direct, rfl, rfl, ⟨runs, rfl⟩,
    hmirrors.yields, fun x hx => (hmirrors.results x hx).2⟩

end

end Schedule

end MillGateway
