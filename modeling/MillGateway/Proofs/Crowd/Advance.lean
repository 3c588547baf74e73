import MillGateway.Proofs.Crowd.Queues
import MillGateway.Proofs.Crowd.Turns
import MillGateway.Schedule

/-! Tasks that take turns are a crowd, in which each may go by another name. Main statement: what a task
does in its turn is a run of steps of that task, whatever stops it, and its turn is over then. -/

namespace MillGateway

/-! ### Tasks under other names -/

def LockState.rename (f : TaskId → TaskId) (st : LockState) : LockState :=
  ⟨st.holder.map f, st.waiting.map f⟩

namespace Locks

def rename (f : TaskId → TaskId) (ls : Locks) : Locks :=
  fun l => (ls l).rename f

variable {f : TaskId → TaskId}

theorem rename_set (ls : Locks) (l : Lock) (st : LockState) :
    (ls.set l st).rename f = (ls.rename f).set l (st.rename f) := by
  funext l'
  unfold rename set
  split <;> rfl

theorem acquire_rename (ls : Locks) (l : Lock) (i : TaskId) :
    (ls.rename f).acquire l (f i) = ((ls.acquire l i).1, (ls.acquire l i).2.rename f) := by
  unfold acquire
  cases h : (ls l).holder with
  | none =>
    have hnone : (ls.rename f l).holder = none := congrArg (Option.map f) h
    simp only [hnone, rename_set]
    rfl
  | some i' =>
    have hsome : (ls.rename f l).holder = some (f i') := congrArg (Option.map f) h
    simp only [hsome, rename_set]
    simp [rename, LockState.rename, h]

theorem of_release_eq_some {ls : Locks} {l : Lock} {i : TaskId} (h : (ls.release l).1 = some i) :
    i ∈ (ls l).waiting ∧ ((ls.release l).2 l).holder = some i := by
  rw [release] at h ⊢
  cases hwaiting : (ls l).waiting with
  | nil =>
    rw [hwaiting] at h
    cases h
  | cons j js =>
    rw [hwaiting] at h
    obtain rfl := Option.some.inj h
    exact ⟨List.mem_cons_self, congrArg LockState.holder (set_self ..)⟩

theorem release_rename (ls : Locks) (l : Lock) :
    (ls.rename f).release l = ((ls.release l).1.map f, (ls.release l).2.rename f) := by
  unfold release
  cases h : (ls l).waiting with
  | nil =>
    have hnil : (ls.rename f l).waiting = [] := congrArg (List.map f) h
    simp only [hnil, rename_set]
    rfl
  | cons t ts =>
    have hcons : (ls.rename f l).waiting = f t :: ts.map f := congrArg (List.map f) h
    simp only [hcons, rename_set]
    rfl

theorem abandon_rename (hf : Function.Injective f) (ls : Locks) (i : TaskId) :
    ((ls.rename f).abandon (f i)).2 = (ls.abandon i).2.rename f := by
  have hother : ∀ i', f i' != f i ↔ i' != i := fun i' => by simpa using hf.ne_iff
  have hfilter : ∀ is : List TaskId,
      (is.map f).filter (· != f i) = (is.filter (· != i)).map f := by
    intro is
    rw [List.filter_map]
    exact congrArg (List.map f) (List.filter_congr fun i' _ => Bool.eq_iff_iff.2 (hother i'))
  have hheld : ∀ i? : Option TaskId, i?.map f = some (f i) ↔ i? = some i := by
    intro i?
    cases i? with
    | none => exact iff_of_false nofun nofun
    | some i' => simpa using hf.eq_iff
  funext l
  rw [abandon_apply]
  change _ = ((ls.abandon i).2 l).rename f
  rw [abandon_apply]
  unfold rename LockState.rename LockState.abandoned LockState.handedOn
  simp only [hheld, hfilter]
  split
  · cases (ls l).waiting.filter (· != i) <;> rfl
  · rfl

theorem mem_abandonOne {acc : List TaskId × Locks} {l : Lock} {i i' : TaskId}
    (h : i' ∈ (abandonOne i acc l).1) :
    i' ∈ acc.1 ∨ (acc.2 l).holder = some i ∧ i' ∈ (acc.2 l).waiting ∧
      ((acc.2 l).abandoned i).holder = some i' := by
  unfold abandonOne release at h
  dsimp only at h
  rw [set_self] at h
  split at h
  next hheld =>
    refine (List.mem_append.1 h).imp_right fun hmem => ?_
    cases hwaiting : (acc.2 l).waiting.filter (· != i) with
    | nil =>
      rw [hwaiting] at hmem
      cases hmem
    | cons j js =>
      rw [hwaiting] at hmem
      obtain rfl : i' = j := by simpa using hmem
      have hfirst : i' ∈ (acc.2 l).waiting.filter (· != i) := hwaiting ▸ List.mem_cons_self
      refine ⟨hheld, (List.mem_filter.1 hfirst).1, ?_⟩
      rw [LockState.abandoned, if_pos hheld, LockState.handedOn]
      simp only [hwaiting]
  next => exact .inl h

theorem mem_abandon {ls : Locks} {i i' : TaskId} (h : i' ∈ (ls.abandon i).1) :
    ∃ l, (ls l).holder = some i ∧ i' ∈ (ls l).waiting ∧
      ((ls.abandon i).2 l).holder = some i' := by
  have hfold : ∀ (all : List Lock) (acc : List TaskId × Locks), all.Nodup →
      (∀ l ∈ all, acc.2 l = ls l) → i' ∈ (all.foldl (abandonOne i) acc).1 →
        i' ∈ acc.1 ∨ ∃ l, (ls l).holder = some i ∧ i' ∈ (ls l).waiting ∧
          ((ls l).abandoned i).holder = some i' := by
    intro all
    induction all with
    | nil => exact fun acc _ _ hmem => .inl hmem
    | cons l all ih =>
      intro acc hall hacc hmem
      obtain ⟨hl, hall⟩ := List.nodup_cons.1 hall
      have hrest : ∀ l' ∈ all, (abandonOne i acc l).2 l' = ls l' := by
        intro l' hl'
        have hne : l' ≠ l := fun he => hl (he ▸ hl')
        exact (abandonOne_of_ne acc i hne).trans (hacc l' (List.mem_cons_of_mem _ hl'))
      rcases ih _ hall hrest hmem with hmem | hlater
      · refine (mem_abandonOne hmem).imp_right fun hnew => ⟨l, ?_⟩
        rwa [hacc l List.mem_cons_self] at hnew
      · exact .inr hlater
  rcases hfold _ ([], ls) (by decide) (fun _ _ => rfl) h with hmem | ⟨l, hheld, hwaiting, hnext⟩
  · cases hmem
  · exact ⟨l, hheld, hwaiting, by rwa [abandon_apply]⟩

end Locks
open Crowd

/-! ### A turn -/

def Pause.place : Pause δ α → Place α
  | .finished a => .ready (.done a)
  | .blocked l k => .queued l fun _ => k
  | .waiting o _ k => .away o k
  | .spent j => .ready j

def Shared.crowd (sh : Shared σ ω ε) (name : TaskId → TaskId)
    (tasks : TaskId → Option (Place α)) : Crowd α σ ω ε :=
  ⟨sh.gateway, sh.locks.rename name, sh.world, tasks⟩

/-- Whether the world outside may do all that it does when tasks take turns. -/
structure Crowd.Rules.Allows (R : Rules α σ χ ω ε) (floor : Floor σ δ ω ε) : Prop where
  observers : R.observers = floor.observers
  answer : ∀ {o w a w'}, floor.ask o w = (.inl a, w') → ∃ c, R.answer o c w = some (a, w')
  wait : ∀ {o w d w'}, floor.ask o w = (.inr d, w') → ∃ c, ∀ r, R.befall c (r, w) = some (r, w')
  prompt : ∀ {o w d w'}, floor.ask o w = (.inr d, w') → o.isPrompt = false

namespace Crowd

/-- Whether a task that has queued for a lock has been handed it. -/
def Handed (s : Crowd α σ ω ε) (i : TaskId) : Prop :=
  ∀ l k, s.tasks i = some (.queued l k) → (s.locks l).holder = some i

section

variable [DecidableEq ω] {R : Rules α σ χ ω ε} {floor : Floor σ δ ω ε} {s₀ s s' : Crowd α σ ω ε}
  {name : TaskId → TaskId} {me : TaskId} {handed : TaskId → Prop} {ms ms' : List (Move α σ χ ω ε)}
  {sh sh' : Shared σ ω ε} {e : Event χ} {tasks tasks' : TaskId → Option (Place α)} {p : Place α}

theorem Handed.step {held : TaskId → List Lock} {i : TaskId}
    (hfollows : Follows Discipline Discipline.Ends (fun _ => []) s held) (horderly : Orderly s held)
    (hstep : Step R s e s') (hsame : s'.tasks i = s.tasks i) (h : Handed s i) : Handed s' i := by
  intro l k hi
  have hbefore : s.tasks i = some (.queued l k) := hsame ▸ hi
  rcases hstep.holder_of_held (h l k hbefore) with hheld | ⟨i', rfl⟩ | rfl
  · exact hheld
  · -- who gives a lock back holds it, and has not queued for it
    obtain ⟨k', hk', -⟩ := hstep.of_answered rfl
    obtain ⟨q, hq, -⟩ := hfollows.keeps i' _ hk' ()
    have hwithin : Within (l ∈ ·) s held i' := by
      refine ⟨⟨_, hk'⟩, ?_⟩
      rw [hq.of_release.1]
      exact List.mem_cons_self
    obtain ⟨hholder, hnot⟩ := (horderly l).held hwithin
    obtain rfl : i = i' := Option.some.inj ((h l k hbefore).symm.trans hholder)
    exact absurd ⟨k, hbefore⟩ hnot
  · have hgone := hstep.jobAt_of_dropped
    rw [jobAt_of_task hi] at hgone
    cases hgone

/-- What has happened when `me` has its turn, under its name, and all others wait for theirs. -/
structure Underway (R : Rules α σ χ ω ε) (s₀ : Crowd α σ ω ε) (name : TaskId → TaskId) (me : TaskId)
    (handed : TaskId → Prop) (ms : List (Move α σ χ ω ε)) (sh : Shared σ ω ε)
    (tasks : TaskId → Option (Place α)) : Prop where
  trail : Trail R s₀ ms (sh.crowd name tasks)
  inTurns : InTurns ms
  direct : Direct ms
  last : ∀ x i, ms.getLast? = some x → x.caller? = some i → i = name me
  others : ∀ i p, i ≠ name me → tasks i = some p → p.yields = true
  handed : ∀ i, i ≠ name me → (handed i ∨ ∃ i' ∈ sh.woken, name i' = i) →
    Handed (sh.crowd name tasks) i

omit [DecidableEq ω] in
theorem handed_of_waiting {held : TaskId → List Lock} {i : TaskId} {l : Lock}
    (horderly : Orderly s held) (hwaiting : i ∈ (s.locks l).waiting)
    (hsame : s'.tasks i = s.tasks i) (hholder : (s'.locks l).holder = some i) : Handed s' i := by
  intro l' k' hi'
  obtain ⟨⟨k, hk⟩, -⟩ := (horderly l).waiting.1 hwaiting
  rw [hsame, hk] at hi'
  cases hi'
  exact hholder

section

variable (hjobs : ∀ i j, R.jobs i = some j → j.Keeps Discipline Discipline.Ends [])
  (hs₀ : s₀.Fresh)
include hjobs hs₀

theorem Underway.snoc (h : Underway R s₀ name me handed ms sh tasks)
    (hstep : Step R (sh.crowd name tasks) e (sh'.crowd name tasks'))
    (hothers : ∀ i, i ≠ name me → tasks' i = tasks i)
    (hmine : ∀ i, e.mover? = some i → i = name me)
    (hyields : ∀ p, tasks (name me) = some p → p.yields = false → e.mover? = some (name me))
    (hcalls : ∀ x, ms.getLast? = some x → x.caller? = some (name me) → e.mover? = some (name me))
    (hwoken : ∀ i ∈ sh'.woken, name i ≠ name me →
      i ∈ sh.woken ∨ Handed (sh'.crowd name tasks') (name i)) :
    Underway R s₀ name me handed (ms ++ [⟨sh.crowd name tasks, e, sh'.crowd name tasks'⟩]) sh'
      tasks' where
  trail := h.trail.snoc hstep
  inTurns := by
    refine inTurns_snoc_iff.2 ⟨h.inTurns, fun i p hi hp => ?_⟩
    by_cases hne : i = name me
    · subst hne
      exact hyields p hi hp
    · rw [h.others i p hne hi] at hp
      cases hp
  direct := by
    refine direct_snoc_iff.2 ⟨h.direct, fun x i hx hi => ?_⟩
    obtain rfl := h.last x i hx hi
    exact hcalls x hx hi
  last := by
    intro x i hx hi
    rw [List.getLast?_concat] at hx
    cases hx
    exact hmine i (Move.caller?_eq_some.1 hi).1
  others := by
    intro i p hne hi
    rw [hothers i hne] at hi
    exact h.others i p hne hi
  handed := by
    obtain ⟨held, hfollows, horderly⟩ := h.trail.run.orderly hjobs hs₀
    have hkept : ∀ i, i ≠ name me → Handed (sh.crowd name tasks) i →
        Handed (sh'.crowd name tasks') i :=
      fun i hne hi => hi.step hfollows horderly hstep (hothers i hne)
    rintro i hne (hi | ⟨i', hi', rfl⟩)
    · exact hkept i hne (h.handed i hne (.inl hi))
    · rcases hwoken i' hi' hne with hbefore | hnow
      · exact hkept _ hne (h.handed _ hne (.inr ⟨i', hbefore, rfl⟩))
      · exact hnow

theorem Underway.step (h : Underway R s₀ name me handed ms sh tasks)
    (hstep : Step R (sh.crowd name tasks) e
      (sh'.crowd name (Function.update tasks (name me) (some p))))
    (hmover : e.mover? = some (name me))
    (hwoken : ∀ i ∈ sh'.woken, name i ≠ name me →
      i ∈ sh.woken ∨
        Handed (sh'.crowd name (Function.update tasks (name me) (some p))) (name i)) :
    Underway R s₀ name me handed
      (ms ++ [⟨sh.crowd name tasks, e, sh'.crowd name (Function.update tasks (name me) (some p))⟩])
      sh' (Function.update tasks (name me) (some p)) :=
  h.snoc hjobs hs₀ hstep (fun _ hne => Function.update_of_ne hne _ _)
    (fun _ hi => Option.some.inj (hi.symm.trans hmover)) (fun _ _ _ => hmover)
    (fun _ _ _ => hmover) hwoken

theorem Underway.befall (h : Underway R s₀ name me handed ms sh tasks) {c : χ}
    (hstep : Step R (sh.crowd name tasks) (.befell c) (sh'.crowd name tasks))
    (hme : tasks (name me) = some p) (hyields : p.yields = true) (hcalls : p.calls = false)
    (hwoken : sh'.woken = sh.woken) :
    Underway R s₀ name me handed
      (ms ++ [⟨sh.crowd name tasks, .befell c, sh'.crowd name tasks⟩]) sh' tasks := by
  refine h.snoc hjobs hs₀ hstep (fun _ _ => rfl) nofun (fun q hq hno => ?_) (fun x hx hi => ?_)
    fun i hi _ => .inl (hwoken ▸ hi)
  · rw [← Option.some.inj (hme.symm.trans hq), hyields] at hno
    cases hno
  · obtain ⟨-, q, hq, hcalls'⟩ := Move.caller?_eq_some.1 hi
    rw [h.trail.after_last hx] at hq
    rw [← Option.some.inj (hme.symm.trans hq), hcalls] at hcalls'
    cases hcalls'

theorem Underway.acquire (h : Underway R s₀ name me handed ms sh tasks) {l : Lock}
    {k : Unit → Job α} (hme : tasks (name me) = some (.ready (.ask (.acquire l) k))) :
    ∃ ms', Underway R s₀ name me handed (ms ++ ms') { sh with locks := (sh.locks.acquire l me).2 }
      (Function.update tasks (name me)
        (some (if (sh.locks.acquire l me).1 then .ready (k ()) else .queued l k))) := by
  have hrename := sh.locks.acquire_rename (f := name) l me
  have hlocks : ((sh.crowd name tasks).locks.acquire l (name me)).2 =
      (sh.locks.acquire l me).2.rename name := congrArg Prod.snd hrename
  cases hl : (sh.locks.acquire l me).1 with
  | true =>
    have htook := Step.took (R := R) (s := sh.crowd name tasks) hme
      ((congrArg Prod.fst hrename).trans hl)
    rw [hlocks] at htook
    exact ⟨_, h.step hjobs hs₀ htook rfl fun i hi _ => .inl hi⟩
  | false =>
    have hqueued := Step.queued (R := R) (s := sh.crowd name tasks) hme
      ((congrArg Prod.fst hrename).trans hl)
    rw [hlocks] at hqueued
    exact ⟨_, h.step hjobs hs₀ hqueued rfl fun i hi _ => .inl hi⟩

theorem Underway.release (h : Underway R s₀ name me handed ms sh tasks) {l : Lock}
    {k : Unit → Job α} (hme : tasks (name me) = some (.ready (.ask (.release l) k))) :
    ∃ ms', Underway R s₀ name me handed (ms ++ ms')
      { sh with
        locks := (sh.locks.release l).2
        woken := sh.woken ++ (sh.locks.release l).1.toList }
      (Function.update tasks (name me) (some (.ready (k ())))) := by
  have hgave := Step.gave (R := R) (s := sh.crowd name tasks) hme
  have hlocks : ((sh.crowd name tasks).locks.release l).2 =
      (sh.locks.release l).2.rename name := congrArg Prod.snd (sh.locks.release_rename l)
  rw [hlocks] at hgave
  refine ⟨_, h.step hjobs hs₀ hgave rfl fun i hi hne => ?_⟩
  rcases List.mem_append.1 hi with hi | hi
  · exact .inl hi
  · obtain ⟨hwaiting, hholder⟩ := Locks.of_release_eq_some (Option.mem_toList.1 hi)
    obtain ⟨held, -, horderly⟩ := h.trail.run.orderly hjobs hs₀
    refine .inr (handed_of_waiting (l := l) horderly ?_ (Function.update_of_ne hne _ _) ?_)
    · exact List.mem_map_of_mem hwaiting
    · exact congrArg (Option.map name) hholder

end

def Stops (R : Rules α σ χ ω ε) (s₀ : Crowd α σ ω ε) (name : TaskId → TaskId) (me : TaskId)
    (handed : TaskId → Prop) (ms : List (Move α σ χ ω ε)) (tasks : TaskId → Option (Place α))
    (x : Pause δ α × Nat × Shared σ ω ε) : Prop :=
  ∃ ms', Underway R s₀ name me handed (ms ++ ms') x.2.2
      (Function.update tasks (name me) (some x.1.place)) ∧
    x.1.place.yields = true ∧ x.1.place.calls = false

theorem Stops.of_step {x : Pause δ α × Nat × Shared σ ω ε}
    (h : Stops R s₀ name me handed (ms ++ ms') (Function.update tasks (name me) (some p)) x) :
    Stops R s₀ name me handed ms tasks x := by
  obtain ⟨ms'', hunder, hover⟩ := h
  rw [List.append_assoc, Function.update_idem] at hunder
  exact ⟨_, hunder, hover⟩

theorem Underway.stops {q : Pause δ α} {left : Nat}
    (h : Underway R s₀ name me handed ms sh tasks) (hme : tasks (name me) = some q.place)
    (hyields : q.place.yields = true) (hcalls : q.place.calls = false) :
    Stops R s₀ name me handed ms tasks (q, left, sh) := by
  refine ⟨[], ?_, hyields, hcalls⟩
  rw [List.append_nil, ← hme, Function.update_eq_self]
  exact h

omit [DecidableEq ω] in
theorem isPrompt_of_effort {o : Outside} {left : Nat} (h : left < o.effort) :
    o.isPrompt = false := by
  cases o with
  | clock | localTime => exact absurd h (Nat.not_lt_zero _)
  | _ => rfl

section

variable (hjobs : ∀ i j, R.jobs i = some j → j.Keeps Discipline Discipline.Ends [])
  (hs₀ : s₀.Fresh)
include hjobs hs₀

theorem stops_outside (h : R.Allows floor) {o : Outside} {k : o.Answer → Job α} (left : Nat)
    (hunder : Underway R s₀ name me handed ms sh tasks)
    (hme : tasks (name me) = some (.ready (.ask (.outside o) k)))
    (hrest : ∀ a {ms} {sh : Shared σ ω ε} {tasks : TaskId → Option (Place α)},
      Underway R s₀ name me handed ms sh tasks → tasks (name me) = some (.ready (k a)) →
        Stops R s₀ name me handed ms tasks ((k a).advance floor me (left - o.effort) sh)) :
    Stops R s₀ name me handed ms tasks ((Job.ask (.outside o) k).advance floor me left sh) := by
  by_cases heffort : left < o.effort
  · simp only [Job.advance, if_pos heffort]
    refine hunder.stops hme ?_ (by simpa [Pause.place, Place.calls] using Nat.ne_zero_of_lt heffort)
    simp [Pause.place, Place.yields, Request.isPrompt, isPrompt_of_effort heffort]
  · have hasked := hunder.step hjobs hs₀ (.asked hme) rfl fun i hi _ => .inl hi
    have haway : Function.update tasks (name me) (some (Place.away o k)) (name me) =
        some (.away o k) :=
      Function.update_self ..
    rcases hask : floor.ask o sh.world with ⟨a | d, w⟩
    · obtain ⟨c, hc⟩ := h.answer hask
      simp only [Job.advance, if_neg heffort, hask]
      have hheard : Step R (sh.crowd name (Function.update tasks (name me) (some (.away o k))))
          (.heard (name me) o c a) (Shared.crowd { sh with world := w } name _) := .heard haway hc
      have hunder' := hasked.step hjobs hs₀ hheard rfl fun i hi _ => .inl hi
      exact (hrest a hunder' (Function.update_self ..)).of_step.of_step
    · obtain ⟨c, hc⟩ := h.wait hask
      simp only [Job.advance, if_neg heffort, hask]
      have hyields : (Place.away o k).yields = true := by
        rw [Place.yields, h.prompt hask]
        rfl
      have hbefell : Step R (sh.crowd name (Function.update tasks (name me) (some (.away o k))))
          (.befell c) (Shared.crowd { sh with world := w } name _) := .befell (hc _)
      have hwaiting := hasked.befall hjobs hs₀ hbefell haway hyields rfl rfl
      rw [List.append_assoc] at hwaiting
      exact (hwaiting.stops (q := .waiting o d k) haway hyields rfl).of_step

/-- A task in its turn takes one step after another, and nobody else does. -/
theorem stops_advance (h : R.Allows floor) {j : Job α} (left : Nat)
    (hunder : Underway R s₀ name me handed ms sh tasks) (hme : tasks (name me) = some (.ready j)) :
    Stops R s₀ name me handed ms tasks (j.advance floor me left sh) := by
  induction j generalizing left sh tasks ms with
  | done a => exact hunder.stops hme rfl rfl
  | ask r k ih =>
    cases r with
    | acquire l =>
      cases left with
      | zero => exact hunder.stops hme rfl rfl
      | succ left =>
        obtain ⟨ms', hacquired⟩ := hunder.acquire hjobs hs₀ hme
        cases hheld : (sh.locks.acquire l me).1 with
        | true =>
          rw [if_pos hheld] at hacquired
          simp only [Job.advance, hheld, if_true]
          exact (ih () left hacquired (Function.update_self ..)).of_step
        | false =>
          rw [if_neg (by simp [hheld])] at hacquired
          simp only [Job.advance, hheld]
          exact ⟨ms', hacquired, rfl, rfl⟩
    | release l =>
      obtain ⟨ms', hreleased⟩ := hunder.release hjobs hs₀ hme
      simp only [Job.advance]
      exact (ih () left hreleased (Function.update_self ..)).of_step
    | inside x =>
      have hlooked : Step R (sh.crowd name tasks) (.looked (name me) x _)
          (Shared.crowd { sh with gateway := (sh.gateway.answer R.observers x).2 } name _) :=
        .looked hme
      have hunder' := hunder.step hjobs hs₀ hlooked rfl fun i hi _ => .inl hi
      simp only [Job.advance, ← h.observers]
      exact (ih _ left hunder' (Function.update_self ..)).of_step
    | outside o =>
      exact stops_outside hjobs hs₀ h left hunder hme
        fun a ms sh tasks hunder hme => ih a _ hunder hme

end

end

end Crowd

/-! ### The world of the schedule -/

namespace Schedule

inductive Chance where
  | answers (d? : Option Delay)
  | waits (o : Outside) (d? : Option Delay)
  | passes (due : Nat)

def World.respond (o : Outside) (w : World) : Option Delay → (o.Answer ⊕ Delay) × World
  | none => w.ask o
  | some d => w.resume o d

def rules (jobs : TaskId → Option (Job α)) (mayDrop : TaskId → Bool) (observers : Observers ω ε) :
    Rules α World Chance ω ε where
  jobs := jobs
  mayDrop := mayDrop
  observers := observers
  answer o c w :=
    match c with
    | .answers d? => (w.respond o d?).1.getLeft?.map fun a => (a, (w.respond o d?).2)
    | .waits _ _ | .passes _ => none
  befall c x :=
    match c with
    | .waits o d? => (x.2.respond o d?).1.getRight?.map fun _ => (x.1, (x.2.respond o d?).2)
    | .passes due => some (x.1, { x.2 with now := max x.2.now due })
    | .answers _ => none

section

variable {jobs : TaskId → Option (Job α)} {mayDrop : TaskId → Bool} {observers : Observers ω ε}
  {o : Outside} {w w' : World} {d : Delay}

theorem rules_answer (d? : Option Delay) {a : o.Answer} (h : w.respond o d? = (.inl a, w')) :
    (rules jobs mayDrop observers).answer o (.answers d?) w = some (a, w') := by
  change (w.respond o d?).1.getLeft?.map (fun a => (a, (w.respond o d?).2)) = _
  rw [h]
  rfl

theorem rules_befall (d? : Option Delay) (h : w.respond o d? = (.inr d, w'))
    (r : Subscription.Registry ω) :
    (rules jobs mayDrop observers).befall (.waits o d?) (r, w) = some (r, w') := by
  change (w.respond o d?).1.getRight?.map (fun _ => (r, (w.respond o d?).2)) = _
  rw [h]
  rfl

theorem allows_floor {s : Schedule α ω ε} (hs : s.observers = observers) :
    (rules jobs mayDrop observers).Allows s.floor where
  observers := hs.symm
  answer h := ⟨.answers none, rules_answer none h⟩
  wait h := ⟨.waits _ none, rules_befall none h⟩
  prompt {o w d w'} h := by
    cases o with
    | clock | localTime => cases h
    | _ => rfl

end

end Schedule

end MillGateway
