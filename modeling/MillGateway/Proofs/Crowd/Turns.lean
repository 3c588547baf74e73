import Mathlib.Data.List.Chain
import MillGateway.Proofs.Crowd.Section
import MillGateway.Proofs.Crowd.Trail

/-! Tasks that take turns: one that does not wait for anything comes on before any other does. -/

namespace MillGateway

def Outside.isPrompt : Outside → Bool
  | .clock | .localTime => true
  | _ => false

def Request.isPrompt : Request → Bool
  | .acquire _ => false
  | .release _ | .inside _ => true
  | .outside o => o.isPrompt

namespace Crowd

/-- Whether the turn of a task may be over here. -/
def Place.yields : Place α → Bool
  | .ready (.ask r _) => !r.isPrompt
  | .away o _ => !o.isPrompt
  | .ready (.done _) | .queued _ _ | .dropped => true

def Keeping (s : Crowd α σ ω ε) (e : Event χ) : Prop :=
  ∀ i p, s.tasks i = some p → p.yields = false → e.mover? = some i

def InTurns (ms : List (Move α σ χ ω ε)) : Prop :=
  ∀ x ∈ ms, Keeping x.before x.event

/-- Whether a task that stands here calls on the world outside in the same turn. -/
def Place.calls : Place α → Bool
  | .ready (.ask (.outside o) _) => o.effort == 0
  | _ => false

def Move.caller? (x : Move α σ χ ω ε) : Option TaskId :=
  x.event.mover?.filter fun i => (x.after.tasks i).any Place.calls

/-- Whether who comes to a call makes it before anything else happens. -/
def Direct (ms : List (Move α σ χ ω ε)) : Prop :=
  ms.IsChain fun x y => x.caller? = none ∨ y.event.mover? = x.caller?

instance (ms : List (Move α σ χ ω ε)) : Decidable (Direct ms) :=
  inferInstanceAs (Decidable (ms.IsChain _))

def OneTurn (s : Crowd α σ ω ε) : Prop :=
  ∀ i i' p p', s.tasks i = some p → p.yields = false → s.tasks i' = some p' →
    p'.yields = false → i = i'

section

variable {s : Crowd α σ ω ε} {ms ms' : List (Move α σ χ ω ε)}

theorem inTurns_append_iff : InTurns (ms ++ ms') ↔ InTurns ms ∧ InTurns ms' :=
  List.forall_mem_append

theorem inTurns_snoc_iff {x : Move α σ χ ω ε} :
    InTurns (ms ++ [x]) ↔ InTurns ms ∧ Keeping x.before x.event :=
  inTurns_append_iff.trans (and_congr_right fun _ => List.forall_mem_singleton)

theorem Move.caller?_eq_some {x : Move α σ χ ω ε} {i : TaskId} :
    x.caller? = some i ↔
      x.event.mover? = some i ∧ ∃ p, x.after.tasks i = some p ∧ p.calls = true := by
  rw [caller?, Option.filter_eq_some_iff, Option.any_eq_true_iff_get]
  constructor
  · rintro ⟨hi, h, hp⟩
    exact ⟨hi, _, (Option.some_get h).symm, hp⟩
  · rintro ⟨hi, p, hp, hcalls⟩
    exact ⟨hi, by rw [hp]; rfl, by simpa [hp] using hcalls⟩

theorem Direct.of_append (h : Direct (ms ++ ms')) : Direct ms :=
  h.left_of_append

theorem direct_snoc_iff {y : Move α σ χ ω ε} :
    Direct (ms ++ [y]) ↔ Direct ms ∧ ∀ x i, ms.getLast? = some x → x.caller? = some i →
      y.event.mover? = some i := by
  unfold Direct
  rw [List.isChain_append]
  refine and_congr_right fun _ => ⟨?_, ?_⟩
  · rintro ⟨-, h⟩ x i hx hi
    have hxy := h x (Option.mem_def.2 hx) y (by simp)
    rw [hi] at hxy
    exact hxy.resolve_left nofun
  · refine fun h => ⟨.singleton y, fun x hx y' hy => ?_⟩
    obtain rfl : y = y' := by simpa using hy
    cases hi : x.caller? with
    | none => exact .inl rfl
    | some i => exact .inr (h x i (Option.mem_def.1 hx) hi)

theorem Fresh.oneTurn (hs : s.Fresh) : OneTurn s := by
  intro i i' p p' hi
  rw [hs.tasks] at hi
  cases hi

end

section

variable [DecidableEq ω] {R : Rules α σ χ ω ε} {s₀ s s' : Crowd α σ ω ε} {e : Event χ}
  {ms : List (Move α σ χ ω ε)}

theorem Step.tasks_of_ne (h : Step R s e s') :
    ∃ i, (∀ i', i' ≠ i → s'.tasks i' = s.tasks i') ∧ ∀ i', e.mover? = some i' → i' = i := by
  have hput : ∀ (t : Crowd α σ ω ε) (i : TaskId) (p : Place α), t.tasks = s.tasks →
      ∀ i', i' ≠ i → (t.put i p).tasks i' = s.tasks i' := by
    intro t i p ht i' hne
    exact (Function.update_of_ne hne _ _).trans (congrFun ht i')
  cases h with
  | befell => exact ⟨0, fun _ _ => rfl, fun _ h => by cases h⟩
  | started | dropped => exact ⟨_, hput _ _ _ rfl, fun _ h => by cases h⟩
  | took | queued | woke | gave | looked | asked | heard =>
    exact ⟨_, hput _ _ _ rfl, fun _ h => (Option.some.inj h).symm⟩

theorem Step.oneTurn (h : Step R s e s') (hkeeping : Keeping s e) : OneTurn s' := by
  obtain ⟨i₀, hothers, hmover⟩ := h.tasks_of_ne
  have hself : ∀ i p, s'.tasks i = some p → p.yields = false → i = i₀ := by
    intro i p hi hp
    by_contra hne
    rw [hothers i hne] at hi
    exact hne (hmover i (hkeeping i p hi hp))
  intro i i' p p' hi hp hi' hp'
  rw [hself i p hi hp, hself i' p' hi' hp']

theorem Trail.oneTurn (hs₀ : OneTurn s₀) (h : Trail R s₀ ms s) (hturns : InTurns ms) :
    OneTurn s := by
  cases h with
  | nil => exact hs₀
  | snoc _ hstep => exact hstep.oneTurn (inTurns_snoc_iff.1 hturns).2

def takeTurns (is : List TaskId) (ms : List (Move α σ χ ω ε)) : Bool :=
  ms.all fun x => is.all fun i =>
    ((x.before.tasks i).all Place.yields) || x.event.mover? == some i

theorem Trail.inTurns_of_takeTurns {is : List TaskId} (hjobs : ∀ i j, R.jobs i = some j → i ∈ is)
    (hs₀ : s₀.Fresh) (h : Trail R s₀ ms s) (hturns : takeTurns is ms = true) : InTurns ms := by
  intro x hx i p hp hno
  obtain ⟨ms₁, ms₂, rfl⟩ := List.append_of_mem hx
  obtain ⟨j, hj⟩ := h.at_move.1.run.job_of_task hs₀ hp
  have hi := List.all_eq_true.1 (List.all_eq_true.1 hturns x hx) i (hjobs i j hj)
  simpa [hp, hno] using hi

end

/-! ### Phases that are gone through in one turn -/

section

variable {N : Protocol φ} {post : φ → α → Prop} {start ph : TaskId → φ} {inside : φ → Prop}
  {s : Crowd α σ ω ε}

structure Unbroken (N : Protocol φ) (post : φ → α → Prop) (inside : φ → Prop) : Prop where
  prompt : ∀ {ph r a ph'}, N ph r a ph' → inside ph → r.isPrompt = true
  post : ∀ {ph a}, post ph a → ¬ inside ph

theorem Unbroken.within (hN : Unbroken N post inside) (h : Follows N post start s ph) {i : TaskId}
    (hi : Within inside s ph i) : ∃ p, s.tasks i = some p ∧ p.yields = false := by
  obtain ⟨⟨j, hj⟩, hin⟩ := hi
  obtain ⟨p, hp, hjob⟩ := Option.bind_eq_some_iff.1 hj
  have hkeeps := h.keeps i j hj
  have hprompt : ∀ r k, j = .ask r k → r.isPrompt = true := by
    rintro r k rfl
    obtain ⟨a⟩ := r.nonempty_answer
    obtain ⟨ph', hN', -⟩ := hkeeps a
    exact hN.prompt hN' hin
  refine ⟨p, hp, ?_⟩
  cases p with
  | ready j =>
    cases hjob
    cases j with
    | done a => exact absurd hin (hN.post hkeeps)
    | ask r k =>
      rw [Place.yields, hprompt r k rfl]
      rfl
  | queued l k =>
    cases hjob
    cases hprompt _ _ rfl
  | away o k =>
    cases hjob
    have ho := hprompt _ _ rfl
    rw [Request.isPrompt] at ho
    rw [Place.yields, ho]
    rfl
  | dropped => cases hjob

theorem Unbroken.alone (hN : Unbroken N post inside) (h : Follows N post start s ph)
    (hs : OneTurn s) : Alone inside s ph := by
  intro i i' hi hi'
  obtain ⟨p, hp, hyields⟩ := hN.within h hi
  obtain ⟨p', hp', hyields'⟩ := hN.within h hi'
  exact hs i i' p p' hp hyields hp' hyields'

end

/-! ### Locks that are held within one turn -/

end Crowd

namespace Locks

theorem abandonOne_of_idle {acc : List TaskId × Locks} {l : Lock} {i : TaskId}
    (hwaiting : (acc.2 l).waiting = []) (hholder : (acc.2 l).holder ≠ some i) (l' : Lock) :
    (abandonOne i acc l').2 l = acc.2 l := by
  rw [abandonOne]
  by_cases hl : l = l'
  · subst hl
    have hsame : { acc.2 l with waiting := (acc.2 l).waiting.filter (· != i) } = acc.2 l := by
      rw [hwaiting, List.filter_nil, ← hwaiting]
    rw [hsame, if_neg]
    · exact set_self _ _ _
    · rwa [set_self]
  · dsimp only
    split
    · rw [release_of_ne _ hl, set_of_ne _ hl]
    · exact set_of_ne _ hl _

theorem abandon_of_idle {ls : Locks} {l : Lock} {i : TaskId} (hwaiting : (ls l).waiting = [])
    (hholder : (ls l).holder ≠ some i) : (ls.abandon i).2 l = ls l := by
  rw [abandon_eq]
  generalize [Lock.polling, .channel, .cache, .editing] = all
  suffices ∀ acc : List TaskId × Locks, acc.2 l = ls l →
      (all.foldl (abandonOne i) acc).2 l = ls l from this ([], ls) rfl
  induction all with
  | nil => exact fun _ h => h
  | cons l' all ih =>
    intro acc h
    refine ih _ ?_
    rw [abandonOne_of_idle (by rwa [h]) (by rwa [h]), h]

theorem waiting_acquire_of_true {ls : Locks} {l : Lock} {i : TaskId}
    (h : (ls.acquire l i).1 = true) : ((ls.acquire l i).2 l).waiting = (ls l).waiting := by
  have hacquire : (ls.acquire l i).2 l = { ls l with holder := some i } := by
    rw [acquire, (holder_acquire_of_true h).1]
    exact set_self ..
  rw [hacquire]

theorem release_of_idle {ls : Locks} {l : Lock} (h : (ls l).waiting = []) :
    (ls.release l).2 l = {} := by
  rw [release, h]
  exact set_self ..

end Locks

namespace Crowd

structure Opens (N : Protocol φ) (l : Lock) (inside : φ → Prop) : Prop where
  take : ∀ {ph a ph'}, N ph (.acquire l) a ph' → inside ph'
  keep : ∀ {ph r a ph'}, N ph r a ph' → inside ph → inside ph' ∨ r = .release l

structure Brief (l : Lock) (inside : φ → Prop) (s : Crowd α σ ω ε) (ph : TaskId → φ) : Prop where
  waiting : (s.locks l).waiting = []
  holder : ∀ i, (s.locks l).holder = some i → Within inside s ph i

section

variable [DecidableEq ω] {R : Rules α σ χ ω ε} {s s' : Crowd α σ ω ε} {e : Event χ} {N : Protocol φ}
  {post : φ → α → Prop} {start ph ph' : TaskId → φ} {l : Lock} {inside : φ → Prop}

omit [DecidableEq ω] in
theorem Fresh.brief (hs : s.Fresh) : Brief l inside s ph := by
  have hfree : s.locks l = {} := congrFun hs.locks l
  refine ⟨by rw [hfree], fun i hi => ?_⟩
  rw [hfree] at hi
  cases hi

theorem Step.within_after (hN : Opens N l inside) (hstep : Step R s e s')
    (hadv : Advances N e ph ph') {i : TaskId} (h : Within inside s ph i) (hgave : e ≠ .gave i l)
    (hdropped : e ≠ .dropped i) : Within inside s' ph' i := by
  cases he : e.answered? with
  | none =>
    obtain ⟨⟨j, hj⟩, hi⟩ := h
    rw [hadv.unanswered he]
    exact ⟨⟨j, (hstep.jobAt_after he hj).resolve_right hdropped⟩, hi⟩
  | some x =>
    obtain ⟨i', r, a⟩ := x
    obtain ⟨q, hq, rfl⟩ := hadv.answered he
    obtain ⟨hbefore, hafter, hothers⟩ := hstep.inside_of_answered inside ph he q
    by_cases hne : i = i'
    · subst hne
      rcases hN.keep hq (hbefore.1 h) with hi | rfl
      · exact hafter.2 hi
      · cases e <;> cases he
        exact absurd rfl hgave
    · exact (hothers i hne).2 h

omit [DecidableEq ω] in
theorem Brief.yields_of_held (hN : Unbroken N post inside) (hfollows : Follows N post start s ph)
    (h : Brief l inside s ph) {i : TaskId} (hi : (s.locks l).holder = some i) :
    ∃ p, s.tasks i = some p ∧ p.yields = false :=
  hN.within hfollows (h.holder i hi)

theorem Brief.of_same (hN : Opens N l inside) (hstep : Step R s e s') (hadv : Advances N e ph ph')
    (hlocks : s'.locks l = s.locks l)
    (he : ∀ i, (s.locks l).holder = some i → e ≠ .gave i l ∧ e ≠ .dropped i)
    (h : Brief l inside s ph) : Brief l inside s' ph' := by
  refine ⟨by rw [hlocks]; exact h.waiting, fun i hi => ?_⟩
  rw [hlocks] at hi
  exact hstep.within_after hN hadv (h.holder i hi) (he i hi).1 (he i hi).2

theorem Brief.take {i : TaskId} (hN : Opens N l inside) (hstep : Step R s (.took i l) s')
    (hadv : Advances N (.took i l : Event χ) ph ph') (hl : (s.locks.acquire l i).1 = true)
    (hlocks : s'.locks = (s.locks.acquire l i).2) (h : Brief l inside s ph) :
    Brief l inside s' ph' := by
  obtain ⟨q, hq, rfl⟩ := hadv.answered rfl
  refine ⟨?_, fun i' hi' => ?_⟩
  · rw [hlocks, Locks.waiting_acquire_of_true hl]
    exact h.waiting
  · rw [hlocks, (Locks.holder_acquire_of_true hl).2] at hi'
    obtain rfl := Option.some.inj hi'
    exact (hstep.inside_of_answered inside ph rfl q).after.2 (hN.take hq)

omit [DecidableEq ω] in
theorem Brief.give (hlocks : s'.locks l = (s.locks.release l).2 l) (h : Brief l inside s ph) :
    Brief l inside s' ph' := by
  rw [Locks.release_of_idle h.waiting] at hlocks
  refine ⟨by rw [hlocks], fun i hi => ?_⟩
  rw [hlocks] at hi
  cases hi

theorem Brief.step (hN : Opens N l inside) (hunbroken : Unbroken N post inside)
    (hfollows : Follows N post start s ph) (hkeeping : Keeping s e) (hstep : Step R s e s')
    (hadv : Advances N e ph ph') (h : Brief l inside s ph) : Brief l inside s' ph' := by
  have hsame := h.of_same hN hstep hadv
  -- who holds the lock is the one that comes on
  have hmover : ∀ i, (s.locks l).holder = some i → e.mover? = some i := by
    intro i hi
    obtain ⟨p, hp, hyields⟩ := h.yields_of_held hunbroken hfollows hi
    exact hkeeping i p hp hyields
  cases hstep with
  | started | woke | looked | asked | heard | befell => exact hsame rfl fun i _ => by simp
  | @took i l' k hi hl =>
    by_cases hne : l = l'
    · subst hne
      exact h.take hN (.took (R := R) hi hl) hadv hl rfl
    · exact hsame (Locks.acquire_of_ne _ hne i) fun i _ => by simp
  | @queued i l' k hi hl =>
    by_cases hne : l = l'
    · subst hne
      cases hholder : (s.locks l).holder with
      | none =>
        rw [Locks.acquire, hholder] at hl
        cases hl
      | some i' =>
        obtain ⟨p, hp, hyields⟩ := h.yields_of_held hunbroken hfollows hholder
        obtain rfl := Option.some.inj (hmover i' hholder)
        rw [hi] at hp
        cases hp
        cases hyields
    · exact hsame (Locks.acquire_of_ne _ hne i) fun i _ => by simp
  | @gave i l' k hi =>
    by_cases hne : l = l'
    · subst hne
      exact h.give rfl
    · refine hsame (Locks.release_of_ne _ hne) fun i _ => ⟨?_, by simp⟩
      intro he
      cases he
      exact hne rfl
  | @dropped i p hi hp hmay =>
    have hholder : (s.locks l).holder ≠ some i := fun hi => by cases hmover i hi
    refine hsame (Locks.abandon_of_idle h.waiting hholder) fun i' hi' => ⟨by simp, ?_⟩
    intro he
    cases he
    exact hholder hi'

end

end Crowd

end MillGateway
