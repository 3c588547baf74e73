import MillGateway.Proofs.Crowd.Basic
import MillGateway.Proofs.Job.Walk

/-! Jobs that keep to a protocol, and locks that a protocol takes and gives back. Main statement: in
a crowd of such jobs a lock keeps all but one task out of the phases that it guards. -/

namespace MillGateway

/-- How the answer to a request takes a job from one phase to the next. -/
abbrev Protocol (φ : Type) :=
  φ → (r : Request) → r.Answer → φ → Prop

namespace Job

variable {N : Protocol φ}

/-- Whether a job keeps to a protocol from a phase on, and ends as `post` tells. -/
def Keeps (N : Protocol φ) (post : φ → α → Prop) : Job α → φ → Prop
  | .done a, ph => post ph a
  | .ask r k, ph => ∀ a, ∃ ph', N ph r a ph' ∧ (k a).Keeps N post ph'

theorem Keeps.bind {post : φ → α → Prop} {post' : φ → β → Prop} {j : Job α} {k : α → Job β} {ph : φ}
    (hj : j.Keeps N post ph) (hk : ∀ ph a, post ph a → (k a).Keeps N post' ph) :
    (j.bind k).Keeps N post' ph := by
  induction j generalizing ph with
  | done a => exact hk ph a hj
  | ask r k' ih =>
    intro a
    obtain ⟨ph', hN, hj⟩ := hj a
    exact ⟨ph', hN, ih a hj⟩

theorem Keeps.mono {post post' : φ → α → Prop} {j : Job α} {ph : φ} (hj : j.Keeps N post ph)
    (h : ∀ ph a, post ph a → post' ph a) : j.Keeps N post' ph := by
  induction j generalizing ph with
  | done a => exact h ph a hj
  | ask r k ih =>
    intro a
    obtain ⟨ph', hN, hj⟩ := hj a
    exact ⟨ph', hN, ih a hj⟩

theorem Keeps.map {post : φ → β → Prop} {f : α → β} {j : Job α} {ph : φ}
    (hj : j.Keeps N (fun ph a => post ph (f a)) ph) : (f <$> j).Keeps N post ph :=
  hj.bind fun _ _ hend => hend

theorem Asks.keeps {P : Request → Prop} {post : φ → α → Prop} {j : Job α} {ph : φ} (hj : j.Asks P)
    (hN : ∀ r a, P r → N ph r a ph) (hpost : ∀ a, post ph a) : j.Keeps N post ph := by
  induction j with
  | done a => exact hpost a
  | ask r k ih => exact fun a => ⟨ph, hN r a hj.1, ih a (hj.2 a)⟩

theorem Keeps.comesTo {post : φ → α → Prop} {P : φ → Prop} {j : Job α} {ph : φ}
    (hj : j.Keeps N post ph) (hph : P ph) (hP : ∀ {ph r a ph'}, N ph r a ph' → P ph → P ph') :
    j.ComesTo fun a => ∃ ph, P ph ∧ post ph a := by
  induction j generalizing ph with
  | done a => exact ⟨ph, hph, hj⟩
  | ask r k ih =>
    intro a
    obtain ⟨ph', hN, hj⟩ := hj a
    exact ih a hj (hP hN hph)

end Job

inductive Protocol.Path (N : Protocol φ) (ph : φ) : List Exchange → φ → Prop
  | nil : Path N ph [] ph
  | snoc {t q r a q'} (h : Path N ph t q) (hN : N q r a q') : Path N ph (t ++ [⟨r, a⟩]) q'

theorem Protocol.Path.append_cases {N : Protocol φ} {ph q : φ} {t t' : List Exchange}
    (h : N.Path ph (t ++ t') q) : ∃ p, N.Path ph t p ∧ N.Path p t' q := by
  generalize hu : t ++ t' = u at h
  induction h generalizing t' with
  | nil =>
    obtain ⟨rfl, rfl⟩ := List.append_eq_nil_iff.1 hu
    exact ⟨ph, .nil, .nil⟩
  | @snoc u p r a q h hN ih =>
    rcases List.eq_nil_or_concat t' with rfl | ⟨v, x, rfl⟩
    · rw [List.append_nil] at hu
      exact ⟨q, hu ▸ h.snoc hN, .nil⟩
    · rw [List.concat_eq_append, ← List.append_assoc] at hu
      obtain ⟨hu, hx⟩ := List.append_inj' hu rfl
      obtain ⟨p', hpath, hrest⟩ := ih hu
      rw [List.concat_eq_append, hx]
      exact ⟨p', hpath, hrest.snoc hN⟩

theorem Protocol.Path.eq_of_nil {N : Protocol φ} {ph q : φ} (h : N.Path ph [] q) : q = ph := by
  generalize hu : ([] : List Exchange) = u at h
  cases h with
  | nil => rfl
  | snoc => simp at hu

theorem Protocol.Path.cons_cases {N : Protocol φ} {ph q : φ} {x : Exchange} {t : List Exchange}
    (h : N.Path ph (x :: t) q) : ∃ p, N ph x.1 x.2 p ∧ N.Path p t q := by
  obtain ⟨p, hone, hrest⟩ := h.append_cases (t := [x])
  refine ⟨p, ?_, hrest⟩
  generalize hu : [x] = u at hone
  cases hone with
  | nil => cases hu
  | snoc hnil hN =>
    obtain ⟨rfl, hx⟩ := List.append_inj' (hu.symm.trans (List.nil_append [x]).symm) rfl
    cases hx
    rwa [hnil.eq_of_nil] at hN

theorem Job.Keeps.of_reaches {N : Protocol φ} {post : φ → α → Prop} {j j' : Job α} {ph : φ}
    {t : List Exchange} (hj : j.Keeps N post ph) (h : j.Reaches t j') :
    ∃ q, N.Path ph t q ∧ j'.Keeps N post q := by
  induction h with
  | refl => exact ⟨ph, .nil, hj⟩
  | snoc _ a ih =>
    obtain ⟨q, hpath, hkeeps⟩ := ih
    obtain ⟨q', hN, hkeeps⟩ := hkeeps a
    exact ⟨q', hpath.snoc hN, hkeeps⟩

/-! ### Locks -/

namespace Locks

theorem set_self (ls : Locks) (l : Lock) (st : LockState) : ls.set l st l = st :=
  if_pos rfl

theorem set_of_ne (ls : Locks) {l l' : Lock} (h : l' ≠ l) (st : LockState) :
    ls.set l st l' = ls l' :=
  if_neg h

theorem acquire_of_ne (ls : Locks) {l l' : Lock} (h : l' ≠ l) (i : TaskId) :
    (ls.acquire l i).2 l' = ls l' := by
  rw [acquire]
  split <;> exact set_of_ne ls h _

theorem holder_acquire_of_held {ls : Locks} {l : Lock} {i : TaskId} (h : (ls l).holder = some i)
    (i' : TaskId) : (ls.acquire l i').1 = false ∧ ((ls.acquire l i').2 l).holder = some i := by
  rw [acquire, h]
  exact ⟨rfl, (congrArg LockState.holder (set_self ..)).trans h⟩

theorem holder_acquire_of_true {ls : Locks} {l : Lock} {i : TaskId}
    (h : (ls.acquire l i).1 = true) :
    (ls l).holder = none ∧ ((ls.acquire l i).2 l).holder = some i := by
  rw [acquire] at h ⊢
  split at h
  next hfree =>
    rw [hfree]
    exact ⟨rfl, congrArg LockState.holder (set_self ..)⟩
  next => cases h

theorem release_of_ne (ls : Locks) {l l' : Lock} (h : l' ≠ l) : (ls.release l).2 l' = ls l' := by
  rw [release]
  split <;> exact set_of_ne ls h _

def abandonOne (i : TaskId) (acc : List TaskId × Locks) (l : Lock) : List TaskId × Locks :=
  let ls := acc.2.set l { acc.2 l with waiting := (acc.2 l).waiting.filter (· != i) }
  if (ls l).holder = some i then (acc.1 ++ (ls.release l).1.toList, (ls.release l).2)
  else (acc.1, ls)

theorem abandon_eq (ls : Locks) (i : TaskId) :
    ls.abandon i = [Lock.polling, .channel, .cache, .editing].foldl (abandonOne i) ([], ls) := rfl

theorem holder_abandonOne {acc : List TaskId × Locks} {l : Lock} {i i' : TaskId} (hi : i ≠ i')
    (h : (acc.2 l).holder = some i) (l' : Lock) :
    ((abandonOne i' acc l').2 l).holder = some i := by
  rw [abandonOne]
  by_cases hl : l = l'
  · subst hl
    rw [if_neg]
    · exact (congrArg LockState.holder (set_self ..)).trans h
    · rw [set_self]
      simpa [h] using hi
  · dsimp only
    split
    · rw [release_of_ne _ hl, set_of_ne _ hl]
      exact h
    · exact (congrArg LockState.holder (set_of_ne _ hl _)).trans h

theorem holder_abandon {ls : Locks} {l : Lock} {i i' : TaskId} (hi : i ≠ i')
    (h : (ls l).holder = some i) : ((ls.abandon i').2 l).holder = some i := by
  rw [abandon_eq]
  generalize [Lock.polling, .channel, .cache, .editing] = all
  suffices ∀ acc : List TaskId × Locks, (acc.2 l).holder = some i →
      ((all.foldl (abandonOne i') acc).2 l).holder = some i from this ([], ls) h
  induction all with
  | nil => exact fun _ h => h
  | cons l' all ih => exact fun acc h => ih _ (holder_abandonOne hi h l')

end Locks

namespace Crowd

variable [DecidableEq ω] {R : Rules α σ χ ω ε} {s s' : Crowd α σ ω ε} {e : Event χ}

theorem Step.holder_of_took {i : TaskId} {l : Lock} (h : Step R s (.took i l) s') :
    (s'.locks l).holder = some i ∧ ((s.locks l).holder = none ∨ (s.locks l).holder = some i) := by
  cases h with
  | took hi hl =>
    obtain ⟨hfree, hheld⟩ := Locks.holder_acquire_of_true hl
    exact ⟨hheld, .inl hfree⟩
  | woke hi hl => exact ⟨hl, .inr hl⟩

theorem Step.holder_of_held {i : TaskId} {l : Lock} (h : Step R s e s')
    (hi : (s.locks l).holder = some i) :
    (s'.locks l).holder = some i ∨ (∃ i', e = .gave i' l) ∨ e = .dropped i := by
  cases h with
  | @took i' l' k hi' hl =>
    by_cases hne : l = l'
    · subst hne
      exact .inl (Locks.holder_acquire_of_held hi i').2
    · exact .inl ((congrArg LockState.holder (Locks.acquire_of_ne _ hne i')).trans hi)
  | @queued i' l' k hi' hl =>
    by_cases hne : l = l'
    · subst hne
      exact .inl (Locks.holder_acquire_of_held hi i').2
    · exact .inl ((congrArg LockState.holder (Locks.acquire_of_ne _ hne i')).trans hi)
  | @gave i' l' k hi' =>
    by_cases hne : l = l'
    · subst hne
      exact .inr (.inl ⟨i', rfl⟩)
    · exact .inl ((congrArg LockState.holder (Locks.release_of_ne _ hne)).trans hi)
  | @dropped i' p hi' hp hmay =>
    by_cases hne : i = i'
    · subst hne
      exact .inr (.inr rfl)
    · exact .inl (Locks.holder_abandon hne hi)
  | started | woke | looked | asked | heard | befell => exact .inl hi

/-! ### Phases of a crowd -/

variable {N : Protocol φ} {post : φ → α → Prop} {start ph ph' : TaskId → φ}

structure Follows (N : Protocol φ) (post : φ → α → Prop) (start : TaskId → φ)
    (s : Crowd α σ ω ε) (ph : TaskId → φ) : Prop where
  keeps : ∀ i j, s.jobAt i = some j → j.Keeps N post (ph i)
  start : ∀ i, s.tasks i = none → ph i = start i

omit [DecidableEq ω] in
theorem Fresh.follows (hs : s.Fresh) : Follows N post start s start where
  keeps i j hj := by
    rw [hs.jobAt] at hj
    cases hj
  start _ _ := rfl

theorem ne_of_update {i i' : TaskId} {p q : φ} (h : Function.update ph i p i' = q)
    (hpq : p ≠ q) : i' ≠ i ∧ ph i' = q := by
  by_cases hne : i' = i
  · subst hne
    rw [Function.update_self] at h
    exact absurd h hpq
  · rw [Function.update_of_ne hne] at h
    exact ⟨hne, h⟩

structure Advances (N : Protocol φ) (e : Event χ) (ph ph' : TaskId → φ) : Prop where
  unanswered : e.answered? = none → ph' = ph
  answered : ∀ {i r a}, e.answered? = some (i, ⟨r, a⟩) →
    ∃ q, N (ph i) r a q ∧ ph' = Function.update ph i q

theorem Follows.step (hjobs : ∀ i j, R.jobs i = some j → j.Keeps N post (start i))
    (h : Follows N post start s ph) (hstep : Step R s e s') :
    ∃ ph', Advances N e ph ph' ∧ Follows N post start s' ph' := by
  cases he : e.answered? with
  | none =>
    have hadv : Advances N e ph ph := by
      refine ⟨fun _ => rfl, fun h => ?_⟩
      rw [he] at h
      cases h
    refine ⟨ph, hadv, fun i j hj => ?_, fun i hi => h.start i (hstep.tasks_mono hi)⟩
    rcases hstep.jobAt_before he hj with hj | ⟨hi, hj⟩
    · exact h.keeps i j hj
    · rw [h.start i hi]
      exact hjobs i j hj
  | some x =>
    obtain ⟨i', r, a⟩ := x
    obtain ⟨k, hk, hput⟩ := hstep.of_answered he
    obtain ⟨q, hN, hq⟩ := h.keeps i' _ hk a
    have hadv : Advances N e ph (Function.update ph i' q) := by
      refine ⟨fun h => ?_, fun h => ?_⟩
      · rw [he] at h
        cases h
      · rw [he] at h
        cases h
        exact ⟨q, hN, rfl⟩
    refine ⟨_, hadv, fun i j hj => ?_, fun i hi => ?_⟩
    · rw [hput] at hj
      by_cases hi : i = i'
      · subst hi
        rw [Function.update_self] at hj ⊢
        exact Option.some.inj hj ▸ hq
      · rw [Function.update_of_ne hi] at hj ⊢
        exact h.keeps i j hj
    · have hi := hstep.tasks_mono hi
      have hne : i ≠ i' := by
        rintro rfl
        rw [jobAt_of_none hi] at hk
        cases hk
      rw [Function.update_of_ne hne]
      exact h.start i hi

/-- Whether the phases `inside` are entered by taking a lock alone, and left by giving it back. -/
structure Guards (N : Protocol φ) (l : Lock) (inside : φ → Prop) : Prop where
  enter : ∀ {ph r a ph'}, N ph r a ph' → inside ph' → inside ph ∨ r = .acquire l
  leave : ∀ {ph a ph'}, N ph (.release l) a ph' → inside ph ∧ ¬ inside ph'

def Excludes (l : Lock) (inside : φ → Prop) (s : Crowd α σ ω ε) (ph : TaskId → φ) : Prop :=
  ∀ i j, s.jobAt i = some j → inside (ph i) → (s.locks l).holder = some i

omit [DecidableEq ω] in
theorem Fresh.excludes {l : Lock} {inside : φ → Prop} (hs : s.Fresh) :
    Excludes l inside s ph := by
  intro i j hj
  rw [hs.jobAt] at hj
  cases hj

omit [DecidableEq ω] in
theorem Excludes.eq {l : Lock} {inside : φ → Prop} (h : Excludes l inside s ph) {i i' : TaskId}
    {j j' : Job α} (hj : s.jobAt i = some j) (hi : inside (ph i)) (hj' : s.jobAt i' = some j')
    (hi' : inside (ph i')) : i = i' :=
  Option.some.inj ((h i j hj hi).symm.trans (h i' j' hj' hi'))

theorem Guards.inside_before {l : Lock} {inside : φ → Prop} (hN : Guards N l inside)
    (hstart : ∀ i, ¬ inside (start i)) (h : Follows N post start s ph) (hstep : Step R s e s')
    (hadv : Advances N e ph ph') {i : TaskId} {j : Job α} (hj : s'.jobAt i = some j)
    (hi : inside (ph' i)) :
    (∃ j, s.jobAt i = some j ∧ inside (ph i)) ∨ e = .took i l := by
  cases he : e.answered? with
  | none =>
    rw [hadv.unanswered he] at hi
    rcases hstep.jobAt_before he hj with hj | ⟨hnew, -⟩
    · exact .inl ⟨j, hj, hi⟩
    · rw [h.start i hnew] at hi
      exact absurd hi (hstart i)
  | some x =>
    obtain ⟨i', r, a⟩ := x
    obtain ⟨k, hk, hput⟩ := hstep.of_answered he
    obtain ⟨q, hq, rfl⟩ := hadv.answered he
    by_cases hne : i = i'
    · subst hne
      rw [Function.update_self] at hi
      rcases hN.enter hq hi with hi | rfl
      · exact .inl ⟨_, hk, hi⟩
      · cases e <;> cases he
        exact .inr rfl
    · rw [Function.update_of_ne hne] at hi
      rw [hput, Function.update_of_ne hne] at hj
      exact .inl ⟨j, hj, hi⟩

theorem Guards.step {l : Lock} {inside : φ → Prop} (hN : Guards N l inside)
    (hstart : ∀ i, ¬ inside (start i)) (h : Follows N post start s ph)
    (hex : Excludes l inside s ph) (hstep : Step R s e s') (hadv : Advances N e ph ph') :
    Excludes l inside s' ph' := by
  intro i j hj hi
  rcases hN.inside_before hstart h hstep hadv hj hi with ⟨j', hj', hi'⟩ | rfl
  · rcases hstep.holder_of_held (hex i j' hj' hi') with hheld | ⟨i', rfl⟩ | rfl
    · exact hheld
    · obtain ⟨k, hk, -⟩ := hstep.of_answered rfl
      obtain ⟨q, hq, rfl⟩ := hadv.answered rfl
      obtain ⟨hin, hout⟩ := hN.leave hq
      obtain rfl := hex.eq hj' hi' hk hin
      rw [Function.update_self] at hi
      exact absurd hi hout
    · rw [hstep.jobAt_of_dropped] at hj
      cases hj
  · exact hstep.holder_of_took.1

end Crowd

end MillGateway
