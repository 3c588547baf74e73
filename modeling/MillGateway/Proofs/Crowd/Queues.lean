import Mathlib.Logic.Relation
import MillGateway.Proofs.Crowd.Section

/-! Locks that are taken in a fixed order. Main statement: who waits for a lock waits, perhaps over
other tasks that wait, for a task that can come on. -/

namespace MillGateway

/-! ### One lock -/

namespace LockState

def handedOn (st : LockState) : LockState :=
  match st.waiting with
  | [] => {}
  | i :: is => ⟨some i, is⟩

def abandoned (st : LockState) (i : TaskId) : LockState :=
  let st' := { st with waiting := st.waiting.filter (· != i) }
  if st'.holder = some i then st'.handedOn else st'

/-- Whether a lock tells truly who holds it and who queues for it. A task queues until it comes on,
and may hold the lock by then. -/
structure Sound (st : LockState) (holds queues : TaskId → Prop) : Prop where
  held : ∀ {i}, holds i → st.holder = some i ∧ ¬ queues i
  holder : ∀ {i}, st.holder = some i → holds i ∨ queues i
  waiting : ∀ {i}, i ∈ st.waiting ↔ queues i ∧ st.holder ≠ some i
  nodup : st.waiting.Nodup
  busy : st.holder = none → st.waiting = []

namespace Sound

variable {st : LockState} {holds holds' queues queues' : TaskId → Prop} {i : TaskId}

theorem congr (h : st.Sound holds queues) (hholds : ∀ i', holds' i' ↔ holds i')
    (hqueues : ∀ i', queues' i' ↔ queues i') : st.Sound holds' queues' := by
  obtain rfl : holds' = holds := funext fun i' => propext (hholds i')
  obtain rfl : queues' = queues := funext fun i' => propext (hqueues i')
  exact h

theorem free : Sound {} (fun _ => False) fun _ => False where
  held := nofun
  holder := nofun
  waiting := by simp
  nodup := .nil
  busy _ := rfl

theorem take (h : st.Sound holds queues) (hfree : st.holder = none)
    (hholds : ∀ i', holds' i' ↔ i' = i ∨ holds i') (hqueues : ∀ i', queues' i' ↔ queues i') :
    Sound { st with holder := some i } holds' queues' := by
  have hnone : ∀ i', ¬ holds i' := fun i' hi' => by simpa [hfree] using (h.held hi').1
  have hempty : ∀ i', ¬ queues i' := fun i' hi' => by
    have := h.waiting.2 ⟨hi', by simp [hfree]⟩
    rw [h.busy hfree] at this
    contradiction
  refine ⟨fun {i'} hi' => ?_, fun {i'} hi' => ?_, fun {i'} => ?_, h.nodup, nofun⟩
  · obtain rfl := ((hholds i').1 hi').resolve_right (hnone i')
    exact ⟨rfl, fun hq => hempty i' ((hqueues i').1 hq)⟩
  · exact .inl ((hholds i').2 (.inl (Option.some.inj hi').symm))
  · rw [h.busy hfree, hqueues]
    exact iff_of_false List.not_mem_nil fun hq => hempty i' hq.1

theorem queue (h : st.Sound holds queues) (hbusy : st.holder ≠ none) (hi : ¬ holds i)
    (hnew : ¬ queues i) (hholds : ∀ i', holds' i' ↔ holds i')
    (hqueues : ∀ i', queues' i' ↔ i' = i ∨ queues i') :
    Sound { st with waiting := st.waiting ++ [i] } holds' queues' := by
  have hother : st.holder ≠ some i := fun hst => (h.holder hst).elim hi hnew
  refine ⟨fun {i'} hi' => ?_, fun {i'} hi' => ?_, fun {i'} => ?_, ?_, fun hst => absurd hst hbusy⟩
  · rw [hholds] at hi'
    refine ⟨(h.held hi').1, fun hq => ?_⟩
    rcases (hqueues i').1 hq with rfl | hq
    · exact hi hi'
    · exact (h.held hi').2 hq
  · exact (h.holder hi').imp (hholds i').2 fun hq => (hqueues i').2 (.inr hq)
  · rw [List.mem_append, List.mem_singleton, h.waiting, hqueues]
    constructor
    · rintro (⟨hq, hst⟩ | rfl)
      · exact ⟨.inr hq, hst⟩
      · exact ⟨.inl rfl, hother⟩
    · rintro ⟨rfl | hq, hst⟩
      · exact .inr rfl
      · exact .inl ⟨hq, hst⟩
  · refine List.nodup_append.2 ⟨h.nodup, by simp, fun a ha b hb hab => ?_⟩
    rw [hab, List.mem_singleton.1 hb] at ha
    exact hnew (h.waiting.1 ha).1

theorem wake (h : st.Sound holds queues) (hi : st.holder = some i)
    (hholds : ∀ i', holds' i' ↔ i' = i ∨ holds i')
    (hqueues : ∀ i', queues' i' ↔ queues i' ∧ i' ≠ i) : st.Sound holds' queues' := by
  refine ⟨fun {i'} hi' => ?_, fun {i'} hi' => ?_, fun {i'} => ?_, h.nodup, h.busy⟩
  · rcases (hholds i').1 hi' with rfl | hi'
    · exact ⟨hi, fun hq => ((hqueues i').1 hq).2 rfl⟩
    · exact ⟨(h.held hi').1, fun hq => (h.held hi').2 ((hqueues i').1 hq).1⟩
  · exact .inl ((hholds i').2 (.inl (Option.some.inj (hi'.symm.trans hi))))
  · rw [h.waiting, hqueues, hi]
    constructor
    · rintro ⟨hq, hne⟩
      exact ⟨⟨hq, fun he => hne (he ▸ rfl)⟩, hne⟩
    · rintro ⟨⟨hq, -⟩, hne⟩
      exact ⟨hq, hne⟩

theorem give (h : st.Sound holds queues) (hi : holds i)
    (hholds : ∀ i', holds' i' ↔ holds i' ∧ i' ≠ i) (hqueues : ∀ i', queues' i' ↔ queues i') :
    st.handedOn.Sound holds' queues' := by
  obtain ⟨hst, hnot⟩ := h.held hi
  have hnone : ∀ i', ¬ holds' i' := fun i' hi' =>
    ((hholds i').1 hi').2 (Option.some.inj ((h.held ((hholds i').1 hi').1).1.symm.trans hst))
  have hqueued : ∀ i', queues' i' ↔ i' ∈ st.waiting := by
    intro i'
    rw [hqueues, h.waiting, hst]
    refine ⟨fun hq => ⟨hq, fun he => hnot ?_⟩, And.left⟩
    exact Option.some.inj he ▸ hq
  have hnodup := h.nodup
  unfold handedOn
  -- the first that waits holds the lock now, and still queues
  cases hw : st.waiting with
  | nil =>
    simp only [hw, List.not_mem_nil, iff_false] at hqueued
    exact free.congr (fun i' => iff_false_intro (hnone i')) fun i' => iff_false_intro (hqueued i')
  | cons j js =>
    rw [hw, List.nodup_cons] at hnodup
    simp only [hw, List.mem_cons] at hqueued
    refine ⟨fun hi' => absurd hi' (hnone _), fun {i'} hi' => .inr ?_, fun {i'} => ?_, hnodup.2, nofun⟩
    · exact (hqueued i').2 (.inl (Option.some.inj hi').symm)
    · rw [hqueued]
      constructor
      · refine fun hmem => ⟨.inr hmem, ?_⟩
        rintro ⟨⟩
        exact hnodup.1 hmem
      · rintro ⟨rfl | hmem, hne⟩
        · exact absurd rfl hne
        · exact hmem

theorem abandon (h : st.Sound holds queues) (hholds : ∀ i', holds' i' ↔ holds i' ∧ i' ≠ i)
    (hqueues : ∀ i', queues' i' ↔ queues i' ∧ i' ≠ i) :
    (st.abandoned i).Sound holds' queues' := by
  unfold abandoned
  by_cases hi : st.holder = some i
  · -- whoever holds the lock or is about to gives it back, and waits for it no more
    have hwoken : st.Sound (fun i' => i' = i ∨ holds i') fun i' => queues i' ∧ i' ≠ i :=
      h.wake hi (fun _ => Iff.rfl) fun _ => Iff.rfl
    have hfilter : st.waiting.filter (· != i) = st.waiting := by
      refine List.filter_eq_self.2 fun i' hi' => ?_
      simpa using (hwoken.waiting.1 hi').1.2
    rw [hfilter, if_pos hi]
    refine hwoken.give (.inl rfl) (fun i' => ?_) hqueues
    rw [hholds]
    constructor
    · exact fun hi' => ⟨.inr hi'.1, hi'.2⟩
    · rintro ⟨rfl | hi', hne⟩
      · exact absurd rfl hne
      · exact ⟨hi', hne⟩
  · rw [if_neg hi]
    refine ⟨fun {i'} hi' => ?_, fun {i'} hi' => ?_, fun {i'} => ?_, h.nodup.filter _, fun hst => ?_⟩
    · have hheld := h.held ((hholds i').1 hi').1
      exact ⟨hheld.1, fun hq => hheld.2 ((hqueues i').1 hq).1⟩
    · have hne : i' ≠ i := fun he => hi (he ▸ hi')
      exact (h.holder hi').imp (fun hh => (hholds i').2 ⟨hh, hne⟩) fun hq => (hqueues i').2 ⟨hq, hne⟩
    · rw [List.mem_filter, h.waiting, hqueues, bne_iff_ne]
      exact and_right_comm
    · change st.waiting.filter _ = []
      rw [h.busy hst, List.filter_nil]

end Sound

end LockState

namespace Locks

theorem release_self (ls : Locks) (l : Lock) : (ls.release l).2 l = (ls l).handedOn := by
  rw [release, LockState.handedOn]
  cases (ls l).waiting <;> exact set_self ..

theorem acquire_of_true {ls : Locks} {l : Lock} {i : TaskId} (h : (ls.acquire l i).1 = true) :
    (ls l).holder = none ∧ (ls.acquire l i).2 l = { ls l with holder := some i } := by
  have hfree := (holder_acquire_of_true h).1
  refine ⟨hfree, ?_⟩
  rw [acquire, hfree]
  exact set_self ..

theorem acquire_of_false {ls : Locks} {l : Lock} {i : TaskId} (h : (ls.acquire l i).1 = false) :
    (ls l).holder ≠ none ∧
      (ls.acquire l i).2 l = { ls l with waiting := (ls l).waiting ++ [i] } := by
  rw [acquire] at h ⊢
  split at h
  next => cases h
  next hbusy =>
    exact ⟨by simp [hbusy], set_self ..⟩

theorem abandonOne_self (acc : List TaskId × Locks) (i : TaskId) (l : Lock) :
    (abandonOne i acc l).2 l = (acc.2 l).abandoned i := by
  rw [abandonOne, LockState.abandoned]
  dsimp only
  rw [set_self]
  split
  · rw [release_self, set_self]
  · exact set_self ..

theorem abandonOne_of_ne (acc : List TaskId × Locks) (i : TaskId) {l l' : Lock} (h : l' ≠ l) :
    (abandonOne i acc l).2 l' = acc.2 l' := by
  rw [abandonOne]
  dsimp only
  split
  · rw [release_of_ne _ h, set_of_ne _ h]
  · exact set_of_ne _ h _

theorem abandon_apply (ls : Locks) (i : TaskId) (l : Lock) :
    (ls.abandon i).2 l = (ls l).abandoned i := by
  rw [abandon_eq]
  simp only [List.foldl_cons, List.foldl_nil]
  cases l <;> simp [abandonOne_self, abandonOne_of_ne]

end Locks

/-! ### The order of locks -/

namespace Lock

/-- Who holds a lock takes none of the same or a lower rank. -/
def rank : Lock → Nat
  | .polling | .channel | .editing => 0
  | .cache => 1

theorem rank_le (l : Lock) : l.rank ≤ 1 := by
  cases l <;> decide

def admits : Lock → Outside → Bool
  | .polling, .link .pollStatus => true
  | .channel, .link .openChannel | .channel, .link (.pollChannel _) => true
  | .editing, .readText _ | .editing, .writeText _ _ | .editing, .appendText _ _ => true
  | _, _ => false

end Lock

/-- Locks are taken in their order and given back the other way round. The phase tells which are
held, the latest first. -/
inductive Discipline : Protocol (List Lock)
  | take {held l a} (h : ∀ l' ∈ held, l'.rank < l.rank) : Discipline held (.acquire l) a (l :: held)
  | give {held l a} (h : l ∉ held) : Discipline (l :: held) (.release l) a held
  | look {held x a} : Discipline held (.inside x) a held
  | ask {held o a} (h : ∀ l ∈ held, l.admits o = true) : Discipline held (.outside o) a held

namespace Discipline

def Ends (held : List Lock) (_ : α) : Prop :=
  held = []

theorem of_acquire {held held' : List Lock} {l : Lock} {a : Unit}
    (h : Discipline held (.acquire l) a held') :
    held' = l :: held ∧ ∀ l' ∈ held, l'.rank < l.rank := by
  cases h with
  | take h => exact ⟨rfl, h⟩

theorem of_release {held held' : List Lock} {l : Lock} {a : Unit}
    (h : Discipline held (.release l) a held') : held = l :: held' ∧ l ∉ held' := by
  cases h with
  | give h => exact ⟨rfl, h⟩

theorem of_inside {held held' : List Lock} {x : Inside} {a : x.Answer}
    (h : Discipline held (.inside x) a held') : held' = held := by
  cases h with
  | look => rfl

theorem of_outside {held held' : List Lock} {o : Outside} {a : o.Answer}
    (h : Discipline held (.outside o) a held') :
    held' = held ∧ ∀ l ∈ held, l.admits o = true := by
  cases h with
  | ask h => exact ⟨rfl, h⟩

end Discipline

namespace Crowd

def Queues (s : Crowd α σ ω ε) (l : Lock) (i : TaskId) : Prop :=
  ∃ k, s.tasks i = some (.queued l k)

def Orderly (s : Crowd α σ ω ε) (held : TaskId → List Lock) : Prop :=
  ∀ l, (s.locks l).Sound (Within (l ∈ ·) s held) (s.Queues l)

section

variable {s : Crowd α σ ω ε} {i i' : TaskId} {l l' : Lock}

theorem Fresh.orderly (hs : s.Fresh) {held : TaskId → List Lock} : Orderly s held := by
  intro l
  have hlocks : s.locks l = {} := congrFun hs.locks l
  rw [hlocks]
  refine LockState.Sound.free.congr (fun i => iff_false_intro ?_) fun i => iff_false_intro ?_
  · rintro ⟨⟨j, hj⟩, -⟩
    rw [hs.jobAt] at hj
    cases hj
  · rintro ⟨k, hk⟩
    rw [hs.tasks] at hk
    cases hk

theorem not_queues_of_ready {j : Job α} (h : s.tasks i = some (.ready j)) : ¬ s.Queues l i := by
  rintro ⟨k, hk⟩
  rw [h] at hk
  cases hk

theorem queues_put_queued {k : Unit → Job α} :
    (s.put i (.queued l k)).Queues l i' ↔ i' = i ∨ s.Queues l i' := by
  unfold Queues put
  by_cases hi : i' = i
  · subst hi
    simp
  · simp [hi]

theorem queues_put {p : Place α} (hp : ∀ k, p ≠ .queued l k) :
    (s.put i p).Queues l i' ↔ s.Queues l i' ∧ i' ≠ i := by
  unfold Queues put
  by_cases hi : i' = i
  · subst hi
    simp [hp]
  · simp [hi]

theorem queues_put_of_not {p : Place α} (hp : ∀ k, p ≠ .queued l k) (hi : ¬ s.Queues l i) :
    (s.put i p).Queues l i' ↔ s.Queues l i' := by
  rw [queues_put hp, and_iff_left_iff_imp]
  rintro hq rfl
  exact hi hq

end

section

variable [DecidableEq ω] {R : Rules α σ χ ω ε} {s₀ s s' : Crowd α σ ω ε} {e : Event χ}
  {es : List (Event χ)} {held held' : TaskId → List Lock} {post : List Lock → α → Prop}

theorem Step.holds_of_answered (hstep : Step R s e s') (hadv : Advances Discipline e held held')
    {i : TaskId} {r : Request} {a : r.Answer} (he : e.answered? = some (i, ⟨r, a⟩)) :
    ∃ q, Discipline (held i) r a q ∧
      ∀ l, Shift (Within (l ∈ ·) s held) (Within (l ∈ ·) s' held') i (l ∈ held i) (l ∈ q) := by
  obtain ⟨q, hq, rfl⟩ := hadv.answered he
  exact ⟨q, hq, fun l => hstep.inside_of_answered (l ∈ ·) held he q⟩

theorem Orderly.step (hfollows : Follows Discipline post (fun _ => []) s held)
    (h : Orderly s held) (hstep : Step R s e s') (hadv : Advances Discipline e held held') :
    Orderly s' held' := by
  intro l
  have hunanswered : e.answered? = none →
      ∀ i, Within (l ∈ ·) s' held' i ↔ Within (l ∈ ·) s held i ∧ e ≠ .dropped i := by
    intro he i
    rw [hadv.unanswered he]
    refine hstep.inside_of_unanswered ?_ hfollows he
    exact fun _ => List.not_mem_nil
  have hsteps := hstep
  cases hstep with
  | started hj hi =>
    refine (h l).congr (fun i' => ?_) fun i' => queues_put_of_not nofun ?_
    · rw [hunanswered rfl, and_iff_left nofun]
    · rintro ⟨k, hk⟩
      rw [hi] at hk
      cases hk
  | @took i l₀ k hi hl =>
    obtain ⟨q, hq, hshift⟩ := hsteps.holds_of_answered hadv rfl
    obtain ⟨rfl, hrank⟩ := hq.of_acquire
    have hqueues (i' : TaskId) : (s.put i (.ready (k ()))).Queues l i' ↔ s.Queues l i' :=
      queues_put_of_not nofun (not_queues_of_ready hi)
    by_cases hne : l = l₀
    · subst hne
      obtain ⟨hfree, hlocks⟩ := Locks.acquire_of_true hl
      change LockState.Sound ((s.locks.acquire l i).2 l) _ _
      rw [hlocks]
      exact (h l).take hfree ((hshift l).gain List.mem_cons_self) hqueues
    · change LockState.Sound ((s.locks.acquire l₀ i).2 l) _ _
      rw [Locks.acquire_of_ne _ hne]
      exact (h l).congr ((hshift l).keep (by simp [hne])) hqueues
  | @queued i l₀ k hi hl =>
    have hholds : ∀ i', Within (l ∈ ·) _ held' i' ↔ Within (l ∈ ·) s held i' := fun i' => by
      rw [hunanswered rfl, and_iff_left nofun]
    by_cases hne : l = l₀
    · subst hne
      obtain ⟨hbusy, hlocks⟩ := Locks.acquire_of_false hl
      change LockState.Sound ((s.locks.acquire l i).2 l) _ _
      rw [hlocks]
      refine (h l).queue hbusy ?_ (not_queues_of_ready hi) hholds fun i' => queues_put_queued
      -- who holds a lock does not ask for it again
      rintro ⟨-, hmem⟩
      obtain ⟨q, hq, -⟩ := hfollows.keeps i _ (jobAt_of_task hi) ()
      exact Nat.lt_irrefl _ (hq.of_acquire.2 l hmem)
    · change LockState.Sound ((s.locks.acquire l₀ i).2 l) _ _
      rw [Locks.acquire_of_ne _ hne]
      refine (h l).congr hholds fun i' => queues_put_of_not ?_ (not_queues_of_ready hi)
      intro k' hk
      cases hk
      exact hne rfl
  | @woke i l₀ k hi hl =>
    obtain ⟨q, hq, hshift⟩ := hsteps.holds_of_answered hadv rfl
    obtain ⟨rfl, -⟩ := hq.of_acquire
    by_cases hne : l = l₀
    · subst hne
      exact (h l).wake hl ((hshift l).gain List.mem_cons_self) fun i' => queues_put nofun
    · refine (h l).congr ((hshift l).keep (by simp [hne])) fun i' => queues_put_of_not nofun ?_
      rintro ⟨k', hk⟩
      rw [hi] at hk
      cases hk
      exact hne rfl
  | @gave i l₀ k hi =>
    obtain ⟨q, hq, hshift⟩ := hsteps.holds_of_answered hadv rfl
    obtain ⟨hheld, hnot⟩ := hq.of_release
    have hqueues (i' : TaskId) : (s.put i (.ready (k ()))).Queues l i' ↔ s.Queues l i' :=
      queues_put_of_not nofun (not_queues_of_ready hi)
    by_cases hne : l = l₀
    · subst hne
      change LockState.Sound ((s.locks.release l).2 l) _ _
      rw [Locks.release_self]
      exact (h l).give ((hshift l).before.2 (hheld ▸ List.mem_cons_self)) ((hshift l).lose hnot)
        hqueues
    · change LockState.Sound ((s.locks.release l₀).2 l) _ _
      rw [Locks.release_of_ne _ hne]
      exact (h l).congr ((hshift l).keep (by simp [hheld, hne])) hqueues
  | looked hi =>
    obtain ⟨q, hq, hshift⟩ := hsteps.holds_of_answered hadv rfl
    obtain rfl := hq.of_inside
    exact (h l).congr ((hshift l).keep Iff.rfl) fun i' =>
      queues_put_of_not nofun (not_queues_of_ready hi)
  | asked hi =>
    refine (h l).congr (fun i' => ?_) fun i' => queues_put_of_not nofun (not_queues_of_ready hi)
    rw [hunanswered rfl, and_iff_left nofun]
  | heard hi ha =>
    obtain ⟨q, hq, hshift⟩ := hsteps.holds_of_answered hadv rfl
    obtain ⟨rfl, -⟩ := hq.of_outside
    refine (h l).congr ((hshift l).keep Iff.rfl) fun i' => queues_put_of_not nofun ?_
    rintro ⟨k, hk⟩
    rw [hi] at hk
    cases hk
  | @dropped i p hi hp hmay =>
    change LockState.Sound ((s.locks.abandon i).2 l) _ _
    rw [Locks.abandon_apply]
    refine (h l).abandon (fun i' => ?_) fun i' => queues_put nofun
    rw [hunanswered rfl]
    refine and_congr_right fun _ => not_congr ⟨?_, ?_⟩
    · rintro ⟨⟩
      rfl
    · rintro rfl
      rfl
  | befell hc =>
    refine (h l).congr (fun i' => ?_) fun i' => Iff.rfl
    rw [hunanswered rfl, and_iff_left nofun]

theorem Run.orderly (hjobs : ∀ i j, R.jobs i = some j → j.Keeps Discipline Discipline.Ends [])
    (hs₀ : s₀.Fresh) (h : Run R s₀ es s) :
    ∃ held, Follows Discipline Discipline.Ends (fun _ => []) s held ∧ Orderly s held := by
  induction h with
  | nil => exact ⟨_, hs₀.follows, hs₀.orderly⟩
  | snoc _ hstep ih =>
    obtain ⟨held, hfollows, horderly⟩ := ih
    obtain ⟨held', hadv, hfollows'⟩ := hfollows.step hjobs hstep
    exact ⟨held', hfollows', horderly.step hfollows hstep hadv⟩

end

/-! ### Coming on -/

def WaitsFor (s : Crowd α σ ω ε) (i i' : TaskId) : Prop :=
  i' ≠ i ∧ ∃ l k, s.jobAt i = some (.ask (.acquire l) k) ∧ (s.locks l).holder = some i'

def CanComeOn [DecidableEq ω] (R : Rules α σ χ ω ε) (s : Crowd α σ ω ε) (i : TaskId) : Prop :=
  (∃ e s', Step R s e s' ∧ e.mover? = some i) ∨ ∃ o k, s.tasks i = some (.away o k)

section

variable {s : Crowd α σ ω ε} {held : TaskId → List Lock} {i i' : TaskId} {l : Lock}

theorem unfinished_of_isSuspended {p : Place α} (hi : s.tasks i = some p)
    (hp : p.isSuspended = true) : s.Unfinished i := by
  cases p with
  | ready j =>
    cases j with
    | done a => cases hp
    | ask r k => exact ⟨r, k, jobAt_of_task hi⟩
  | queued l k => exact ⟨.acquire l, k, jobAt_of_task hi⟩
  | away o k => exact ⟨.outside o, k, jobAt_of_task hi⟩
  | dropped => cases hp

theorem Unfinished.canComeOn_or [DecidableEq ω] (R : Rules α σ χ ω ε) (h : s.Unfinished i) :
    CanComeOn R s i ∨ ∃ l k, s.tasks i = some (.queued l k) ∧ (s.locks l).holder ≠ some i := by
  obtain ⟨r, k, hk⟩ := h
  obtain ⟨p, hp, hjob⟩ := Option.bind_eq_some_iff.1 hk
  cases p with
  | ready j =>
    cases hjob
    left
    cases r with
    | acquire l =>
      cases hl : (s.locks.acquire l i).1 with
      | true => exact .inl ⟨_, _, .took hp hl, rfl⟩
      | false => exact .inl ⟨_, _, .queued hp hl, rfl⟩
    | release l => exact .inl ⟨_, _, .gave hp, rfl⟩
    | inside x => exact .inl ⟨_, _, .looked hp, rfl⟩
    | outside o => exact .inl ⟨_, _, .asked hp, rfl⟩
  | queued l k' =>
    by_cases hl : (s.locks l).holder = some i
    · exact .inl (.inl ⟨_, _, .woke hp hl, rfl⟩)
    · exact .inr ⟨l, k', hp, hl⟩
  | away o k' => exact .inl (.inr ⟨o, k', hp⟩)
  | dropped => cases hjob

theorem unfinished_of_holds (hfollows : Follows Discipline Discipline.Ends (fun _ => []) s held)
    (h : Within (l ∈ ·) s held i) : s.Unfinished i := by
  obtain ⟨⟨j, hj⟩, hmem⟩ := h
  cases j with
  | ask r k => exact ⟨r, k, hj⟩
  | done a =>
    have hend : held i = [] := hfollows.keeps i _ hj
    change l ∈ held i at hmem
    rw [hend] at hmem
    contradiction

theorem rank_lt_of_holds (hfollows : Follows Discipline Discipline.Ends (fun _ => []) s held)
    (h : Within (l ∈ ·) s held i) {l' : Lock} {k : Unit → Job α}
    (hi : s.jobAt i = some (.ask (.acquire l') k)) : l.rank < l'.rank := by
  obtain ⟨q, hq, -⟩ := hfollows.keeps i _ hi ()
  exact hq.of_acquire.2 l h.2

theorem exists_waitsFor_of_queued [DecidableEq ω] (R : Rules α σ χ ω ε)
    (hfollows : Follows Discipline Discipline.Ends (fun _ => []) s held) (h : Orderly s held)
    {k : Unit → Job α} (hi : s.tasks i = some (.queued l k)) (hl : (s.locks l).holder ≠ some i) :
    ∃ i', s.WaitsFor i i' ∧ s.Unfinished i' ∧ (CanComeOn R s i' ∨ ∃ l' k',
      s.tasks i' = some (.queued l' k') ∧ (s.locks l').holder ≠ some i' ∧ l.rank < l'.rank) := by
  have hwaiting : i ∈ (s.locks l).waiting := (h l).waiting.2 ⟨⟨k, hi⟩, hl⟩
  obtain ⟨i', hholder⟩ : ∃ i', (s.locks l).holder = some i' := by
    refine Option.ne_none_iff_exists'.1 fun hfree => ?_
    rw [(h l).busy hfree] at hwaiting
    contradiction
  have hwaits : s.WaitsFor i i' :=
    ⟨fun he => hl (he ▸ hholder), l, k, jobAt_of_task hi, hholder⟩
  rcases (h l).holder hholder with hholds | ⟨k', hk'⟩
  · have hunfinished := unfinished_of_holds hfollows hholds
    refine ⟨i', hwaits, hunfinished, (hunfinished.canComeOn_or R).imp_right ?_⟩
    rintro ⟨l', k', hk', hl'⟩
    exact ⟨l', k', hk', hl', rank_lt_of_holds hfollows hholds (jobAt_of_task hk')⟩
  -- it has been handed the lock, and wakes up
  · exact ⟨i', hwaits, ⟨.acquire l, k', jobAt_of_task hk'⟩, .inl (.inl ⟨_, _, .woke hk' hholder, rfl⟩)⟩

theorem exists_canComeOn_of_queued [DecidableEq ω] (R : Rules α σ χ ω ε)
    (hfollows : Follows Discipline Discipline.Ends (fun _ => []) s held) (h : Orderly s held)
    {i : TaskId} {l : Lock} {k : Unit → Job α} (hi : s.tasks i = some (.queued l k))
    (hl : (s.locks l).holder ≠ some i) :
    ∃ i', Relation.ReflTransGen s.WaitsFor i i' ∧ s.Unfinished i' ∧ CanComeOn R s i' := by
  obtain ⟨i', hwaits, hunfinished, hon | ⟨l', k', hk', hl', hrank⟩⟩ :=
    exists_waitsFor_of_queued R hfollows h hi hl
  · exact ⟨i', .single hwaits, hunfinished, hon⟩
  · have hle := l'.rank_le
    obtain ⟨i₀, hchain, hi₀⟩ := exists_canComeOn_of_queued R hfollows h hk' hl'
    exact ⟨i₀, .head hwaits hchain, hi₀⟩
termination_by 1 - l.rank

/-- Whoever has still something to do waits, perhaps over others, for one that can come on. -/
theorem exists_canComeOn [DecidableEq ω] (R : Rules α σ χ ω ε)
    (hfollows : Follows Discipline Discipline.Ends (fun _ => []) s held) (h : Orderly s held)
    (hi : s.Unfinished i) :
    ∃ i', Relation.ReflTransGen s.WaitsFor i i' ∧ s.Unfinished i' ∧ CanComeOn R s i' := by
  rcases hi.canComeOn_or R with hon | ⟨l, k, hqueued, hl⟩
  · exact ⟨i, .refl, hi, hon⟩
  · exact exists_canComeOn_of_queued R hfollows h hqueued hl

def askedRank (s : Crowd α σ ω ε) (i : TaskId) : Nat :=
  match s.jobAt i with
  | some (.ask (.acquire l) _) => l.rank
  | _ => 0

theorem WaitsFor.askedRank_lt
    (hfollows : Follows Discipline Discipline.Ends (fun _ => []) s held) (h : Orderly s held)
    {i'' : TaskId} (hi : s.WaitsFor i i') (hi' : s.WaitsFor i' i'') :
    s.askedRank i < s.askedRank i' := by
  obtain ⟨-, l, k, hj, hl⟩ := hi
  obtain ⟨hne, l', k', hj', hl'⟩ := hi'
  simp only [askedRank, hj, hj']
  rcases (h l).holder hl with hholds | ⟨k'', hqueued⟩
  · exact rank_lt_of_holds hfollows hholds hj'
  -- who has been handed the lock that it asks for waits for nobody
  · rw [jobAt_of_task hqueued] at hj'
    cases hj'
    exact absurd (Option.some.inj (hl'.symm.trans hl)) hne

theorem not_waitsFor_circle
    (hfollows : Follows Discipline Discipline.Ends (fun _ => []) s held) (h : Orderly s held) :
    ¬ Relation.TransGen s.WaitsFor i i := by
  have key {a b : TaskId} (hab : Relation.TransGen s.WaitsFor a b) :
      ∀ c, s.WaitsFor b c → s.askedRank a < s.askedRank b := by
    induction hab with
    | single hab => exact fun c hbc => hab.askedRank_lt hfollows h hbc
    | tail _ hb ih =>
      exact fun c hc => Nat.lt_trans (ih _ hb) (hb.askedRank_lt hfollows h hc)
  intro hcircle
  obtain ⟨c, hc, -⟩ := Relation.TransGen.head'_iff.1 hcircle
  exact Nat.lt_irrefl _ (key hcircle c hc)

theorem lockless_of_finished
    (hfollows : Follows Discipline Discipline.Ends (fun _ => []) s held) (h : Orderly s held)
    (hi : ¬ s.Unfinished i) (l : Lock) :
    (s.locks l).holder ≠ some i ∧ i ∉ (s.locks l).waiting := by
  have hnot : ¬ s.Queues l i := by
    rintro ⟨k, hk⟩
    exact hi ⟨.acquire l, k, jobAt_of_task hk⟩
  refine ⟨fun hl => ?_, fun hmem => hnot ((h l).waiting.1 hmem).1⟩
  rcases (h l).holder hl with hholds | hqueued
  · exact hi (unfinished_of_holds hfollows hholds)
  · exact hnot hqueued

theorem lockless_of_outside
    (hfollows : Follows Discipline Discipline.Ends (fun _ => []) s held) (h : Orderly s held)
    {o : Outside} {k : o.Answer → Job α} (hi : s.jobAt i = some (.ask (.outside o) k))
    (ho : ∀ l : Lock, l.admits o = false) (l : Lock) :
    (s.locks l).holder ≠ some i ∧ i ∉ (s.locks l).waiting := by
  have hnot : ¬ s.Queues l i := by
    rintro ⟨k', hk'⟩
    rw [jobAt_of_task hk'] at hi
    cases hi
  refine ⟨fun hl => ?_, fun hmem => hnot ((h l).waiting.1 hmem).1⟩
  obtain ⟨a⟩ := (Request.outside o).nonempty_answer
  obtain ⟨q, hq, -⟩ := hfollows.keeps i _ hi a
  rcases (h l).holder hl with ⟨-, hmem⟩ | hqueued
  · have hadmits := hq.of_outside.2 l hmem
    rw [ho l] at hadmits
    contradiction
  · exact hnot hqueued

theorem not_waitsFor_of_lockless (h : ∀ l, (s.locks l).holder ≠ some i) :
    ¬ Relation.TransGen s.WaitsFor i' i := by
  intro hwaits
  obtain ⟨c, -, -, l, k, -, hl⟩ := Relation.TransGen.tail'_iff.1 hwaits
  exact h l hl

end

end Crowd

end MillGateway
