import Mathlib.Data.Finset.Insert
import Mathlib.Logic.Hydra
import MillGateway.Proofs.Crowd.Queues

/-! What tasks that have been started come to. Each of their steps takes one of them on in its job,
and jobs are finite, so if no task is started, the others come to their ends. Main statement: each
task can be brought to its end. -/

namespace MillGateway.Crowd

namespace Place

inductive Next : Place α → Place α → Prop
  | answered {r k} (a : Request.Answer r) : Next (.ready (k a)) (.ready (.ask r k))
  | queued {l k} : Next (.queued l k) (.ready (.ask (.acquire l) k))
  | woke {l k} : Next (.ready (k ())) (.queued l k)
  | asked {o k} : Next (.away o k) (.ready (.ask (.outside o) k))
  | heard {o k} (a : Outside.Answer o) : Next (.ready (k a)) (.away o k)

theorem wellFounded_next : WellFounded (@Next α) := by
  have hready (j : Job α) : Acc Next (ready j) := by
    induction j with
    | done a => exact ⟨_, nofun⟩
    | ask r k ih =>
      refine ⟨_, fun p hp => ?_⟩
      -- who waits comes to the same place as who is answered at once
      cases hp with
      | answered a => exact ih a
      | queued =>
        refine ⟨_, fun p hp => ?_⟩
        cases hp
        exact ih ()
      | asked =>
        refine ⟨_, fun p hp => ?_⟩
        cases hp with
        | heard a => exact ih a
  refine ⟨fun p => ⟨p, fun q hq => ?_⟩⟩
  cases hq with
  | answered a => exact hready _
  | queued => exact (hready (.ask (.acquire _) _)).inv .queued
  | woke => exact hready _
  | asked => exact (hready (.ask (.outside _) _)).inv .asked
  | heard a => exact hready _

end Place

def places (s : Crowd α σ ω ε) (is : Finset TaskId) : Multiset (Place α) :=
  is.val.map fun i => (s.tasks i).getD .dropped

def Rules.Responsive (R : Rules α σ χ ω ε) : Prop :=
  ∀ o w, ∃ c x, R.answer o c w = some x

variable [DecidableEq ω] {R : Rules α σ χ ω ε} {s₀ s s' : Crowd α σ ω ε} {e : Event χ} {i : TaskId}
  {is : Finset TaskId} {ms : List (Move α σ χ ω ε)}

theorem Step.exists_next (h : Step R s e s') (he : e.mover? = some i) :
    ∃ p q, s.tasks i = some p ∧ q.Next p ∧ s'.tasks = Function.update s.tasks i (some q) := by
  cases h with
  | started | dropped | befell => cases he
  | took hi hl =>
    cases he
    exact ⟨_, _, hi, .answered (), rfl⟩
  | queued hi hl =>
    cases he
    exact ⟨_, _, hi, .queued, rfl⟩
  | woke hi hl =>
    cases he
    exact ⟨_, _, hi, .woke, rfl⟩
  | gave hi =>
    cases he
    exact ⟨_, _, hi, .answered (), rfl⟩
  | looked hi =>
    cases he
    exact ⟨_, _, hi, .answered _, rfl⟩
  | asked hi =>
    cases he
    exact ⟨_, _, hi, .asked, rfl⟩
  | heard hi ha =>
    cases he
    exact ⟨_, _, hi, .heard _, rfl⟩

theorem Step.cutExpand_places (h : Step R s e s') (he : e.mover? = some i) (hi : i ∈ is) :
    Relation.CutExpand Place.Next (places s' is) (places s is) := by
  obtain ⟨p, q, hp, hnext, hput⟩ := h.exists_next he
  have hothers : places s' (is.erase i) = places s (is.erase i) := by
    refine Multiset.map_congr rfl fun i' hi' => ?_
    rw [hput, Function.update_of_ne (Finset.ne_of_mem_erase hi')]
  have hsplit (t : Crowd α σ ω ε) :
      {(t.tasks i).getD .dropped} + places t (is.erase i) = places t is := by
    rw [Multiset.singleton_add, places, Finset.erase_val]
    exact (Multiset.map_cons _ i _).symm.trans (congrArg _ (Multiset.cons_erase hi))
  rw [← hsplit s, ← hsplit s', hothers, hp, hput, Function.update_self]
  exact Relation.cutExpand_single_add hnext _

theorem Trail.exists_started (hs₀ : s₀.Fresh) (h : Trail R s₀ ms s) :
    ∃ is : Finset TaskId, ∀ i, s.tasks i ≠ none → i ∈ is := by
  refine h.induction (P := fun s => ∃ is : Finset TaskId, ∀ i, s.tasks i ≠ none → i ∈ is)
    (fun {s e s'} hstep ⟨is, his⟩ => ?_) ⟨∅, fun i hi => absurd (congrFun hs₀.tasks i) hi⟩
  by_cases hnew : ∃ i, e = .started i
  · obtain ⟨i, rfl⟩ := hnew
    refine ⟨insert i is, fun i' hi' => ?_⟩
    by_cases hi : s.tasks i' = none
    · cases hstep.started_of_new hi hi'
      exact Finset.mem_insert_self i is
    · exact Finset.mem_insert_of_mem (his i' hi)
  · exact ⟨is, fun i' hi' => his i' fun hi => hnew ⟨i', hstep.started_of_new hi hi'⟩⟩

theorem CanComeOn.exists_step (hR : R.Responsive) (h : CanComeOn R s i) :
    ∃ e s', Step R s e s' ∧ e.mover? = some i := by
  rcases h with h | ⟨o, k, hi⟩
  · exact h
  · obtain ⟨c, ⟨a, w⟩, ha⟩ := hR o s.world
    exact ⟨_, _, .heard hi ha, rfl⟩

theorem Step.exists_jobAt {j : Job α} (h : Step R s e s') (he : e ≠ .dropped i)
    (hj : s.jobAt i = some j) : ∃ j', s'.jobAt i = some j' := by
  cases hev : e.answered? with
  | none => exact ⟨j, (h.jobAt_after hev hj).resolve_right he⟩
  | some x =>
    obtain ⟨i', r, a⟩ := x
    obtain ⟨k, -, hput⟩ := h.of_answered hev
    rw [hput]
    by_cases hi : i = i'
    · exact ⟨k a, by rw [hi, Function.update_self]⟩
    · exact ⟨j, by rw [Function.update_of_ne hi, hj]⟩

theorem Trail.exists_jobAt {x : Move α σ χ ω ε} (h : Trail R s₀ ms s) (hmem : x ∈ ms)
    (hx : x.event = .started i) (hkept : R.mayDrop i = false) : ∃ j, s.jobAt i = some j := by
  obtain ⟨ms₁, ms₂, rfl⟩ := List.append_of_mem hmem
  obtain ⟨-, hstep, hafter⟩ := h.at_move
  rw [hx] at hstep
  obtain ⟨-, j, -, hj⟩ := hstep.of_started
  refine hafter.induction (P := fun s => ∃ j, s.jobAt i = some j) (fun hstep ⟨j, hj⟩ => ?_) ⟨j, hj⟩
  refine hstep.exists_jobAt (fun he => ?_) hj
  have hmay := (he ▸ hstep).mayDrop_of_dropped
  rw [hkept] at hmay
  cases hmay

omit [DecidableEq ω] in
theorem task_of_done {a : α} (h : s.jobAt i = some (.done a)) :
    s.tasks i = some (.ready (.done a)) := by
  obtain ⟨p, hp, hjob⟩ := Option.bind_eq_some_iff.1 h
  rw [hp]
  cases p with
  | ready j =>
    cases hjob
    rfl
  | queued | away | dropped => cases hjob

/-- Tasks that keep to the order of locks and are answered whatever they ask can be brought to their
ends, each by nothing but steps of tasks that have been started. -/
theorem Trail.exists_end (hR : R.Responsive)
    (hjobs : ∀ i j, R.jobs i = some j → j.Keeps Discipline Discipline.Ends []) (hs₀ : s₀.Fresh)
    (h : Trail R s₀ ms s) {j : Job α} (hj : s.jobAt i = some j) :
    ∃ ms' s' a, Trail R s₀ (ms ++ ms') s' ∧ (∀ x ∈ ms', x.event.mover? ≠ none) ∧
      s'.tasks i = some (.ready (.done a)) := by
  obtain ⟨is, his⟩ := h.exists_started hs₀
  have hwf := InvImage.wf (fun s : Crowd α σ ω ε => places s is) Place.wellFounded_next.cutExpand
  induction s using hwf.induction generalizing ms j with
  | _ s ih =>
    cases j with
    | done a => exact ⟨[], s, a, by rwa [List.append_nil], fun x hx => absurd hx List.not_mem_nil,
        task_of_done hj⟩
    | ask r k =>
      obtain ⟨held, hfollows, horderly⟩ := h.run.orderly hjobs hs₀
      obtain ⟨i', -, -, hon⟩ := exists_canComeOn R hfollows horderly ⟨r, k, hj⟩
      obtain ⟨e, s₁, hstep, hmover⟩ := hon.exists_step hR
      obtain ⟨p, q, hp, -, hput⟩ := hstep.exists_next hmover
      have hi' : i' ∈ is := his i' fun hnone => nomatch hp.symm.trans hnone
      have his₁ : ∀ i₁, s₁.tasks i₁ ≠ none → i₁ ∈ is := by
        intro i₁ hi₁
        by_cases hne : i₁ = i'
        · exact hne ▸ hi'
        · rw [hput, Function.update_of_ne hne] at hi₁
          exact his i₁ hi₁
      obtain ⟨j₁, hj₁⟩ := hstep.exists_jobAt (fun he => by rw [he] at hmover; cases hmover) hj
      obtain ⟨ms', s', a, htrail, hmovers, hdone⟩ :=
        ih s₁ (hstep.cutExpand_places hmover hi') (h.snoc hstep) hj₁ his₁
      rw [List.append_assoc] at htrail
      refine ⟨_, s', a, htrail, fun x hx => ?_, hdone⟩
      rcases List.mem_append.1 hx with hx | hx
      · rw [List.mem_singleton.1 hx]
        exact fun hnone => nomatch hmover.symm.trans hnone
      · exact hmovers x hx

end MillGateway.Crowd
