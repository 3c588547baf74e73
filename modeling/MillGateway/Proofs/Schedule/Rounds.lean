import MillGateway.Schedule

/-! Rounds of a schedule. Main statement: what every turn keeps, and the passing of time, holds after
any run, in whatever order tasks have their turns. -/

namespace MillGateway.Schedule

/-- Whether schedules differ in no more than who is to have a turn when. -/
structure Alike (s s' : Schedule α ω ε) : Prop where
  shared : s'.shared = s.shared
  observers : s'.observers = s.observers
  tasks : s'.tasks = s.tasks
  results : s'.results = s.results
  nextTask : s'.nextTask = s.nextTask

section

variable {s s' : Schedule α ω ε} {t : Task α}

theorem Alike.trans {s'' : Schedule α ω ε} (h : Alike s s') (h' : Alike s' s'') : Alike s s'' :=
  ⟨h'.shared.trans h.shared, h'.observers.trans h.observers, h'.tasks.trans h.tasks,
    h'.results.trans h.results, h'.nextTask.trans h.nextTask⟩

theorem alike_enqueue (s : Schedule α ω ε) (ids : List TaskId) : Alike s (s.enqueue ids) :=
  ⟨rfl, rfl, rfl, rfl, rfl⟩

theorem enqueue_nil (s : Schedule α ω ε) : s.enqueue [] = s := by
  simp [enqueue]

theorem mem_of_task? {id : TaskId} (h : s.task? id = some t) : t ∈ s.tasks ∧ t.id = id :=
  ⟨List.mem_of_find?_eq_some h, by simpa using List.find?_some h⟩

theorem mem_setTask {t' : Task α} (h : t' ∈ (s.setTask t).tasks) :
    t' = t ∨ t' ∈ s.tasks ∧ t'.id ≠ t.id := by
  obtain ⟨t'', hmem, ht''⟩ := List.mem_map.1 h
  by_cases hid : t''.id = t.id
  · rw [if_pos hid] at ht''
    exact .inl ht''.symm
  · rw [if_neg hid] at ht''
    exact .inr ⟨ht'' ▸ hmem, ht'' ▸ hid⟩

theorem alike_settle_finished {x : Ticker × Job α} (h : t.repeats? = some x) (a : α) :
    Alike (s.setTask { t with stand := .ticking, since := s.nextWait }) (s.settle t (.finished a)) := by
  rw [settle, h]
  dsimp only
  split <;> exact ⟨rfl, rfl, rfl, rfl, rfl⟩

theorem alike_settle_waiting (o : Outside) (d : Delay) (k : o.Answer → Job α) :
    Alike (s.setTask { t with stand := .waiting o d k, since := s.nextWait })
      (s.settle t (.waiting o d k)) := by
  rw [settle]
  dsimp only
  split <;> exact ⟨rfl, rfl, rfl, rfl, rfl⟩

theorem alike_settle_spent (j : Job α) :
    Alike (s.setTask { t with stand := .ready j }) (s.settle t (.spent j)) :=
  ⟨rfl, rfl, rfl, rfl, rfl⟩

theorem shared_wake (s : Schedule α ω ε) : s.wake.shared = { s.shared with woken := [] } := by
  unfold wake enqueue
  rfl

theorem Alike.wake (h : Alike s s') : Alike s.wake s'.wake := by
  refine ⟨?_, h.observers, ?_, h.results, h.nextTask⟩
  · rw [shared_wake, shared_wake, h.shared]
  · unfold Schedule.wake enqueue
    dsimp only
    rw [h.shared, h.tasks]

theorem wake_of_none (h : s.shared.woken = []) : s.wake = s := by
  have hmap : ∀ f : Task α → Task α, (∀ t, f t = t) → s.tasks.map f = s.tasks :=
    fun f hf => (List.map_congr_left fun t _ => hf t).trans (List.map_id _)
  unfold wake
  dsimp only
  rw [h, enqueue_nil, hmap, ← h]
  intro t
  split <;> rfl

theorem mem_wake (h : t ∈ s.wake.tasks) :
    t ∈ s.tasks ∨ ∃ t' ∈ s.tasks, ∃ k, t'.stand = .blocked k ∧ t'.id ∈ s.shared.woken ∧
      t = { t' with stand := .ready k } := by
  obtain ⟨t', hmem, ht⟩ := List.mem_map.1 h
  cases hstand : t'.stand with
  | blocked k =>
    rw [hstand] at ht
    dsimp only at ht
    split at ht
    next hwoken =>
      exact .inr ⟨t', hmem, k, hstand, by simpa using hwoken, ht.symm⟩
    next => exact .inl (ht ▸ hmem)
  | ready | waiting | ticking | ending =>
    rw [hstand] at ht
    exact .inl (ht ▸ hmem)

structure Kept [DecidableEq ω] (P : Schedule α ω ε → Prop) : Prop where
  alike : ∀ {s s'}, Alike s s' → P s → P s'
  turn : ∀ {s} id, P s → P (s.turn id)
  passes : ∀ {s} due, P s → P (s.setWorld { s.world with now := max s.now due })

end

namespace Kept

variable [DecidableEq ω] {P : Schedule α ω ε → Prop} {s s' : Schedule α ω ε}

theorem turns (h : Kept P) (ids : List TaskId) (hs : P s) : P (ids.foldl Schedule.turn s) := by
  induction ids generalizing s with
  | nil => exact hs
  | cons id ids ih => exact ih (h.turn id hs)

theorem moveTo (h : Kept P) (due : Nat) (hs : P s) : P (s.moveTo due) :=
  h.alike (alike_enqueue _ _) (h.passes due hs)

theorem arouse (h : Kept P) (harouse : s.arouse = some s') (hs : P s) : P s' := by
  have hquiet : ∀ s₁ : Schedule α ω ε, P s₁ →
      (if s₁.isQuiet then s₁.nextDue?.map s₁.moveTo else some s₁) = some s' → P s' := by
    intro s₁ hs₁ hnext
    split at hnext
    · obtain ⟨due, -, rfl⟩ := Option.map_eq_some_iff.1 hnext
      exact h.moveTo due hs₁
    · cases hnext
      exact hs₁
  have hrested : P (enqueue { s with resting := [] } s.resting) :=
    h.alike (s := s) ⟨rfl, rfl, rfl, rfl, rfl⟩ hs
  refine hquiet _ ?_ harouse
  split
  · exact h.alike (s := enqueue { s with resting := [] } s.resting) ⟨rfl, rfl, rfl, rfl, rfl⟩ hrested
  · exact hrested

theorem beginRound (h : Kept P) (hs : P s) : P s.beginRound := by
  unfold Schedule.beginRound
  refine h.turns _ ?_
  split
  · exact h.alike (s := s) ⟨rfl, rfl, rfl, rfl, rfl⟩ hs
  · exact h.alike (s := s) ⟨rfl, rfl, rfl, rfl, rfl⟩ hs

theorem step? (h : Kept P) (hstep : s.step? = some s') (hs : P s) : P s' := by
  unfold Schedule.step? at hstep
  split at hstep
  · cases hstep
    exact h.turn _ (h.alike (s := s) ⟨rfl, rfl, rfl, rfl, rfl⟩ hs)
  · obtain ⟨s₁, harouse, rfl⟩ := Option.map_eq_some_iff.1 hstep
    exact h.beginRound (h.arouse harouse hs)

theorem runFor (h : Kept P) (busy : Schedule α ω ε → Bool) (n : Nat) (hs : P s) :
    P (s.runFor busy n) := by
  induction n generalizing s with
  | zero => exact hs
  | succ n ih =>
    unfold Schedule.runFor
    split
    · cases hstep : s.step? with
      | none => exact hs
      | some s' => exact ih (h.step? hstep hs)
    · exact hs

end Kept

end MillGateway.Schedule
