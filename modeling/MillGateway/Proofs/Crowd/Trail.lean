import MillGateway.Proofs.Crowd.Basic
import MillGateway.Proofs.Job.Walk

/-! Runs of a crowd with the states between their steps, and what one task in them has asked and been
answered: a way through its job, whatever the others do meanwhile. -/

namespace MillGateway.Crowd

structure Move (α σ χ ω ε : Type) where
  before : Crowd α σ ω ε
  event : Event χ
  after : Crowd α σ ω ε

def events (ms : List (Move α σ χ ω ε)) : List (Event χ) :=
  ms.map Move.event

variable [DecidableEq ω]

inductive Trail (R : Rules α σ χ ω ε) (s₀ : Crowd α σ ω ε) :
    List (Move α σ χ ω ε) → Crowd α σ ω ε → Prop
  | nil : Trail R s₀ [] s₀
  | snoc {ms s e s'} (h : Trail R s₀ ms s) (hstep : Step R s e s') :
      Trail R s₀ (ms ++ [⟨s, e, s'⟩]) s'

section

variable {R : Rules α σ χ ω ε} {s₀ s s' : Crowd α σ ω ε} {ms ms' : List (Move α σ χ ω ε)}
  {x : Move α σ χ ω ε}

omit [DecidableEq ω] in
theorem events_append (ms ms' : List (Move α σ χ ω ε)) :
    events (ms ++ ms') = events ms ++ events ms' :=
  List.map_append

omit [DecidableEq ω] in
theorem events_snoc (ms : List (Move α σ χ ω ε)) (x : Move α σ χ ω ε) :
    events (ms ++ [x]) = events ms ++ [x.event] :=
  List.map_append

theorem Trail.run (h : Trail R s₀ ms s) : Run R s₀ (events ms) s := by
  induction h with
  | nil => exact .nil
  | snoc _ hstep ih =>
    rw [events_snoc]
    exact ih.snoc hstep

theorem Run.exists_trail {es : List (Event χ)} (h : Run R s₀ es s) :
    ∃ ms, Trail R s₀ ms s ∧ events ms = es := by
  induction h with
  | nil => exact ⟨[], .nil, rfl⟩
  | snoc _ hstep ih =>
    obtain ⟨ms, hms, rfl⟩ := ih
    exact ⟨_, hms.snoc hstep, events_snoc _ _⟩

theorem Trail.split (h : Trail R s₀ (ms ++ ms') s) :
    ∃ s₁, Trail R s₀ ms s₁ ∧ Trail R s₁ ms' s := by
  generalize hl : ms ++ ms' = l at h
  induction h generalizing ms' with
  | nil =>
    obtain ⟨rfl, rfl⟩ := List.append_eq_nil_iff.1 hl
    exact ⟨s₀, .nil, .nil⟩
  | @snoc l s e s' h hstep ih =>
    rcases List.eq_nil_or_concat ms' with rfl | ⟨l', x, rfl⟩
    · rw [List.append_nil] at hl
      exact ⟨s', hl ▸ h.snoc hstep, .nil⟩
    · rw [List.concat_eq_append, ← List.append_assoc] at hl
      obtain ⟨hl, hx⟩ := List.append_inj' hl rfl
      obtain ⟨s₁, hbefore, hafter⟩ := ih hl
      rw [List.concat_eq_append, hx]
      exact ⟨s₁, hbefore, hafter.snoc hstep⟩

theorem Trail.cons_cases (h : Trail R s₀ (x :: ms) s) :
    x.before = s₀ ∧ Step R s₀ x.event x.after ∧ Trail R x.after ms s := by
  have hsplit : Trail R s₀ ([x] ++ ms) s := h
  obtain ⟨s₁, hx, hms⟩ := hsplit.split
  generalize hl : [x] = l at hx
  cases hx with
  | nil => cases hl
  | @snoc l s₂ e s₁ h' hstep =>
    have hsnoc : [] ++ [x] = l ++ [⟨s₂, e, s₁⟩] := hl
    obtain ⟨rfl, hx⟩ := List.append_inj' hsnoc rfl
    cases hx
    generalize hl' : ([] : List (Move α σ χ ω ε)) = l' at h'
    cases h' with
    | nil => exact ⟨rfl, hstep, hms⟩
    | snoc => simp at hl'

theorem Trail.after_last (h : Trail R s₀ ms s) (hx : ms.getLast? = some x) : x.after = s := by
  cases h with
  | nil => cases hx
  | snoc =>
    rw [List.getLast?_concat] at hx
    cases hx
    rfl

theorem Trail.at_move (h : Trail R s₀ (ms ++ x :: ms') s) :
    Trail R s₀ ms x.before ∧ Step R x.before x.event x.after ∧ Trail R x.after ms' s := by
  obtain ⟨s₁, hms, hrest⟩ := h.split
  obtain ⟨rfl, hstep, hms'⟩ := hrest.cons_cases
  exact ⟨hms, hstep, hms'⟩

theorem Trail.step_of_mem (h : Trail R s₀ ms s) (hx : x ∈ ms) :
    Step R x.before x.event x.after := by
  obtain ⟨ms₁, ms₂, rfl⟩ := List.append_of_mem hx
  exact h.at_move.2.1

theorem Trail.induction {P : Crowd α σ ω ε → Prop}
    (hstep : ∀ {s e s'}, Step R s e s' → P s → P s') (h₀ : P s₀) (h : Trail R s₀ ms s) : P s := by
  induction h with
  | nil => exact h₀
  | snoc _ hs ih => exact hstep hs ih

end

/-! ### What one task does -/

def Event.exchange? (i : TaskId) (e : Event χ) : Option Exchange :=
  e.answered?.bind fun x => if x.1 = i then some x.2 else none

def exchanges (i : TaskId) (es : List (Event χ)) : List Exchange :=
  es.filterMap (Event.exchange? i)

def Event.asks? (i : TaskId) : Event χ → Option Outside
  | .asked i' o => if i' = i then some o else none
  | _ => none

def asked (i : TaskId) (es : List (Event χ)) : List Outside :=
  es.filterMap (Event.asks? i)

def Event.mover? : Event χ → Option TaskId
  | .took i _ | .queued i _ | .gave i _ | .looked i _ _ | .asked i _ | .heard i _ _ _ => some i
  | .started _ | .dropped _ | .befell _ => none

section

variable {R : Rules α σ χ ω ε} {s₀ s s' : Crowd α σ ω ε} {e : Event χ} {i : TaskId}
  {ms : List (Move α σ χ ω ε)}

theorem Step.unmoved (h : Step R s e s') (he : e.mover? ≠ some i) :
    s'.tasks i = s.tasks i ∨
      s.tasks i = none ∧ (∃ j, R.jobs i = some j ∧ s'.tasks i = some (.ready j)) ∨
      s'.tasks i = some .dropped := by
  have hput : ∀ {t : Crowd α σ ω ε} {i' : TaskId} {p : Place α}, t.tasks = s.tasks → i ≠ i' →
      (t.put i' p).tasks i = s.tasks i := by
    intro t i' p ht hne
    exact (Function.update_of_ne hne _ _).trans (congrFun ht i)
  cases h with
  | befell => exact .inl rfl
  | @started i' j hj hi =>
    by_cases hne : i = i'
    · exact .inr (.inl ⟨hne ▸ hi, j, hne ▸ hj, by simp [put, hne]⟩)
    · exact .inl (hput rfl hne)
  | @dropped i' p hi =>
    by_cases hne : i = i'
    · exact .inr (.inr (by simp [put, hne]))
    · exact .inl (hput rfl hne)
  | took | queued | woke | gave | looked | asked | heard =>
    exact .inl (hput rfl fun hi => he (congrArg some hi.symm))

theorem Trail.unmoved (hs₀ : s₀.tasks i = none) (h : Trail R s₀ ms s)
    (hms : ∀ x ∈ ms, x.event.mover? ≠ some i) :
    s.tasks i = none ∨ (∃ j, R.jobs i = some j ∧ s.tasks i = some (.ready j)) ∨
      s.tasks i = some .dropped := by
  induction h with
  | nil => exact .inl hs₀
  | snoc _ hstep ih =>
    have hbefore := ih fun x hx => hms x (List.mem_append_left _ hx)
    rcases hstep.unmoved (hms _ (List.mem_append_right _ List.mem_cons_self)) with
      hsame | ⟨-, hnew⟩ | hdropped
    · rw [hsame]
      exact hbefore
    · exact .inr (.inl hnew)
    · exact .inr (.inr hdropped)

theorem Step.place_of_mover (h : Step R s e s') (he : e.mover? = some i) :
    ∃ p, s.tasks i = some p ∧ p ≠ .dropped := by
  cases h with
  | started | dropped | befell => cases he
  | took hi | queued hi | woke hi | gave hi | looked hi | asked hi | heard hi =>
    cases he
    exact ⟨_, hi, nofun⟩

theorem Step.of_acquire {l : Lock} {k : Unit → Job α} (h : Step R s e s') (he : e.mover? = some i)
    (hi : s.tasks i = some (.ready (.ask (.acquire l) k))) (hfree : (s.locks l).holder = none) :
    e = .took i l ∧ s'.gateway = s.gateway ∧ s'.tasks i = some (.ready (k ())) := by
  cases h with
  | started | dropped | befell => cases he
  | woke hi' | gave hi' | looked hi' | asked hi' | heard hi' =>
    cases he
    rw [hi] at hi'
    cases hi'
  | queued hi' hl =>
    cases he
    rw [hi] at hi'
    cases hi'
    rw [Locks.acquire, hfree] at hl
    cases hl
  | took hi' =>
    cases he
    rw [hi] at hi'
    cases hi'
    exact ⟨rfl, rfl, Function.update_self ..⟩

theorem Step.of_inside {x : Inside} {k : x.Answer → Job α} (h : Step R s e s')
    (he : e.mover? = some i) (hi : s.tasks i = some (.ready (.ask (.inside x) k))) :
    e = .looked i x (s.gateway.answer R.observers x).1 := by
  cases h with
  | started | dropped | befell => cases he
  | took hi' | queued hi' | woke hi' | gave hi' | asked hi' | heard hi' =>
    cases he
    rw [hi] at hi'
    cases hi'
  | looked hi' =>
    cases he
    rw [hi] at hi'
    cases hi'
    rfl

theorem Step.tasks_of_dropped (h : Step R s e s') (hi : s.tasks i = some .dropped) :
    s'.tasks i = some .dropped := by
  have hmover : e.mover? ≠ some i := by
    intro he
    obtain ⟨p, hp, hne⟩ := h.place_of_mover he
    rw [hi] at hp
    exact hne (Option.some.inj hp).symm
  rcases h.unmoved hmover with hsame | ⟨hnone, -⟩ | hdropped
  · rw [hsame, hi]
  · rw [hi] at hnone
    cases hnone
  · exact hdropped

theorem Trail.ready_of_first {x : Move α σ χ ω ε} {ms' : List (Move α σ χ ω ε)}
    (hs₀ : s₀.tasks i = none) (h : Trail R s₀ (ms ++ x :: ms') s)
    (hx : x.event.mover? = some i) (hfirst : ∀ y ∈ ms, y.event.mover? ≠ some i) :
    ∃ j, R.jobs i = some j ∧ x.before.tasks i = some (.ready j) := by
  obtain ⟨hbefore, hstep, -⟩ := h.at_move
  obtain ⟨p, hp, hne⟩ := hstep.place_of_mover hx
  rcases hbefore.unmoved hs₀ hfirst with hi | hready | hi
  · rw [hi] at hp
    cases hp
  · exact hready
  · rw [hi] at hp
    exact absurd (Option.some.inj hp).symm hne

theorem Event.exchange?_of_mover {e : Event χ} (he : e.mover? ≠ some i) : e.exchange? i = none := by
  cases e with
  | took | gave | looked | heard => exact if_neg fun hi => he (congrArg some hi)
  | _ => rfl

theorem Event.mover?_of_answered {e : Event χ} {x : Exchange} (he : e.answered? = some (i, x)) :
    e.mover? = some i := by
  cases e <;> cases he <;> rfl

theorem exchanges_append (i : TaskId) (es es' : List (Event χ)) :
    exchanges i (es ++ es') = exchanges i es ++ exchanges i es' :=
  List.filterMap_append

theorem exchanges_eq_nil {es : List (Event χ)} (h : ∀ e ∈ es, e.mover? ≠ some i) :
    exchanges i es = [] :=
  List.filterMap_eq_nil_iff.2 fun e he => Event.exchange?_of_mover (h e he)

end

def Place.pending? : Place α → Option Outside
  | .away o _ => some o
  | .ready _ | .queued _ _ | .dropped => none

open Exchange in
/-- Where a task is on its way, from what it has been answered and what it has asked. One that was
dropped may have asked for something that it was not answered. -/
inductive Stands (j₀ : Job α) : List Exchange → List Outside → Option (Place α) → Prop
  | absent : Stands j₀ [] [] none
  | going {t j p} (hp : p.job? = some j) (h : j₀.Reaches t j) :
      Stands j₀ t (outsides t ++ p.pending?.toList) (some p)
  | dropped {t j} {p : Place α} (hp : p.job? = some j) (h : j₀.Reaches t j) :
      Stands j₀ t (outsides t ++ p.pending?.toList) (some .dropped)

section

open Exchange

variable {j₀ j : Job α} {t : List Exchange} {os : List Outside} {p : Place α} {i : TaskId}
  {s s' : Crowd α σ ω ε}

theorem outsides_snoc (t : List Exchange) (x : Exchange) :
    outsides (t ++ [x]) = outsides t ++ x.outside?.toList :=
  filterMap_snoc outside? t x

omit [DecidableEq ω] in
theorem Stands.reaches (h : Stands j₀ t os (s.tasks i)) (hj : s.jobAt i = some j) :
    j₀.Reaches t j := by
  generalize hp : s.tasks i = p? at h
  cases h with
  | absent => simp [jobAt, hp] at hj
  | going hjob h =>
    rw [jobAt_of_task hp, hjob] at hj
    cases hj
    exact h
  | dropped =>
    rw [jobAt_of_task hp] at hj
    cases hj

omit [DecidableEq ω] in
theorem Stands.eq_outsides_of_ready (h : Stands j₀ t os (s.tasks i))
    (hi : s.tasks i = some (.ready j)) : os = outsides t := by
  rw [hi] at h
  cases h with
  | going => simp [Place.pending?]

theorem Stands.eq_nil_of_absent (h : Stands j₀ t os none) : t = [] ∧ os = [] := by
  cases h
  exact ⟨rfl, rfl⟩

theorem Stands.exists_place {p? : Option (Place α)} (h : Stands j₀ t os p?) (hp? : p? ≠ none) :
    ∃ p : Place α, ∃ j, p.job? = some j ∧ j₀.Reaches t j ∧
      os = outsides t ++ p.pending?.toList := by
  cases h with
  | absent => exact absurd rfl hp?
  | going hp h => exact ⟨_, _, hp, h, rfl⟩
  | dropped hp h => exact ⟨_, _, hp, h, rfl⟩

omit [DecidableEq ω] in
theorem Stands.exists_reaches (h : Stands j₀ t os (s.tasks i)) :
    ∃ j, j₀.Reaches t j ∧ ∀ j', s.jobAt i = some j' → j' = j := by
  unfold jobAt
  generalize s.tasks i = p? at h
  cases h with
  | absent => exact ⟨j₀, .refl j₀, nofun⟩
  | going hp h =>
    refine ⟨_, h, fun j' hj' => ?_⟩
    rw [Option.bind_some, hp] at hj'
    exact (Option.some.inj hj').symm
  | dropped _ h => exact ⟨_, h, nofun⟩

theorem Stands.walk {p? : Option (Place α)} (h : Stands j₀ t os p?) :
    ∃ t' j, j₀.Reaches t' j ∧ t <+: t' ∧ os = outsides t' := by
  cases p? with
  | none =>
    cases h
    exact ⟨[], j₀, .refl j₀, List.prefix_refl _, rfl⟩
  | some p =>
    obtain ⟨q, j, hq, hreach, rfl⟩ := h.exists_place nofun
    cases q with
    | ready | queued => exact ⟨t, j, hreach, List.prefix_refl _, by simp [Place.pending?]⟩
    | dropped => cases hq
    | away o k =>
      cases hq
      obtain ⟨a⟩ := (Request.outside o).nonempty_answer
      exact ⟨_, _, hreach.snoc a, List.prefix_append _ _,
        (outsides_snoc t ⟨.outside o, a⟩).symm⟩

variable {R : Rules α σ χ ω ε} {e : Event χ}

theorem Step.place_of_answered {r : Request} {a : r.Answer} (h : Step R s e s')
    (he : e.answered? = some (i, ⟨r, a⟩)) :
    ∃ p k, s.tasks i = some p ∧ p.job? = some (.ask r k) ∧ p.pending? = outside? ⟨r, a⟩ ∧
      s'.tasks = Function.update s.tasks i (some (.ready (k a))) := by
  cases h with
  | started | queued | asked | dropped | befell => cases he
  | took hi | woke hi | gave hi | looked hi | heard hi =>
    cases he
    exact ⟨_, _, hi, rfl, rfl, rfl⟩

theorem Event.exchange?_of_answered {i' : TaskId} {x : Exchange}
    (he : e.answered? = some (i', x)) :
    e.exchange? i = if i' = i then some x else none := by
  rw [Event.exchange?, he]
  rfl

theorem Event.exchange?_of_unanswered (he : e.answered? = none) : e.exchange? i = none := by
  rw [Event.exchange?, he]
  rfl

theorem Event.asks?_of_answered {x : TaskId × Exchange} (he : e.answered? = some x) :
    e.asks? i = none := by
  cases e with
  | asked => cases he
  | _ => rfl

theorem Stands.step (hj₀ : R.jobs i = some j₀) (hstep : Step R s e s')
    (h : Stands j₀ t os (s.tasks i)) :
    Stands j₀ (t ++ (e.exchange? i).toList) (os ++ (e.asks? i).toList) (s'.tasks i) := by
  cases he : e.answered? with
  | some x =>
    obtain ⟨i', r, a⟩ := x
    obtain ⟨p, k, hp, hjob, hpending, htasks⟩ := hstep.place_of_answered he
    rw [Event.exchange?_of_answered he, Event.asks?_of_answered he, htasks]
    by_cases hne : i' = i
    · subst hne
      rw [hp] at h
      cases h with
      | dropped => cases hjob
      | going hj h =>
        rw [hjob] at hj
        cases hj
        have hnext := Stands.going (p := .ready (k a)) rfl (h.snoc a)
        rw [outsides_snoc, ← hpending] at hnext
        simpa [Place.pending?] using hnext
    · simpa [hne, Ne.symm hne] using h
  | none =>
    rw [Event.exchange?_of_unanswered he, Option.toList_none, List.append_nil]
    cases hstep with
    | took | woke | gave | looked | heard => cases he
    | befell => simpa [Event.asks?] using h
    | @started i' j hj hi =>
      by_cases hne : i' = i
      · subst hne
        rw [hi] at h
        cases h
        rw [hj₀] at hj
        cases hj
        have hnext := Stands.going (p := .ready j₀) rfl (.refl j₀)
        simpa [put, Event.asks?, Place.pending?, outsides] using hnext
      · simpa [put, Event.asks?, Ne.symm hne] using h
    | @queued i' l k hi hl =>
      by_cases hne : i' = i
      · subst hne
        rw [hi] at h
        cases h with
        | going hj h =>
          have hnext := Stands.going (p := .queued l k) hj h
          simpa [put, Event.asks?, Place.pending?] using hnext
      · simpa [put, Event.asks?, Ne.symm hne] using h
    | @asked i' o k hi =>
      by_cases hne : i' = i
      · subst hne
        rw [hi] at h
        cases h with
        | going hj h =>
          simpa [put, Event.asks?, Place.pending?] using Stands.going (p := .away o k) hj h
      · simpa [put, Event.asks?, hne, Ne.symm hne] using h
    | @dropped i' p hi hp hmay =>
      by_cases hne : i' = i
      · subst hne
        rw [hi] at h
        cases h with
        | dropped => cases hp
        | going hj h => simpa [put, Event.asks?] using Stands.dropped hj h
      · simpa [put, Event.asks?, Ne.symm hne] using h

/-- However tasks come on side by side, each of them follows its own job. -/
theorem Run.stands {s₀ : Crowd α σ ω ε} {es : List (Event χ)} (hj₀ : R.jobs i = some j₀)
    (hs₀ : s₀.tasks i = none) (h : Run R s₀ es s) :
    Stands j₀ (exchanges i es) (asked i es) (s.tasks i) := by
  induction h with
  | nil => exact hs₀ ▸ .absent
  | @snoc es s e s' _ hstep ih =>
    have hx : exchanges i (es ++ [e]) = exchanges i es ++ (e.exchange? i).toList :=
      filterMap_snoc _ es e
    have ha : asked i (es ++ [e]) = asked i es ++ (e.asks? i).toList := filterMap_snoc _ es e
    rw [hx, ha]
    exact ih.step hj₀ hstep

theorem Run.exchanges_of_absent {s₀ : Crowd α σ ω ε} {es : List (Event χ)} (h : Run R s₀ es s)
    (hi : s.tasks i = none) : exchanges i es = [] := by
  induction h with
  | nil => rfl
  | @snoc es s e s' _ hstep ih =>
    have hbefore := hstep.tasks_mono hi
    have hx : exchanges i (es ++ [e]) = exchanges i es ++ (e.exchange? i).toList :=
      filterMap_snoc _ es e
    rw [hx, ih hbefore]
    cases he : e.answered? with
    | none => rw [Event.exchange?_of_unanswered he]; rfl
    | some y =>
      obtain ⟨i', r, a⟩ := y
      obtain ⟨p, k, hp, -⟩ := hstep.place_of_answered he
      have hne : i' ≠ i := by
        rintro rfl
        rw [hbefore] at hp
        cases hp
      rw [Event.exchange?_of_answered he, if_neg hne]
      rfl

theorem Run.job_of_task {s₀ : Crowd α σ ω ε} {es : List (Event χ)} (hs₀ : s₀.Fresh)
    (h : Run R s₀ es s) (hp : s.tasks i = some p) : ∃ j₀, R.jobs i = some j₀ := by
  induction h generalizing p with
  | nil =>
    rw [hs₀.tasks] at hp
    cases hp
  | @snoc es s e s' _ hstep ih =>
    cases hs : s.tasks i with
    | some q => exact ih hs
    | none =>
      cases hstep with
      | @started i' j hj hi =>
        by_cases hne : i = i'
        · exact ⟨j, hne ▸ hj⟩
        · simp [put, hne, hs] at hp
      | befell => simp [hs] at hp
      | @took i' _ _ hi | @queued i' _ _ hi | @woke i' _ _ hi | @gave i' _ _ hi
      | @looked i' _ _ hi | @asked i' _ _ hi | @heard i' _ _ _ _ _ hi | @dropped i' _ hi =>
        by_cases hne : i = i'
        · subst hne
          rw [hs] at hi
          cases hi
        · simp [put, hne, hs] at hp

theorem Trail.exists_start {s₀ : Crowd α σ ω ε} {ms : List (Move α σ χ ω ε)}
    (hs₀ : s₀.tasks i = none) (h : Trail R s₀ ms s) (hi : s.tasks i ≠ none) :
    ∃ ms₁ x ms₂, ms = ms₁ ++ x :: ms₂ ∧ x.event = .started i := by
  induction h with
  | nil => exact absurd hs₀ hi
  | @snoc ms s e s' _ hstep ih =>
    by_cases hnew : s.tasks i = none
    · exact ⟨ms, _, [], rfl, hstep.started_of_new hnew hi⟩
    · obtain ⟨ms₁, x, ms₂, rfl, hx⟩ := ih hnew
      exact ⟨ms₁, x, ms₂ ++ [⟨s, e, s'⟩], by simp, hx⟩

theorem Step.task_of_asked {o : Outside} (h : Step R s (.asked i o) s') :
    ∃ k, s.tasks i = some (.ready (.ask (.outside o) k)) := by
  cases h with
  | asked hi => exact ⟨_, hi⟩

theorem Run.stands_of_asked {s₀ : Crowd α σ ω ε} {es es' : List (Event χ)} {o : Outside}
    (hs₀ : s₀.Fresh) (h : Run R s₀ (es ++ .asked i o :: es') s) :
    ∃ j₀ k, R.jobs i = some j₀ ∧ j₀.Reaches (exchanges i es) (.ask (.outside o) k) ∧
      asked i es = outsides (exchanges i es) := by
  obtain ⟨ms, hms, hes⟩ := h.exists_trail
  obtain ⟨ms₁, ms₂, rfl, rfl, hms₂⟩ := List.map_eq_append_iff.1 hes
  obtain ⟨x, ms₂, rfl, hx, -⟩ := List.map_eq_cons_iff.1 hms₂
  obtain ⟨hbefore, hstep, -⟩ := hms.at_move
  rw [hx] at hstep
  obtain ⟨k, hi⟩ := hstep.task_of_asked
  obtain ⟨j₀, hj₀⟩ := hbefore.run.job_of_task hs₀ hi
  have hstands := hbefore.run.stands hj₀ (congrFun hs₀.tasks i)
  exact ⟨j₀, k, hj₀, hstands.reaches (jobAt_of_task hi), hstands.eq_outsides_of_ready hi⟩

theorem Run.reaches_of_asked {s₀ : Crowd α σ ω ε} {es es' : List (Event χ)} {o : Outside}
    (hs₀ : s₀.Fresh) (h : Run R s₀ (es ++ .asked i o :: es') s) :
    ∃ j₀ k, R.jobs i = some j₀ ∧ j₀.Reaches (exchanges i es) (.ask (.outside o) k) := by
  obtain ⟨j₀, k, hj₀, hreach, -⟩ := h.stands_of_asked hs₀
  exact ⟨j₀, k, hj₀, hreach⟩

end

end MillGateway.Crowd
