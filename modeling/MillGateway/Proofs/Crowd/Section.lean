import MillGateway.Proofs.Crowd.Protocol
import MillGateway.Proofs.Crowd.Trail

/-! Sections of a protocol, through which one task at a time goes, and the marks that tasks leave in
them. Main statement: while one task at a time is in a section, the marks of a run are those of one
section after another, and of the section that a task is in. -/

namespace MillGateway

/-- What exchanges mark the phases `inside` with: `made` are the marks of a section so far, and those
of a section that is left are `whole`. -/
structure Sections (N : Protocol φ) (inside : φ → Prop)
    (mark? : (r : Request) → r.Answer → Option μ) (made : φ → List μ)
    (whole : List μ → Prop) : Prop where
  apart : ∀ {ph r a ph'}, N ph r a ph' → ¬ inside ph → ¬ inside ph' → mark? r a = none
  enter : ∀ {ph r a ph'}, N ph r a ph' → ¬ inside ph → inside ph' → made ph' = (mark? r a).toList
  stay : ∀ {ph r a ph'}, N ph r a ph' → inside ph → inside ph' →
    made ph' = made ph ++ (mark? r a).toList
  leave : ∀ {ph r a ph'}, N ph r a ph' → inside ph → ¬ inside ph' →
    whole (made ph ++ (mark? r a).toList)

namespace Crowd

def Event.mark? (mark? : (r : Request) → r.Answer → Option μ) (e : Event χ) :
    Option (TaskId × μ) :=
  e.answered?.bind fun x => (mark? x.2.1 x.2.2).map fun y => (x.1, y)

def marks (mark? : (r : Request) → r.Answer → Option μ) (es : List (Event χ)) :
    List (TaskId × μ) :=
  es.filterMap (Event.mark? mark?)

def ofTask (i : TaskId) (l : List μ) : List (TaskId × μ) :=
  l.map fun x => (i, x)

def oneByOne (ls : List (TaskId × List μ)) : List (TaskId × μ) :=
  ls.flatMap fun x => ofTask x.1 x.2

theorem oneByOne_snoc (ls : List (TaskId × List μ)) (i : TaskId) (l : List μ) :
    oneByOne (ls ++ [(i, l)]) = oneByOne ls ++ ofTask i l := by
  simp [oneByOne]

theorem ofTask_append (i : TaskId) (l l' : List μ) :
    ofTask i (l ++ l') = ofTask i l ++ ofTask i l' :=
  List.map_append

theorem filter_marks (mark? : (r : Request) → r.Answer → Option μ) (i : TaskId)
    (es : List (Event χ)) :
    ((marks mark? es).filter fun x => x.1 == i) =
      ofTask i ((exchanges i es).filterMap fun x => mark? x.1 x.2) := by
  unfold marks exchanges ofTask
  rw [List.filter_filterMap, List.filterMap_filterMap, List.map_filterMap]
  congr 1
  funext e
  unfold Event.mark? Event.exchange?
  cases e.answered? with
  | none => rfl
  | some x =>
    by_cases hi : x.1 = i
    · cases hm : mark? x.2.1 x.2.2 <;> simp [hi, hm]
    · cases hm : mark? x.2.1 x.2.2 <;> simp [hi, hm]

def Within (inside : φ → Prop) (s : Crowd α σ ω ε) (ph : TaskId → φ) (i : TaskId) : Prop :=
  (∃ j, s.jobAt i = some j) ∧ inside (ph i)

def Alone (inside : φ → Prop) (s : Crowd α σ ω ε) (ph : TaskId → φ) : Prop :=
  ∀ i i', Within inside s ph i → Within inside s ph i' → i = i'

theorem Excludes.alone {l : Lock} {inside : φ → Prop} {s : Crowd α σ ω ε} {ph : TaskId → φ}
    (h : Excludes l inside s ph) : Alone inside s ph := by
  rintro i i' ⟨⟨j, hj⟩, hi⟩ ⟨⟨j', hj'⟩, hi'⟩
  exact h.eq hj hi hj' hi'

/-- How tasks that have something change when one of them, perhaps, gains or loses it. -/
structure Shift (has has' : TaskId → Prop) (i : TaskId) (before after : Prop) : Prop where
  before : has i ↔ before
  after : has' i ↔ after
  others : ∀ i', i' ≠ i → (has' i' ↔ has i')

theorem Shift.gain {has has' : TaskId → Prop} {i : TaskId} {before after : Prop}
    (h : Shift has has' i before after) (hafter : after) (i' : TaskId) :
    has' i' ↔ i' = i ∨ has i' := by
  by_cases hi : i' = i
  · subst hi
    exact iff_of_true (h.after.2 hafter) (.inl rfl)
  · rw [h.others i' hi, or_iff_right hi]

theorem Shift.lose {has has' : TaskId → Prop} {i : TaskId} {before after : Prop}
    (h : Shift has has' i before after) (hafter : ¬ after) (i' : TaskId) :
    has' i' ↔ has i' ∧ i' ≠ i := by
  by_cases hi : i' = i
  · subst hi
    exact iff_of_false (fun h' => hafter (h.after.1 h')) fun h' => h'.2 rfl
  · rw [h.others i' hi, and_iff_left hi]

theorem Shift.keep {has has' : TaskId → Prop} {i : TaskId} {before after : Prop}
    (h : Shift has has' i before after) (hsame : after ↔ before) (i' : TaskId) :
    has' i' ↔ has i' := by
  by_cases hi : i' = i
  · subst hi
    rw [h.after, h.before, hsame]
  · exact h.others i' hi

def Over (whole cut : List μ → Prop) (s : Crowd α σ ω ε) (x : TaskId × List μ) : Prop :=
  whole x.2 ∨ s.tasks x.1 = some .dropped ∧ cut x.2

/-- Whether marks are those of sections that are over, and of the one that a task is in. -/
structure Sectioned (inside : φ → Prop) (made : φ → List μ) (whole cut : List μ → Prop)
    (s : Crowd α σ ω ε) (ph : TaskId → φ) (m : List (TaskId × μ)) : Prop where
  exists_sections : ∃ ls rest, m = oneByOne ls ++ rest ∧ (∀ x ∈ ls, Over whole cut s x) ∧
    (∀ i, Within inside s ph i → rest = ofTask i (made (ph i))) ∧
    ((∀ i, ¬ Within inside s ph i) → rest = [])

section

variable [DecidableEq ω] {R : Rules α σ χ ω ε} {s s' : Crowd α σ ω ε} {e : Event χ} {N : Protocol φ}
  {post : φ → α → Prop} {start ph ph' : TaskId → φ} {inside : φ → Prop}
  {mark? : (r : Request) → r.Answer → Option μ} {made : φ → List μ} {whole cut : List μ → Prop}
  {m : List (TaskId × μ)}

omit [DecidableEq ω] in
theorem Fresh.sectioned (hs : s.Fresh) : Sectioned inside made whole cut s ph [] := by
  refine ⟨[], [], rfl, List.forall_mem_nil _, ?_, fun _ => rfl⟩
  rintro i ⟨⟨j, hj⟩, -⟩
  rw [hs.jobAt] at hj
  cases hj

theorem Step.task_of_dropped {i : TaskId} (h : Step R s (.dropped i) s') :
    s'.tasks i = some .dropped := by
  cases h with
  | dropped => exact Function.update_self ..

theorem Over.step (hstep : Step R s e s') {x : TaskId × List μ} (h : Over whole cut s x) :
    Over whole cut s' x :=
  h.imp_right fun hcut => ⟨hstep.tasks_of_dropped hcut.1, hcut.2⟩

theorem Step.inside_of_unanswered (hstart : ∀ i, ¬ inside (start i))
    (h : Follows N post start s ph) (hstep : Step R s e s') (he : e.answered? = none)
    {i : TaskId} : Within inside s' ph i ↔ Within inside s ph i ∧ e ≠ .dropped i := by
  constructor
  · rintro ⟨⟨j, hj⟩, hi⟩
    refine ⟨?_, ?_⟩
    · rcases hstep.jobAt_before he hj with hj | ⟨hnew, -⟩
      · exact ⟨⟨j, hj⟩, hi⟩
      · rw [h.start i hnew] at hi
        exact absurd hi (hstart i)
    · rintro rfl
      rw [hstep.jobAt_of_dropped] at hj
      cases hj
  · rintro ⟨⟨⟨j, hj⟩, hi⟩, hne⟩
    exact ⟨⟨j, (hstep.jobAt_after he hj).resolve_right hne⟩, hi⟩

theorem Step.inside_of_answered (hstep : Step R s e s') (inside : φ → Prop) (ph : TaskId → φ)
    {i : TaskId} {r : Request} {a : r.Answer} (he : e.answered? = some (i, ⟨r, a⟩)) (q : φ) :
    Shift (Within inside s ph) (Within inside s' (Function.update ph i q)) i (inside (ph i))
      (inside q) := by
  obtain ⟨k, hk, hput⟩ := hstep.of_answered he
  unfold Within
  rw [hput]
  refine ⟨by simp [hk], by simp, fun i' hne => ?_⟩
  rw [Function.update_of_ne hne, Function.update_of_ne hne]

theorem Sectioned.quiet (hstart : ∀ i, ¬ inside (start i)) (hfollows : Follows N post start s ph)
    (hstep : Step R s e s') (he : e.answered? = none) (halone : Alone inside s ph)
    (hcut : ∀ i, e = .dropped i → Within inside s ph i → cut (made (ph i)))
    (h : Sectioned inside made whole cut s ph m) : Sectioned inside made whole cut s' ph m := by
  obtain ⟨ls, rest, rfl, hls, hin, hout⟩ := h.exists_sections
  have hinside := fun i => hstep.inside_of_unanswered hstart hfollows he (i := i)
  by_cases hdropped : ∃ i, e = .dropped i ∧ Within inside s ph i
  -- who is dropped in a section leaves it as it is
  · obtain ⟨i, rfl, hi⟩ := hdropped
    refine ⟨ls ++ [(i, made (ph i))], [], ?_, ?_, fun i' hi' => ?_, fun _ => rfl⟩
    · rw [oneByOne_snoc, hin i hi, List.append_nil]
    · intro x hx
      rcases List.mem_append.1 hx with hx | hx
      · exact (hls x hx).step hstep
      · rw [List.mem_singleton.1 hx]
        exact .inr ⟨hstep.task_of_dropped, hcut i rfl hi⟩
    · obtain ⟨hi', hne⟩ := (hinside i').1 hi'
      exact absurd (congrArg _ (halone i i' hi hi')) hne
  · refine ⟨ls, rest, rfl, fun x hx => (hls x hx).step hstep,
      fun i hi => hin i ((hinside i).1 hi).1, fun hnone => ?_⟩
    refine hout fun i hi => hnone i ((hinside i).2 ⟨hi, ?_⟩)
    exact fun he => hdropped ⟨i, he, hi⟩

theorem Sectioned.answered (hN : Sections N inside mark? made whole) (hstep : Step R s e s')
    {i : TaskId} {r : Request} {a : r.Answer} {q : φ} (he : e.answered? = some (i, ⟨r, a⟩))
    (hq : N (ph i) r a q) (halone : Alone inside s ph)
    (halone' : Alone inside s' (Function.update ph i q))
    (h : Sectioned inside made whole cut s ph m) :
    Sectioned inside made whole cut s' (Function.update ph i q)
      (m ++ ofTask i (mark? r a).toList) := by
  obtain ⟨ls, rest, rfl, hls, hin, hout⟩ := h.exists_sections
  replace hls := fun x hx => (hls x hx).step hstep
  obtain ⟨hbefore, hafter, hothers⟩ := hstep.inside_of_answered inside ph he q
  by_cases hi : inside (ph i) <;> by_cases hi' : inside q
  · have hrest := hin i (hbefore.2 hi)
    refine ⟨ls, ofTask i (made q), ?_, hls, fun i' hi'' => ?_, fun hnone => ?_⟩
    · rw [hN.stay hq hi hi', ofTask_append, hrest, List.append_assoc]
    · obtain rfl := halone' i i' (hafter.2 hi') hi''
      rw [Function.update_self]
    · exact absurd (hafter.2 hi') (hnone i)
  · have hrest := hin i (hbefore.2 hi)
    refine ⟨ls ++ [(i, made (ph i) ++ (mark? r a).toList)], [], ?_, ?_, fun i' hi'' => ?_,
      fun _ => rfl⟩
    · rw [oneByOne_snoc, ofTask_append, hrest, List.append_nil, List.append_assoc]
    · intro x hx
      rcases List.mem_append.1 hx with hx | hx
      · exact hls x hx
      · rw [List.mem_singleton.1 hx]
        exact .inl (hN.leave hq hi hi')
    · by_cases hne : i' = i
      · rw [hne] at hi''
        exact absurd (hafter.1 hi'') hi'
      · exact absurd (halone i' i ((hothers i' hne).1 hi'') (hbefore.2 hi)) hne
  · -- nobody else is in a section when a task enters one
    have hnone : ∀ i', ¬ Within inside s ph i' := by
      intro i' hi''
      by_cases hne : i' = i
      · rw [hne] at hi''
        exact hi (hbefore.1 hi'')
      · exact hne (halone' i' i ((hothers i' hne).2 hi'') (hafter.2 hi'))
    refine ⟨ls, ofTask i (made q), ?_, hls, fun i' hi'' => ?_, fun hnone => ?_⟩
    · rw [hN.enter hq hi hi', hout hnone, List.append_nil]
    · obtain rfl := halone' i i' (hafter.2 hi') hi''
      rw [Function.update_self]
    · exact absurd (hafter.2 hi') (hnone i)
  · have hsame : ∀ i', Within inside s' (Function.update ph i q) i' ↔ Within inside s ph i' := by
      intro i'
      by_cases hne : i' = i
      · rw [hne, hbefore, hafter]
        exact iff_of_false hi' hi
      · exact hothers i' hne
    rw [hN.apart hq hi hi']
    refine ⟨ls, rest, by simp [ofTask], hls, fun i' hi'' => ?_, fun hnone => ?_⟩
    · have hne : i' ≠ i := by
        rintro rfl
        exact hi' (hafter.1 hi'')
      rw [Function.update_of_ne hne]
      exact hin i' ((hsame i').1 hi'')
    · exact hout fun i' hi'' => hnone i' ((hsame i').2 hi'')

theorem Sectioned.step (hN : Sections N inside mark? made whole)
    (hstart : ∀ i, ¬ inside (start i)) (hfollows : Follows N post start s ph)
    (hstep : Step R s e s') (hadv : Advances N e ph ph') (halone : Alone inside s ph)
    (halone' : Alone inside s' ph')
    (hcut : ∀ i, e = .dropped i → Within inside s ph i → cut (made (ph i)))
    (h : Sectioned inside made whole cut s ph m) :
    Sectioned inside made whole cut s' ph' (m ++ (e.mark? mark?).toList) := by
  cases he : e.answered? with
  | none =>
    obtain rfl := hadv.unanswered he
    rw [Event.mark?, he, Option.bind_none, Option.toList_none, List.append_nil]
    exact h.quiet hstart hfollows hstep he halone hcut
  | some x =>
    obtain ⟨i, r, a⟩ := x
    obtain ⟨q, hq, rfl⟩ := hadv.answered he
    have hmark : (e.mark? mark?).toList = ofTask i (mark? r a).toList := by
      rw [Event.mark?, he, Option.bind_some]
      cases mark? r a <;> rfl
    rw [hmark]
    exact h.answered hN hstep he hq halone halone'

end

end Crowd

end MillGateway
