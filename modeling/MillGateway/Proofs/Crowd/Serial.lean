import MillGateway.Proofs.Crowd.Protocol
import MillGateway.Proofs.File.Access

/-! A crowd of jobs on files, all of whose changes are made under one lock. Main statement: the files
are those that the jobs leave one after another, in the order in which they took the lock. -/

namespace MillGateway.Crowd

/-! ### What edits do -/

inductive EditPhase where
  | reading
  | before
  | inside
  | finished

inductive EditStep : Protocol EditPhase
  | read {p a} : EditStep .reading (.outside (.readText p)) a .reading
  | take {a} : EditStep .before (.acquire .editing) a .inside
  | access {o a} : EditStep .inside (.outside o) a .inside
  | give {a} : EditStep .inside (.release .editing) a .finished

def EditEnd (ph : EditPhase) (_ : α) : Prop :=
  ph ≠ .inside

theorem guards_editing : Guards EditStep .editing (· = .inside) where
  enter
    | .take, _ => .inr rfl
    | .access, _ => .inl rfl
  leave
    | .give => ⟨rfl, nofun⟩

def onFiles (observers : Observers ω ε) (jobs : TaskId → Job α) :
    Rules α FileTree (Option FileError) ω ε where
  jobs i := some (jobs i)
  mayDrop _ := false
  observers := observers
  answer o e? t := t.access (e?.map .fails) o
  befall _ _ := none

/-! ### One after another -/

def Event.editor? : Event χ → Option TaskId
  | .took i .editing => some i
  | _ => none

def order (es : List (Event χ)) : List TaskId :=
  es.filterMap Event.editor?

def Event.mishap? (i : TaskId) : Event (Option FileError) → Option (Option Mishap)
  | .heard i' _ e? _ => if i' = i then some (e?.map .fails) else none
  | _ => none

def mishaps (es : List (Event (Option FileError))) (i : TaskId) : List (Option Mishap) :=
  es.filterMap (Event.mishap? i)

def serial (jobs : TaskId → Job α) (ms : TaskId → List (Option Mishap)) (t : FileTree)
    (is : List TaskId) : FileTree :=
  is.foldl (fun t i => ((jobs i).after t (ms i)).2) t

theorem serial_snoc (jobs : TaskId → Job α) (ms : TaskId → List (Option Mishap)) (t : FileTree)
    (is : List TaskId) (i : TaskId) :
    serial jobs ms t (is ++ [i]) = ((jobs i).after (serial jobs ms t is) (ms i)).2 := by
  rw [serial, List.foldl_append]
  rfl

theorem serial_append (jobs : TaskId → Job α) (ms : TaskId → List (Option Mishap)) (t : FileTree)
    (is is' : List TaskId) :
    serial jobs ms t (is ++ is') = serial jobs ms (serial jobs ms t is) is' :=
  List.foldl_append

theorem serial_congr (jobs : TaskId → Job α) {ms ms' : TaskId → List (Option Mishap)}
    (t : FileTree) {is : List TaskId} (h : ∀ i ∈ is, ms i = ms' i) :
    serial jobs ms t is = serial jobs ms' t is := by
  induction is generalizing t with
  | nil => rfl
  | cons i is ih =>
    rw [serial, serial, List.foldl_cons, List.foldl_cons, h i List.mem_cons_self]
    exact ih _ fun i' hi' => h i' (List.mem_cons_of_mem _ hi')

theorem serial_induction {jobs : TaskId → Job α} {ms : TaskId → List (Option Mishap)}
    {P : FileTree → Prop} {t : FileTree} {is : List TaskId}
    (hstep : ∀ i ∈ is, ∀ t, P t → P ((jobs i).after t (ms i)).2) (h : P t) :
    P (serial jobs ms t is) := by
  induction is generalizing t with
  | nil => exact h
  | cons i is ih =>
    exact ih (fun i' hi' => hstep i' (List.mem_cons_of_mem _ hi'))
      (hstep i List.mem_cons_self t h)

theorem mishaps_admitted (es : List (Event (Option FileError))) (i : TaskId) :
    ∀ m? ∈ mishaps es i, Mishap.Admitted false m? := by
  intro m? hm
  obtain ⟨e, -, he⟩ := List.mem_filterMap.1 hm
  cases e with
  | heard i' o e? a =>
    rw [Event.mishap?] at he
    split at he
    next =>
      rw [← Option.some.inj he]
      exact Mishap.admitted_map_fails _ _
    next => cases he
  | _ => cases he

/-! ### Histories that grow -/

theorem snoc_eq_append_cons {l xs ys : List β} {x y : β} (h : l ++ [x] = xs ++ y :: ys) :
    xs = l ∧ y = x ∧ ys = [] ∨ ∃ zs, ys = zs ++ [x] ∧ l = xs ++ y :: zs := by
  rcases List.eq_nil_or_concat ys with rfl | ⟨zs, z, rfl⟩
  · obtain ⟨rfl, hx⟩ := List.append_inj' h rfl
    exact .inl ⟨rfl, (List.cons.inj hx).1.symm, rfl⟩
  · rw [List.concat_eq_append, ← List.cons_append, ← List.append_assoc] at h
    obtain ⟨rfl, hx⟩ := List.append_inj' h rfl
    exact .inr ⟨zs, by rw [List.concat_eq_append, hx], rfl⟩

theorem Event.editor?_of_unanswered {e : Event χ} (he : e.answered? = none) :
    e.editor? = none := by
  cases e with
  | took | gave | looked | heard => cases he
  | _ => rfl

theorem Event.mishap?_of_unanswered {e : Event (Option FileError)} (he : e.answered? = none)
    (i : TaskId) : e.mishap? i = none := by
  cases e with
  | took | gave | looked | heard => cases he
  | _ => rfl

theorem order_snoc (es : List (Event χ)) (e : Event χ) :
    order (es ++ [e]) = order es ++ e.editor?.toList :=
  filterMap_snoc Event.editor? es e

theorem mishaps_snoc (es : List (Event (Option FileError))) (e : Event (Option FileError))
    (i : TaskId) : mishaps (es ++ [e]) i = mishaps es i ++ (e.mishap? i).toList :=
  filterMap_snoc (Event.mishap? i) es e

theorem order_snoc_of_none (es : List (Event χ)) {e : Event χ} (he : e.editor? = none) :
    order (es ++ [e]) = order es := by
  rw [order_snoc, he, Option.toList_none, List.append_nil]

theorem mishaps_snoc_of_none (es : List (Event (Option FileError)))
    {e : Event (Option FileError)} (he : ∀ i, e.mishap? i = none) :
    mishaps (es ++ [e]) = mishaps es := by
  funext i
  rw [mishaps_snoc, he, Option.toList_none, List.append_nil]

theorem mishaps_snoc_of_ne (es : List (Event (Option FileError))) {i i' : TaskId} (hi : i' ≠ i)
    (o : Outside) (e? : Option FileError) (a : o.Answer) :
    mishaps (es ++ [.heard i o e? a]) i' = mishaps es i' := by
  rw [mishaps_snoc, Event.mishap?, if_neg hi.symm, Option.toList_none, List.append_nil]

theorem mishaps_snoc_self (es : List (Event (Option FileError))) (i : TaskId) (o : Outside)
    (e? : Option FileError) (a : o.Answer) :
    mishaps (es ++ [.heard i o e? a]) i = mishaps es i ++ [e?.map .fails] := by
  rw [mishaps_snoc, Event.mishap?, if_pos rfl, Option.toList_some]

theorem serial_snoc_heard (jobs : TaskId → Job α) (es : List (Event (Option FileError)))
    (t : FileTree) {is : List TaskId} {i : TaskId} (hi : i ∉ is) (o : Outside)
    (e? : Option FileError) (a : o.Answer) :
    serial jobs (mishaps (es ++ [.heard i o e? a])) t is = serial jobs (mishaps es) t is := by
  apply serial_congr
  intro i' hi'
  exact mishaps_snoc_of_ne es (ne_of_mem_of_not_mem hi' hi) o e? a

/-! ### The order of edits -/

section Ordered

variable {start ph : TaskId → EditPhase} {is : List TaskId} {i : TaskId}

/-- Which tasks have taken the lock: those inside and those that have finished. The last one may be
inside. -/
structure Ordered (start ph : TaskId → EditPhase) (is : List TaskId) : Prop where
  reading : ∀ i, ph i = .reading → start i = .reading ∧ i ∉ is
  before : ∀ i, ph i = .before → i ∉ is
  inside : ∀ i, ph i = .inside → ∃ earlier, is = earlier ++ [i]
  finished : ∀ i, ph i = .finished → i ∈ is
  nodup : is.Nodup

theorem Ordered.take (h : Ordered start ph is) (hi : ph i = .before)
    (halone : ∀ i', ph i' = .inside → i' = i) :
    Ordered start (Function.update ph i .inside) (is ++ [i]) where
  reading i' hi' := by
    obtain ⟨hne, hi'⟩ := ne_of_update hi' nofun
    obtain ⟨hstart, hout⟩ := h.reading i' hi'
    exact ⟨hstart, by simpa [hne] using hout⟩
  before i' hi' := by
    obtain ⟨hne, hi'⟩ := ne_of_update hi' nofun
    simpa [hne] using h.before i' hi'
  inside i' hi' := by
    by_cases hne : i' = i
    · exact ⟨is, hne ▸ rfl⟩
    · rw [Function.update_of_ne hne] at hi'
      exact absurd (halone i' hi') hne
  finished i' hi' := by
    obtain ⟨hne, hi'⟩ := ne_of_update hi' nofun
    exact List.mem_append_left _ (h.finished i' hi')
  nodup := by
    rw [List.nodup_append]
    refine ⟨h.nodup, List.pairwise_singleton _ i, fun a ha b hb hab => h.before i hi ?_⟩
    rwa [← List.mem_singleton.1 hb, ← hab]

theorem Ordered.give (h : Ordered start ph is) (hi : ph i = .inside) :
    Ordered start (Function.update ph i .finished) is where
  reading i' hi' := h.reading i' (ne_of_update hi' nofun).2
  before i' hi' := h.before i' (ne_of_update hi' nofun).2
  inside i' hi' := h.inside i' (ne_of_update hi' nofun).2
  finished i' hi' := by
    by_cases hne : i' = i
    · obtain ⟨earlier, rfl⟩ := h.inside i hi
      exact hne ▸ List.mem_append_right _ List.mem_cons_self
    · rw [Function.update_of_ne hne] at hi'
      exact h.finished i' hi'
  nodup := h.nodup

end Ordered

variable [DecidableEq ω] {observers : Observers ω ε} {jobs : TaskId → Job α}
  {start ph ph' : TaskId → EditPhase} {t₀ : FileTree} {es : List (Event (Option FileError))}
  {e : Event (Option FileError)} {s s' : Crowd α FileTree ω ε}

/-- What holds at every moment of a crowd of edits: the tasks in the order are where they would be if
each had had the files for itself. -/
structure Serialized (jobs : TaskId → Job α) (start : TaskId → EditPhase) (t₀ : FileTree)
    (es : List (Event (Option FileError))) (s : Crowd α FileTree ω ε) (ph : TaskId → EditPhase) :
    Prop where
  follows : Follows EditStep EditEnd start s ph
  excludes : Excludes .editing (· = .inside) s ph
  ordered : Ordered start ph (order es)
  waiting : ∀ i, ph i = .before →
    mishaps es i = [] ∧ ∀ j, s.jobAt i = some j → j = jobs i
  world : s.world = serial jobs (mishaps es) t₀ (order es)
  places : ∀ is i rest, order es = is ++ i :: rest → ∃ j, s.jobAt i = some j ∧
    ((jobs i).after (serial jobs (mishaps es) t₀ is) (mishaps es i)).1 = j.settle

namespace Serialized

theorem quiet (h : Serialized jobs start t₀ es s ph)
    (hstep : Step (onFiles observers jobs) s e s') (he : e.answered? = none)
    (hfollows : Follows EditStep EditEnd start s' ph)
    (hexcludes : Excludes .editing (· = .inside) s' ph) :
    Serialized jobs start t₀ (es ++ [e]) s' ph := by
  have horder := order_snoc_of_none es (Event.editor?_of_unanswered he)
  have hmishaps := mishaps_snoc_of_none es (Event.mishap?_of_unanswered he)
  have hworld : s'.world = s.world := by
    cases hstep with
    | heard => cases he
    | befell hbefall => cases hbefall
    | _ => rfl
  refine ⟨hfollows, hexcludes, horder ▸ h.ordered, fun i hi => ?_, ?_, ?_⟩
  · rw [hmishaps]
    obtain ⟨hnone, hjob⟩ := h.waiting i hi
    refine ⟨hnone, fun j hj => ?_⟩
    rcases hstep.jobAt_before he hj with hj | ⟨-, hj⟩
    · exact hjob j hj
    · exact (Option.some.inj hj).symm
  · rw [hworld, horder, hmishaps]
    exact h.world
  · rw [horder, hmishaps]
    intro is i rest his
    obtain ⟨j, hj, hafter⟩ := h.places is i rest his
    rcases hstep.jobAt_after he hj with hj | rfl
    · exact ⟨j, hj, hafter⟩
    · cases hstep with
      | dropped _ _ hmay => cases hmay

theorem take (h : Serialized jobs start t₀ es s ph) {i : TaskId}
    (hstep : Step (onFiles observers jobs) s (.took i .editing) s') (hi : ph i = .before)
    (hfollows : Follows EditStep EditEnd start s' (Function.update ph i .inside))
    (hexcludes : Excludes .editing (· = .inside) s' (Function.update ph i .inside)) :
    Serialized jobs start t₀ (es ++ [.took i .editing]) s' (Function.update ph i .inside) := by
  obtain ⟨k, hk, hput⟩ := hstep.of_answered rfl
  obtain ⟨hnone, hjob⟩ := h.waiting i hi
  have hjob : .ask (.acquire .editing) k = jobs i := hjob _ hk
  have horder : order (es ++ [.took i .editing]) = order es ++ [i] := order_snoc _ _
  have hmishaps : mishaps (es ++ [.took i .editing]) = mishaps es :=
    mishaps_snoc_of_none es fun _ => rfl
  have hworld : s'.world = s.world := by
    cases hstep <;> rfl
  -- whoever is inside holds the lock, which only this task has just got
  have halone : ∀ i', ph i' = .inside → i' = i := by
    intro i' hi'
    obtain ⟨is, his⟩ := h.ordered.inside i' hi'
    obtain ⟨j, hj, -⟩ := h.places is i' [] his
    have hheld := h.excludes i' j hj hi'
    rcases hstep.holder_of_took.2 with hfree | hmine
    · rw [hfree] at hheld
      cases hheld
    · rw [hmine] at hheld
      exact (Option.some.inj hheld).symm
  refine ⟨hfollows, hexcludes, horder ▸ h.ordered.take hi halone, fun i' hi' => ?_, ?_, ?_⟩
  · obtain ⟨hne, hi'⟩ := ne_of_update hi' nofun
    rw [hput, Function.update_of_ne hne, hmishaps]
    exact h.waiting i' hi'
  · rw [hworld, horder, serial_snoc, hmishaps, hnone, h.world]
    rfl
  · rw [horder, hmishaps]
    intro is i' rest his
    rcases snoc_eq_append_cons his with ⟨rfl, rfl, -⟩ | ⟨rest', -, his⟩
    -- it begins with the files as those before it have left them
    · refine ⟨k (), by rw [hput, Function.update_self], ?_⟩
      rw [hnone, ← hjob]
      rfl
    · have hne : i' ≠ i := fun hii => h.ordered.before i hi (by simp [his, hii])
      rw [hput, Function.update_of_ne hne]
      exact h.places is i' rest' his

theorem give (h : Serialized jobs start t₀ es s ph) {i : TaskId}
    (hstep : Step (onFiles observers jobs) s (.gave i .editing) s') (hi : ph i = .inside)
    (hfollows : Follows EditStep EditEnd start s' (Function.update ph i .finished))
    (hexcludes : Excludes .editing (· = .inside) s' (Function.update ph i .finished)) :
    Serialized jobs start t₀ (es ++ [.gave i .editing]) s' (Function.update ph i .finished) := by
  obtain ⟨k, hk, hput⟩ := hstep.of_answered rfl
  have horder : order (es ++ [.gave i .editing]) = order es := order_snoc_of_none es rfl
  have hmishaps : mishaps (es ++ [.gave i .editing]) = mishaps es :=
    mishaps_snoc_of_none es fun _ => rfl
  have hworld : s'.world = s.world := by
    cases hstep
    rfl
  refine ⟨hfollows, hexcludes, horder ▸ h.ordered.give hi, fun i' hi' => ?_, ?_, ?_⟩
  · obtain ⟨hne, hi'⟩ := ne_of_update hi' nofun
    rw [hput, Function.update_of_ne hne, hmishaps]
    exact h.waiting i' hi'
  · rw [hworld, horder, hmishaps]
    exact h.world
  · rw [horder, hmishaps]
    intro is i' rest his
    obtain ⟨j, hj, hafter⟩ := h.places is i' rest his
    by_cases hne : i' = i
    · subst hne
      rw [hk] at hj
      cases hj
      exact ⟨k (), by rw [hput, Function.update_self], hafter⟩
    · rw [hput, Function.update_of_ne hne]
      exact ⟨j, hj, hafter⟩

theorem access (h : Serialized jobs start t₀ es s ph) {i : TaskId} {o : Outside}
    {e? : Option FileError} {a : o.Answer}
    (hstep : Step (onFiles observers jobs) s (.heard i o e? a) s') (hi : ph i = .inside)
    (hfollows : Follows EditStep EditEnd start s' ph)
    (hexcludes : Excludes .editing (· = .inside) s' ph) :
    Serialized jobs start t₀ (es ++ [.heard i o e? a]) s' ph := by
  obtain ⟨k, hk, hput⟩ := hstep.of_answered rfl
  have hanswer : s.world.access (e?.map .fails) o = some (a, s'.world) := by
    cases hstep with
    | heard _ ha => exact ha
  have horder : order (es ++ [.heard i o e? a]) = order es := order_snoc_of_none es rfl
  obtain ⟨is, his⟩ := h.ordered.inside i hi
  have hfresh : i ∉ is := by
    have hnodup := h.ordered.nodup
    rw [his, List.nodup_append] at hnodup
    exact fun hmem => hnodup.2.2 i hmem i List.mem_cons_self rfl
  -- the files are those that the others have left, as this task has changed them so far
  have hafter : (jobs i).after (serial jobs (mishaps (es ++ [.heard i o e? a])) t₀ is)
      (mishaps (es ++ [.heard i o e? a]) i) = ((k a).settle, s'.world) := by
    obtain ⟨j, hj, hhere⟩ := h.places is i [] his
    rw [hk] at hj
    cases hj
    have hhere : _ = Job.ask (.outside o) k := hhere
    have hthere := h.world
    rw [his, serial_snoc] at hthere
    rw [serial_snoc_heard jobs es t₀ hfresh, mishaps_snoc_self, Job.after_append, hhere,
      ← hthere, Job.access, hanswer]
  refine ⟨hfollows, hexcludes, horder ▸ h.ordered, fun i' hi' => ?_, ?_, ?_⟩
  · have hne : i' ≠ i := by
      rintro rfl
      rw [hi] at hi'
      cases hi'
    rw [hput, Function.update_of_ne hne, mishaps_snoc_of_ne es hne]
    exact h.waiting i' hi'
  · rw [horder, his, serial_snoc, hafter]
  · rw [horder, his]
    intro is' i' rest his'
    rcases snoc_eq_append_cons his' with ⟨rfl, rfl, -⟩ | ⟨rest', -, rfl⟩
    · exact ⟨k a, by rw [hput, Function.update_self], by rw [hafter]⟩
    · have hne : i' ≠ i := by
        rintro rfl
        exact hfresh (List.mem_append_right _ List.mem_cons_self)
      rw [hput, Function.update_of_ne hne, mishaps_snoc_of_ne es hne,
        serial_snoc_heard jobs es t₀ fun hmem => hfresh (List.mem_append_left _ hmem)]
      exact h.places is' i' (rest' ++ [i]) (by rw [his, List.append_assoc, List.cons_append])

theorem read (h : Serialized jobs start t₀ es s ph) {i : TaskId} {p : Path}
    {e? : Option FileError} {a : Except FileError String}
    (hstep : Step (onFiles observers jobs) s (.heard i (.readText p) e? a) s')
    (hi : ph i = .reading) (hfollows : Follows EditStep EditEnd start s' ph)
    (hexcludes : Excludes .editing (· = .inside) s' ph) :
    Serialized jobs start t₀ (es ++ [.heard i (.readText p) e? a]) s' ph := by
  obtain ⟨k, hk, hput⟩ := hstep.of_answered rfl
  have hworld : s'.world = s.world := by
    cases hstep with
    | heard _ ha => exact (FileTree.access_readText ha).1
  have horder : order (es ++ [.heard i (.readText p) e? a]) = order es :=
    order_snoc_of_none es rfl
  have hout := (h.ordered.reading i hi).2
  refine ⟨hfollows, hexcludes, horder ▸ h.ordered, fun i' hi' => ?_, ?_, ?_⟩
  · have hne : i' ≠ i := by
      rintro rfl
      rw [hi] at hi'
      cases hi'
    rw [hput, Function.update_of_ne hne, mishaps_snoc_of_ne es hne]
    exact h.waiting i' hi'
  · rw [hworld, horder, serial_snoc_heard jobs es t₀ hout]
    exact h.world
  · rw [horder]
    intro is i' rest his
    have hne : i' ≠ i := by
      rintro rfl
      exact hout (by simp [his])
    rw [hput, Function.update_of_ne hne, mishaps_snoc_of_ne es hne,
      serial_snoc_heard jobs es t₀ fun hmem => hout (his ▸ List.mem_append_left _ hmem)]
    exact h.places is i' rest his

theorem step (hjobs : ∀ i, (jobs i).Keeps EditStep EditEnd (start i))
    (hstart : ∀ i, start i = .reading ∨ start i = .before) (h : Serialized jobs start t₀ es s ph)
    (hstep : Step (onFiles observers jobs) s e s') :
    ∃ ph', Serialized jobs start t₀ (es ++ [e]) s' ph' := by
  have hkeeps : ∀ i j, (onFiles observers jobs).jobs i = some j →
      j.Keeps EditStep EditEnd (start i) := by
    intro i j hj
    cases hj
    exact hjobs i
  have hout : ∀ i, ¬ start i = .inside := by
    intro i hi
    rcases hstart i with h | h <;> rw [h] at hi <;> cases hi
  obtain ⟨ph', hadv, hfollows⟩ := h.follows.step hkeeps hstep
  have hexcludes := guards_editing.step hout h.follows h.excludes hstep hadv
  refine ⟨ph', ?_⟩
  cases he : e.answered? with
  | none =>
    obtain rfl := hadv.unanswered he
    exact h.quiet hstep he hfollows hexcludes
  | some x =>
    obtain ⟨i, r, a⟩ := x
    obtain ⟨q, hq, rfl⟩ := hadv.answered he
    -- one case for each step of the protocol
    generalize hp : ph i = p at hq
    cases hq with
    | read =>
      cases e <;> cases he
      have hsame : Function.update ph i .reading = ph := hp ▸ Function.update_eq_self i ph
      rw [hsame] at hfollows hexcludes ⊢
      exact h.read hstep hp hfollows hexcludes
    | take =>
      cases e <;> cases he
      exact h.take hstep hp hfollows hexcludes
    | access =>
      cases e <;> cases he
      have hsame : Function.update ph i .inside = ph := hp ▸ Function.update_eq_self i ph
      rw [hsame] at hfollows hexcludes ⊢
      exact h.access hstep hp hfollows hexcludes
    | give =>
      cases e <;> cases he
      exact h.give hstep hp hfollows hexcludes

omit [DecidableEq ω] in
theorem initial (hs₀ : s.Fresh) (hstart : ∀ i, start i = .reading ∨ start i = .before) :
    Serialized jobs start s.world [] s start where
  follows := hs₀.follows
  excludes := hs₀.excludes
  ordered := by
    refine ⟨fun i hi => ⟨hi, nofun⟩, nofun, fun i hi => ?_, fun i hi => ?_, .nil⟩ <;>
      rcases hstart i with h | h <;> rw [h] at hi <;> cases hi
  waiting i _ := by
    refine ⟨rfl, fun j hj => ?_⟩
    rw [hs₀.jobAt] at hj
    cases hj
  world := rfl
  places is i rest his := by
    cases is <;> cases his

theorem of_run (hjobs : ∀ i, (jobs i).Keeps EditStep EditEnd (start i))
    (hstart : ∀ i, start i = .reading ∨ start i = .before) (hs₀ : s.Fresh)
    (h : Run (onFiles observers jobs) s es s') :
    ∃ ph, Serialized jobs start s.world es s' ph := by
  induction h with
  | nil => exact ⟨start, .initial hs₀ hstart⟩
  | snoc h hstep ih =>
    obtain ⟨ph, ih⟩ := ih
    exact ih.step hjobs hstart hstep

omit [DecidableEq ω] in
/-- An edit that has ended has come out as it would have after those that took the lock before it,
or it has ended without taking the lock. -/
theorem of_done (h : Serialized jobs start t₀ es s ph) {i : TaskId} {a : α}
    (hi : start i = .before) (hj : s.jobAt i = some (.done a)) :
    (∃ is rest, order es = is ++ i :: rest ∧
      (jobs i).after (serial jobs (mishaps es) t₀ is) (mishaps es i) =
        (.done a, serial jobs (mishaps es) t₀ (is ++ [i]))) ∨
      i ∉ order es ∧ jobs i = .done a := by
  cases hp : ph i with
  | reading =>
    rw [(h.ordered.reading i hp).1] at hi
    cases hi
  | before => exact .inr ⟨h.ordered.before i hp, ((h.waiting i hp).2 _ hj).symm⟩
  | inside => exact absurd hp (h.follows.keeps i _ hj)
  | finished =>
    obtain ⟨is, rest, his⟩ := List.append_of_mem (h.ordered.finished i hp)
    obtain ⟨j, hj', hafter⟩ := h.places is i rest his
    rw [hj] at hj'
    cases hj'
    exact .inl ⟨is, rest, his, Prod.ext hafter (serial_snoc ..).symm⟩

end Serialized

end MillGateway.Crowd
