import Mathlib.Data.List.Induction
import MillGateway.Console.Session
import MillGateway.Proofs.Crowd.Play
import MillGateway.Proofs.Poll.Protocol

/-! Status polls of many tasks. Main statement: one at a time reads the controller, outcomes go into
the cache in the order in which they were read, and the cache is that of the last one. -/

namespace MillGateway

open Machine

def Cache.ofOutcome (o : Option Status) : Cache :=
  ⟨o.isSome, o⟩

theorem Cache.snapshot_ofOutcome (o : Option Status) : (Cache.ofOutcome o).snapshot = o := by
  cases o <;> rfl

namespace Poll

open Crowd

/-! ### The log of polls -/

inductive Mark where
  | read (i : TaskId) (o : Option Status)
  | entered (i : TaskId) (o : Option Status)
  | ended (i : TaskId)

def mark? : Crowd.Event χ → Option Mark
  | .heard i (.link .pollStatus) _ a => some (.read i a.toOption)
  | .looked i (.store s) _ => some (.entered i (some s))
  | .looked i .markDown _ => some (.entered i none)
  | .gave i .polling => some (.ended i)
  | _ => none

def log (es : List (Crowd.Event χ)) : List Mark :=
  es.filterMap mark?

def Mark.entry? : Mark → Option (Option Status)
  | .entered _ o => some o
  | .read _ _ | .ended _ => none

def latest (m : List Mark) : Option Status :=
  (m.filterMap Mark.entry?).getLast?.join

def readings (m : List Mark) : List (TaskId × Option Status) :=
  m.filterMap fun
    | .read i o => some (i, o)
    | _ => none

def entries (m : List Mark) : List (TaskId × Option Status) :=
  m.filterMap fun
    | .entered i o => some (i, o)
    | _ => none

def Entering (m : List Mark) : Prop :=
  ∃ i o, m.getLast? = some (.entered i o)

/-- Polls one after another: each enters what it has just read, and ends before the next one reads.
One that does not enter anything was dropped. -/
inductive Orderly : List Mark → Prop
  | nil : Orderly []
  | read {m} (i o) (h : Orderly m) (hm : ¬ Entering m) : Orderly (m ++ [.read i o])
  | entered {m i o} (h : Orderly (m ++ [.read i o])) :
      Orderly (m ++ [.read i o] ++ [.entered i o])
  | ended {m i o} (h : Orderly (m ++ [.entered i o])) :
      Orderly (m ++ [.entered i o] ++ [.ended i])

theorem entering_snoc (m : List Mark) (i : TaskId) (o : Option Status) :
    Entering (m ++ [.entered i o]) :=
  ⟨i, o, by simp⟩

theorem latest_snoc_entered (m : List Mark) (i : TaskId) (o : Option Status) :
    latest (m ++ [.entered i o]) = o := by
  unfold latest
  rw [filterMap_snoc]
  simp [Mark.entry?]

theorem latest_append {m m' : List Mark} (h : ∀ i o, .entered i o ∉ m') :
    latest (m ++ m') = latest m := by
  have hnone : m'.filterMap Mark.entry? = [] := by
    rw [List.filterMap_eq_nil_iff]
    intro x hx
    cases x with
    | entered i o => exact absurd hx (h i o)
    | read | ended => rfl
  unfold latest
  rw [List.filterMap_append, hnone, List.append_nil]

section

variable {m m' : List Mark} {x : Mark} {i : TaskId}

theorem Orderly.snoc_cases (h : Orderly (m ++ [x])) :
    (∃ i o, x = .read i o ∧ Orderly m ∧ ¬ Entering m) ∨
    (∃ i o m', x = .entered i o ∧ m = m' ++ [.read i o] ∧ Orderly m) ∨
    ∃ i o m', x = .ended i ∧ m = m' ++ [.entered i o] ∧ Orderly m := by
  generalize hl : m ++ [x] = l at h
  cases h with
  | nil => simp at hl
  | read i o h hm =>
    obtain ⟨rfl, hx⟩ := List.append_inj' hl rfl
    exact .inl ⟨i, o, (List.cons.inj hx).1, h, hm⟩
  | @entered m' i o h =>
    obtain ⟨rfl, hx⟩ := List.append_inj' hl rfl
    exact .inr (.inl ⟨i, o, m', (List.cons.inj hx).1, rfl, h⟩)
  | @ended m' i o h =>
    obtain ⟨rfl, hx⟩ := List.append_inj' hl rfl
    exact .inr (.inr ⟨i, o, m', (List.cons.inj hx).1, rfl, h⟩)

theorem Orderly.of_snoc (h : Orderly (m ++ [x])) : Orderly m := by
  rcases h.snoc_cases with ⟨-, -, -, h, -⟩ | ⟨-, -, -, -, -, h⟩ | ⟨-, -, -, -, -, h⟩ <;> exact h

theorem Orderly.of_append (h : Orderly (m ++ m')) : Orderly m := by
  induction m' using List.reverseRecOn with
  | nil => simpa using h
  | append_singleton m' x ih =>
    rw [← List.append_assoc] at h
    exact ih h.of_snoc

theorem Orderly.of_ended (h : Orderly (m ++ [.ended i])) :
    ∃ o, [.read i o, .entered i o] <:+ m := by
  rcases h.snoc_cases with ⟨_, _, hx, -⟩ | ⟨_, _, _, hx, -⟩ | ⟨i, o, m', hx, rfl, h⟩
  · cases hx
  · cases hx
  · cases hx
    rcases h.snoc_cases with ⟨_, _, hx, -⟩ | ⟨i, o, m', hx, rfl, -⟩ | ⟨_, _, _, hx, -⟩
    · cases hx
    · cases hx
      exact ⟨o, m', by simp⟩
    · cases hx

theorem Orderly.after_entered {o : Option Status} (h : Orderly (m ++ [.entered i o] ++ [x])) :
    x = .ended i := by
  rcases h.snoc_cases with ⟨_, _, -, -, hm⟩ | ⟨_, _, _, -, hm, -⟩ | ⟨_, _, _, hx, hm, -⟩
  · exact absurd (entering_snoc _ _ _) hm
  · obtain ⟨-, hlast⟩ := List.append_inj' hm rfl
    cases hlast
  · obtain ⟨-, hlast⟩ := List.append_inj' hm rfl
    cases hlast
    exact hx

theorem Orderly.entries_sublist (h : Orderly m) : (entries m).Sublist (readings m) := by
  -- an entry adds to the marks before the reading that it follows, so these are carried along
  suffices hall : (entries m).Sublist (readings m) ∧
      ∀ m' i o, m = m' ++ [.read i o] → (entries m').Sublist (readings m') from hall.1
  induction h with
  | nil => exact ⟨.slnil, fun m' i o hm => by simp at hm⟩
  | @read m i o h hm ih =>
    unfold entries readings at ih ⊢
    rw [filterMap_snoc, filterMap_snoc]
    constructor
    · simpa using ih.1.trans (List.sublist_append_left _ _)
    · intro m' i' o' hm'
      obtain ⟨rfl, -⟩ := List.append_inj' hm' rfl
      exact ih.1
  | @entered m i o h ih =>
    have hbefore := ih.2 m i o rfl
    unfold entries readings at hbefore ⊢
    rw [filterMap_snoc, filterMap_snoc, filterMap_snoc, filterMap_snoc]
    constructor
    · simpa using hbefore
    · intro m' i' o' hm'
      obtain ⟨-, hx⟩ := List.append_inj' hm' rfl
      cases hx
  | @ended m i o h ih =>
    unfold entries readings at ih ⊢
    rw [filterMap_snoc _ (m ++ _), filterMap_snoc _ (m ++ _)]
    constructor
    · simpa using ih.1
    · intro m' i' o' hm'
      obtain ⟨-, hx⟩ := List.append_inj' hm' rfl
      cases hx

theorem Orderly.latest_eq (h : Orderly (m ++ .ended i :: m')) (hm' : ∀ i', .ended i' ∉ m')
    (hlast : ¬ Entering (m ++ .ended i :: m')) :
    ∃ o, [.read i o, .entered i o] <:+ m ∧ latest (m ++ .ended i :: m') = o := by
  have hsplit : Orderly (m ++ [.ended i] ++ m') := by simpa using h
  obtain ⟨o, hsuffix⟩ := hsplit.of_append.of_ended
  refine ⟨o, hsuffix, ?_⟩
  have hnone : ∀ i' o', .entered i' o' ∉ Mark.ended i :: m' := by
    intro i' o' hmem
    have hmem : .entered i' o' ∈ m' := by simpa using hmem
    -- another entry would be the last mark, or be followed by the end of its poll
    obtain ⟨xs, ys, rfl⟩ := List.append_of_mem hmem
    cases ys with
    | nil =>
      have hsnoc : m ++ .ended i :: (xs ++ [.entered i' o']) =
          m ++ .ended i :: xs ++ [.entered i' o'] := by simp
      rw [hsnoc] at hlast
      exact hlast (entering_snoc _ _ _)
    | cons x ys =>
      have hx : Orderly (m ++ .ended i :: xs ++ [.entered i' o'] ++ [x] ++ ys) := by simpa using h
      rw [hx.of_append.after_entered] at hm'
      exact hm' i' (by simp)
  rw [latest_append hnone]
  obtain ⟨m, rfl⟩ := hsuffix
  have hsplit : m ++ [Mark.read i o, .entered i o] = m ++ [.read i o] ++ [.entered i o] := by simp
  rw [hsplit, latest_snoc_entered]

end

/-! ### The cache -/

def flip? : Crowd.Event χ → Option Bool
  | .looked _ (.store _) true => some true
  | .looked _ .markDown true => some false
  | _ => none

def flips (es : List (Crowd.Event χ)) : List Bool :=
  es.filterMap flip?

section

variable [DecidableEq ω] {R : Rules α σ χ ω ε} {s₀ s s' : Crowd α σ ω ε} {e : Crowd.Event χ}
  {es : List (Crowd.Event χ)}

theorem cache_of_step (h : Step R s e s') :
    (∃ i st, e = .looked i (.store st) (!s.gateway.cache.alive) ∧
      s'.gateway.cache = .ofOutcome (some st)) ∨
    (∃ i, e = .looked i .markDown s.gateway.cache.alive ∧
      s'.gateway.cache = .ofOutcome none) ∨
    s'.gateway.cache = s.gateway.cache ∧ (mark? e).bind Mark.entry? = none ∧
      flip? e = none := by
  cases h with
  | @looked i x k hi =>
    cases x with
    | store st => exact .inl ⟨i, st, rfl, rfl⟩
    | markDown => exact .inr (.inl ⟨i, rfl, rfl⟩)
    | _ => exact .inr (.inr ⟨rfl, rfl, rfl⟩)
  | @heard i o k c a w hi ha =>
    have hmark : (mark? (.heard i o c a)).bind Mark.entry? = none := by
      cases o with
      | link call => cases call <;> rfl
      | _ => rfl
    exact .inr (.inr ⟨rfl, hmark, rfl⟩)
  | @gave i l k hi =>
    have hmark : (mark? (.gave i l : Crowd.Event χ)).bind Mark.entry? = none := by
      cases l <;> rfl
    exact .inr (.inr ⟨rfl, hmark, rfl⟩)
  | _ => exact .inr (.inr ⟨rfl, rfl, rfl⟩)

theorem cache_eq_latest (hcache : s₀.gateway.cache = {}) (h : Run R s₀ es s) :
    s.gateway.cache = .ofOutcome (latest (log es)) := by
  induction h with
  | nil => exact hcache
  | @snoc es s e s' _ hstep ih =>
    unfold log
    rw [filterMap_snoc]
    rcases cache_of_step hstep with ⟨i, st, rfl, hs'⟩ | ⟨i, rfl, hs'⟩ | ⟨hs', hmark, -⟩
    · rw [hs']
      exact congrArg _ (latest_snoc_entered _ i _).symm
    · rw [hs']
      exact congrArg _ (latest_snoc_entered _ i _).symm
    · have hnone : ∀ i o, .entered i o ∉ (mark? e).toList := by
        intro i o hmem
        rw [Option.mem_toList.1 hmem] at hmark
        cases hmark
      rw [latest_append hnone, hs']
      exact ih

theorem flip?_eq_or (h : Step R s e s') :
    flip? e = none ∧ s'.gateway.cache.alive = s.gateway.cache.alive ∨
      flip? e = some s'.gateway.cache.alive ∧
        s'.gateway.cache.alive = !s.gateway.cache.alive := by
  rcases cache_of_step h with ⟨i, st, rfl, hs'⟩ | ⟨i, rfl, hs'⟩ | ⟨hs', -, hflip⟩
  · rw [hs']
    cases hs : s.gateway.cache.alive <;> simp [flip?, Cache.ofOutcome]
  · rw [hs']
    cases hs : s.gateway.cache.alive <;> simp [flip?, Cache.ofOutcome]
  · exact .inl ⟨hflip, by rw [hs']⟩

theorem alive_of_step (h : Step R s e s') :
    s'.gateway.cache.alive ≠ s.gateway.cache.alive ↔
      flip? e = some s'.gateway.cache.alive := by
  rcases flip?_eq_or h with ⟨hnone, hsame⟩ | ⟨hsome, hflip⟩
  · simp [hnone, hsame]
  · simp [hsome, hflip]

theorem flips_alternate (hcache : s₀.gateway.cache = {}) (h : Run R s₀ es s) :
    (∀ n b, (flips es)[n]? = some b → b = (n % 2 == 0)) ∧
      s.gateway.cache.alive = ((flips es).length % 2 == 1) := by
  induction h with
  | nil =>
    rw [hcache]
    exact ⟨nofun, rfl⟩
  | @snoc es s e s' _ hstep ih =>
    -- the controller is alive exactly after an odd number of changes
    obtain ⟨halternate, halive⟩ := ih
    have hsnoc : flips (es ++ [e]) = flips es ++ (flip? e).toList := filterMap_snoc flip? es e
    rw [hsnoc]
    rcases flip?_eq_or hstep with ⟨hnone, hsame⟩ | ⟨hsome, hflip⟩
    · rw [hnone, hsame, Option.toList_none, List.append_nil]
      exact ⟨halternate, halive⟩
    · have heven : s'.gateway.cache.alive = ((flips es).length % 2 == 0) := by
        rw [hflip, halive]
        rcases Nat.mod_two_eq_zero_or_one (flips es).length with hn | hn <;> simp [hn]
      rw [hsome, Option.toList_some]
      constructor
      · intro n b hb
        rcases Nat.lt_trichotomy n (flips es).length with hn | rfl | hn
        · rw [List.getElem?_append_left hn] at hb
          exact halternate n b hb
        · rw [List.getElem?_concat_length] at hb
          rw [← Option.some.inj hb, heven]
        · rw [List.getElem?_eq_none (by rwa [List.length_append, List.length_singleton])] at hb
          cases hb
      · rw [heven, List.length_append, List.length_singleton]
        rcases Nat.mod_two_eq_zero_or_one (flips es).length with hn | hn <;>
          simp [hn, Nat.add_mod]

end

/-! ### One poll at a time -/

/-- What holds at every moment of polls: which task the end of the log belongs to, and that a task
that has entered an outcome is still there to end its poll. -/
structure Polled (s : Crowd α σ ω ε) (m : List Mark) (ph : TaskId → Phase) : Prop where
  follows : Follows Turn Ends (fun _ => .idle) s ph
  excludes : Excludes .polling (· ≠ .idle) s ph
  orderly : Orderly m
  heard : ∀ i j o, s.jobAt i = some j → ph i = .heard o → m.getLast? = some (.read i o)
  entered : ∀ i j o, s.jobAt i = some j → (ph i).entered? = some o →
    m.getLast? = some (.entered i o)
  entering : ∀ i o, m.getLast? = some (.entered i o) →
    (ph i).entered? = some o ∧ ∃ j, s.jobAt i = some j

section

variable {s s' : Crowd α σ ω ε} {m : List Mark} {ph ph' : TaskId → Phase} {i : TaskId}

theorem Polled.alone (h : Polled s m ph) {j : Job α} (hj : s.jobAt i = some j) (hi : ph i ≠ .idle)
    {i' : TaskId} {j' : Job α} (hj' : s.jobAt i' = some j') (hi' : ph i' ≠ .idle) : i' = i :=
  h.excludes.eq hj' hi' hj hi

theorem Polled.not_suspended (h : Polled s m ph) {p : Place α} (hp : s.tasks i = some p)
    {o : Option Status} (hi : (ph i).entered? = some o) (hjob : ∃ j, s.jobAt i = some j) :
    p.isSuspended = false ∧ p.isMidway = true :=
  midway_of_follows h.follows hp hjob hi

theorem Polled.not_entering_of_rests (h : Polled s m ph) (hs : s.Rests) : ¬ Entering m := by
  rintro ⟨i, o, hlast⟩
  obtain ⟨hi, j, hj⟩ := h.entering i o hlast
  cases hp : s.tasks i with
  | none =>
    rw [jobAt_of_none hp] at hj
    cases hj
  | some p =>
    have hmidway := (h.not_suspended hp hi ⟨j, hj⟩).2
    rw [hs i p hp] at hmidway
    cases hmidway

theorem Polled.next (h : Polled s m ph) {j j' : Job α} (hj : s.jobAt i = some j)
    (hput : s'.jobAt = Function.update s.jobAt i (some j')) (hi : ph i ≠ .idle) {q : Phase}
    {x : Mark} (hfollows : Follows Turn Ends (fun _ => .idle) s' (Function.update ph i q))
    (hexcludes : Excludes .polling (· ≠ .idle) s' (Function.update ph i q))
    (horderly : Orderly (m ++ [x])) (hheard : ∀ o, q = .heard o → x = .read i o)
    (hentered : ∀ o, q.entered? = some o → x = .entered i o)
    (hentering : ∀ i' o, x = .entered i' o → i' = i ∧ q.entered? = some o) :
    Polled s' (m ++ [x]) (Function.update ph i q) := by
  -- no other task is in the middle of a poll, before this step or after it
  have hself : ∀ i' j, s'.jobAt i' = some j → Function.update ph i q i' ≠ .idle → i' = i := by
    intro i' j hj' hi'
    by_contra hne
    rw [hput, Function.update_of_ne hne] at hj'
    rw [Function.update_of_ne hne] at hi'
    exact hne (h.alone hj hi hj' hi')
  have hlast : (m ++ [x]).getLast? = some x := by simp
  refine ⟨hfollows, hexcludes, horderly, ?_, ?_, ?_⟩
  · intro i' j o hj' ho
    obtain rfl := hself i' j hj' (by simp [ho])
    rw [Function.update_self] at ho
    rw [hlast, hheard o ho]
  · intro i' j o hj' ho
    obtain rfl := hself i' j hj' (ne_idle_of_entered ho)
    rw [Function.update_self] at ho
    rw [hlast, hentered o ho]
  · intro i' o hx
    rw [hlast] at hx
    obtain ⟨rfl, ho⟩ := hentering i' o (Option.some.inj hx)
    exact ⟨by rwa [Function.update_self], j', by rw [hput, Function.update_self]⟩

theorem Polled.not_entering (h : Polled s m ph) {j : Job α} (hj : s.jobAt i = some j)
    (hi : ph i = .holding) : ¬ Entering m := by
  rintro ⟨i', o, hlast⟩
  obtain ⟨hi', j', hj'⟩ := h.entering i' o hlast
  obtain rfl := h.alone hj (by simp [hi]) hj' (ne_idle_of_entered hi')
  rw [hi] at hi'
  cases hi'

theorem mark?_of_unanswered {e : Crowd.Event χ} (he : e.answered? = none) : mark? e = none := by
  cases e with
  | took | gave | looked | heard => cases he
  | _ => rfl

theorem mark?_of_other {e : Crowd.Event χ} {r : Request} {a : r.Answer}
    (he : e.answered? = some (i, ⟨r, a⟩)) (hr : r.isPolling = false) : mark? e = none := by
  cases e with
  | took => rfl
  | gave i l =>
    cases he
    cases l <;> first | rfl | cases hr
  | looked i x a =>
    cases he
    cases x <;> first | rfl | cases hr
  | heard i o c a =>
    cases he
    cases o with
    | link call => cases call <;> first | rfl | cases hr
    | _ => rfl
  | started | queued | asked | dropped | befell => cases he

variable [DecidableEq ω] {R : Rules α σ χ ω ε} {e : Crowd.Event χ}

theorem Polled.quiet (h : Polled s m ph) (hstep : Step R s e s') (he : e.answered? = none)
    (hfollows : Follows Turn Ends (fun _ => .idle) s' ph)
    (hexcludes : Excludes .polling (· ≠ .idle) s' ph) : Polled s' m ph := by
  -- a task that has just been started is idle
  have hbefore : ∀ i j, s'.jobAt i = some j → ph i ≠ .idle → s.jobAt i = some j := by
    intro i j hj hi
    rcases hstep.jobAt_before he hj with hj | ⟨hnew, -⟩
    · exact hj
    · exact absurd (h.follows.start i hnew) hi
  refine ⟨hfollows, hexcludes, h.orderly, ?_, ?_, ?_⟩
  · intro i j o hj hi
    exact h.heard i j o (hbefore i j hj (by simp [hi])) hi
  · intro i j o hj hi
    exact h.entered i j o (hbefore i j hj (ne_idle_of_entered hi)) hi
  · intro i o hlast
    obtain ⟨hi, j, hj⟩ := h.entering i o hlast
    refine ⟨hi, j, ?_⟩
    rcases hstep.jobAt_after he hj with hj | rfl
    · exact hj
    -- a task that has entered its outcome does not wait, so it cannot be dropped
    · cases hstep with
      | dropped hp hsuspended _ =>
        rw [(h.not_suspended hp hi ⟨j, hj⟩).1] at hsuspended
        cases hsuspended

theorem Polled.unmarked (h : Polled s m ph) {r : Request} {a : r.Answer} {q : Phase}
    (hstep : Step R s e s') (he : e.answered? = some (i, ⟨r, a⟩))
    (hheard : ∀ o, q = .heard o → ph i = .heard o) (hentered : q.entered? = (ph i).entered?)
    (hfollows : Follows Turn Ends (fun _ => .idle) s' (Function.update ph i q))
    (hexcludes : Excludes .polling (· ≠ .idle) s' (Function.update ph i q)) :
    Polled s' m (Function.update ph i q) := by
  obtain ⟨k, hk, hput⟩ := hstep.of_answered he
  have hjobs : ∀ i', (∃ j, s'.jobAt i' = some j) ↔ ∃ j, s.jobAt i' = some j := by
    intro i'
    rw [hput]
    by_cases hne : i' = i
    · subst hne
      simp [hk]
    · rw [Function.update_of_ne hne]
  have hsame : ∀ i', (Function.update ph i q i').entered? = (ph i').entered? := by
    intro i'
    by_cases hne : i' = i
    · subst hne
      rwa [Function.update_self]
    · rw [Function.update_of_ne hne]
  refine ⟨hfollows, hexcludes, h.orderly, ?_, ?_, ?_⟩
  · intro i' j o hj hi'
    obtain ⟨j, hj⟩ := (hjobs i').1 ⟨j, hj⟩
    refine h.heard i' j o hj ?_
    by_cases hne : i' = i
    · subst hne
      rw [Function.update_self] at hi'
      exact hheard o hi'
    · rwa [Function.update_of_ne hne] at hi'
  · intro i' j o hj hi'
    obtain ⟨j, hj⟩ := (hjobs i').1 ⟨j, hj⟩
    exact h.entered i' j o hj (hsame i' ▸ hi')
  · intro i' o hlast
    obtain ⟨hi', hjob⟩ := h.entering i' o hlast
    exact ⟨(hsame i').trans hi', (hjobs i').2 hjob⟩

theorem Polled.step (hjobs : ∀ i j, R.jobs i = some j → j.Keeps Turn Ends .idle)
    (h : Polled s m ph) (hstep : Step R s e s') :
    ∃ ph', Polled s' (m ++ (mark? e).toList) ph' := by
  obtain ⟨ph', hadv, hfollows⟩ := h.follows.step hjobs hstep
  have hexcludes := guards_polling.step (fun i hi => hi rfl) h.follows h.excludes hstep hadv
  refine ⟨ph', ?_⟩
  cases he : e.answered? with
  | none =>
    obtain rfl := hadv.unanswered he
    rw [mark?_of_unanswered he, Option.toList_none, List.append_nil]
    exact h.quiet hstep he hfollows hexcludes
  | some x =>
    obtain ⟨i, r, a⟩ := x
    obtain ⟨k, hk, hput⟩ := hstep.of_answered he
    obtain ⟨q, hq, rfl⟩ := hadv.answered he
    generalize hp : ph i = p at hq
    cases hq with
    | take =>
      have hmark : mark? e = none := by cases e <;> cases he; rfl
      rw [hmark, Option.toList_none, List.append_nil]
      exact h.unmarked hstep he (fun _ ho => by cases ho) (by rw [hp]; rfl) hfollows hexcludes
    | hear =>
      cases e <;> cases he
      refine h.next hk hput (by simp [hp]) hfollows hexcludes
        (.read i _ h.orderly (h.not_entering hk hp)) ?_ ?_ ?_
      · intro o ho
        cases ho
        rfl
      · intro o ho
        cases ho
      · intro i' o hx
        cases hx
    | store =>
      cases e <;> cases he
      obtain ⟨m, rfl⟩ := List.getLast?_eq_some_iff.1 (h.heard i _ _ hk hp)
      refine h.next hk hput (by simp [hp]) hfollows hexcludes (.entered h.orderly) ?_ ?_ ?_
      · intro o ho
        cases ho
      · intro o ho
        cases ho
        rfl
      · intro i' o hx
        cases hx
        exact ⟨rfl, rfl⟩
    | announce =>
      have hmark : mark? e = none := by cases e <;> cases he; rfl
      rw [hmark, Option.toList_none, List.append_nil]
      exact h.unmarked hstep he (fun _ ho => by cases ho) (by rw [hp]; rfl) hfollows hexcludes
    | markDown =>
      cases e <;> cases he
      obtain ⟨m, rfl⟩ := List.getLast?_eq_some_iff.1 (h.heard i _ _ hk hp)
      refine h.next hk hput (by simp [hp]) hfollows hexcludes (.entered h.orderly) ?_ ?_ ?_
      · intro o ho
        cases ho
      · intro o ho
        cases ho
        rfl
      · intro i' o hx
        cases hx
        exact ⟨rfl, rfl⟩
    | give =>
      cases e <;> cases he
      obtain ⟨m, rfl⟩ := List.getLast?_eq_some_iff.1 (h.entered i _ _ hk (by rw [hp]; rfl))
      refine h.next hk hput (by simp [hp]) hfollows hexcludes (.ended h.orderly) ?_ ?_ ?_
      · intro o ho
        cases ho
      · intro o ho
        cases ho
      · intro i' o hx
        cases hx
    | other hr hph =>
      rw [mark?_of_other he hr, Option.toList_none, List.append_nil]
      exact h.unmarked hstep he (fun o ho => hp.trans ho) (by rw [hp]) hfollows hexcludes

theorem polled_of_run {s₀ : Crowd α σ ω ε} {es : List (Crowd.Event χ)}
    (hjobs : ∀ i j, R.jobs i = some j → j.Keeps Turn Ends .idle) (hs₀ : s₀.Fresh)
    (h : Run R s₀ es s) : ∃ ph, Polled s (log es) ph := by
  induction h with
  | nil =>
    refine ⟨fun _ => .idle, hs₀.follows, hs₀.excludes, .nil, ?_, ?_, ?_⟩
    · intro i j o hj
      simp [hs₀.jobAt] at hj
    · intro i j o hj
      simp [hs₀.jobAt] at hj
    · intro i o hlast
      cases hlast
  | @snoc es s e s' _ hstep ih =>
    obtain ⟨ph, ih⟩ := ih
    have hsnoc : log (es ++ [e]) = log es ++ (mark? e).toList := filterMap_snoc mark? es e
    rw [hsnoc]
    exact ih.step hjobs hstep

omit [DecidableEq ω] in
theorem Polled.eq_of_reading (h : Polled s m ph) {i' : TaskId} {k k'}
    (hi : s.tasks i = some (.away (.link .pollStatus) k))
    (hi' : s.tasks i' = some (.away (.link .pollStatus) k')) : i' = i := by
  have hholding : ∀ {i k}, s.tasks i = some (.away (.link .pollStatus) k) → ph i ≠ .idle := by
    intro i k hi hidle
    rw [holding_of_follows h.follows hi] at hidle
    cases hidle
  exact h.alone (jobAt_of_task hi) (hholding hi) (jobAt_of_task hi') (hholding hi')

end

section

variable [DecidableEq ω] {R : Rules Unit σ χ ω ε} {s₀ s : Crowd Unit σ ω ε}
  {es : List (Crowd.Event χ)}

/-- However the tasks of the gateway come on, and wherever some of them are dropped: one poll at a
time reads the controller, polls enter their outcomes in the order in which they have read them, and
the cache is that of the outcome entered last, which is a poll's own from its end to the end of the
next one that is not dropped. Entries tell whether the controller came up or went down. -/
theorem polls_in_order (hjobs : ∀ i j, R.jobs i = some j → ∃ e : Errand, j = e.job)
    (hs₀ : s₀.Fresh) (hcache : s₀.gateway.cache = {}) (h : Run R s₀ es s) :
    (∀ i i' k k', s.tasks i = some (.away (.link .pollStatus) k) →
      s.tasks i' = some (.away (.link .pollStatus) k') → i' = i) ∧
    (Orderly (log es) ∧ (entries (log es)).Sublist (readings (log es))) ∧
    (s.gateway.cache = .ofOutcome (latest (log es)) ∧
      s.gateway.cache.alive = s.gateway.cache.latest.isSome ∧
      s.gateway.cache.snapshot = latest (log es)) ∧
    (s.Rests → ¬ Entering (log es)) ∧
    (¬ Entering (log es) → ∀ m i m', log es = m ++ .ended i :: m' → (∀ i', .ended i' ∉ m') →
      ∃ o, [.read i o, .entered i o] <:+ m ∧ s.gateway.cache = .ofOutcome o) ∧
    (∀ n b, (flips es)[n]? = some b → b = (n % 2 == 0)) ∧
    ∀ e s', Step R s e s' → (s'.gateway.cache.alive ≠ s.gateway.cache.alive ↔
      flip? e = some s'.gateway.cache.alive) := by
  have hkeeps : ∀ i j, R.jobs i = some j → j.Keeps Turn Ends .idle := by
    intro i j hj
    obtain ⟨e, rfl⟩ := hjobs i j hj
    exact keeps_errand e
  obtain ⟨ph, hpolled⟩ := polled_of_run hkeeps hs₀ h
  have hlatest := cache_eq_latest hcache h
  have horderly := hpolled.orderly
  refine ⟨fun i i' k k' => hpolled.eq_of_reading, ⟨horderly, horderly.entries_sublist⟩,
    ⟨hlatest, ?_, ?_⟩, hpolled.not_entering_of_rests, ?_, (flips_alternate hcache h).1,
    fun e s' => alive_of_step⟩
  · rw [hlatest]
    rfl
  · rw [hlatest]
    exact Cache.snapshot_ofOutcome _
  · intro hsettled m i m' hlog hm'
    rw [hlog] at horderly hsettled hlatest
    obtain ⟨o, hsuffix, ho⟩ := horderly.latest_eq hm' hsettled
    exact ⟨o, hsuffix, by rw [hlatest, ho]⟩

end

def statusOnly : Rules Unit Unit (Except Link.Error Status) Empty Unit where
  jobs _ := some Errand.pollStatus.job
  mayDrop _ := true
  observers := .nobody
  answer
    | .link .pollStatus, a, w => some (a, w)
    | _, _, _ => none
  befall _ _ := none

/-- The first poll succeeds, the second is dropped while it waits for the controller, and the third
fails. -/
theorem polls_in_order_up_and_down :
    ∃ es s, Run statusOnly { gateway := { left := () }, world := () } es s ∧
      flips es = [true, false] ∧ Orderly (log es) ∧
      s.gateway.cache.snapshot = latest (log es) := by
  have hflips : (play? statusOnly
      ([.start 0, .start 1, .start 2] ++ List.replicate 8 (.go 0 (.ok default)) ++
        List.replicate 2 (.go 1 (.ok default)) ++ [.drop 1] ++
        List.replicate 7 (.go 2 (.error .channelClosed)))
      ([], { gateway := { left := () }, world := () })).map (fun x => flips x.1) =
        some [true, false] := by decide +kernel
  obtain ⟨⟨es, s⟩, hplay, hflips⟩ := Option.map_eq_some_iff.1 hflips
  have hrun := run_of_play? .nil hplay
  have hjobs : ∀ i j, statusOnly.jobs i = some j → ∃ e : Errand, j = e.job := by
    intro i j hj
    exact ⟨.pollStatus, (Option.some.inj hj).symm⟩
  obtain ⟨-, ⟨horderly, -⟩, ⟨-, -, hsnapshot⟩, -⟩ := polls_in_order hjobs ⟨rfl, rfl⟩ rfl hrun
  exact ⟨es, s, hrun, hflips, horderly, hsnapshot⟩

end Poll

end MillGateway
