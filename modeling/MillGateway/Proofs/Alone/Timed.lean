import MillGateway.Proofs.Alone.Basic
import MillGateway.Proofs.Job.Timed

/-! The clock of the world. Main statement: whatever a job alone comes to, it comes to with a link
that takes as long for its calls as the world does. -/

namespace MillGateway

namespace Link.Behaviour

variable {made cs : List Call} {c : Call}

/-- A link that behaves differently after more calls than these. -/
def before (L : Link.Behaviour) (made : List Call) (later : Link.Behaviour) : Link.Behaviour :=
  fun cs => if cs.length ≤ made.length then L cs else later cs

theorem before_self (L later : Link.Behaviour) : L.before made later made = L made :=
  if_pos (Nat.le_refl _)

theorem before_of_prefix (L later : Link.Behaviour) (h : made ++ [c] <+: cs) :
    L.before made later cs = later cs := by
  have hlength := h.length_le
  rw [List.length_append] at hlength
  exact if_neg (Nat.not_le_of_lt hlength)

end Link.Behaviour

namespace Schedule.World

open Link

theorem now_ask (o : Outside) (w : World) : (w.ask o).2.now = w.now := by
  cases o <;> rfl

theorem now_edit (w : World) (r : Except FileError FileTree) : (w.edit r).2.now = w.now := by
  cases r <;> rfl

theorem now_resume (o : Outside) (d : Delay) (w : World) : (w.resume o d).2.now = w.now := by
  cases o with
  | link c =>
    rw [resume]
    split
    · rfl
    · exact now_ask _ w
  | waitWithin h limit =>
    rw [resume]
    split <;> rfl
  | writeText p s => exact now_edit w _
  | appendText p s => exact now_edit w _
  | _ => rfl

theorem le_now_of_await {o : Outside} {n : Nat} {x : (o.Answer ⊕ Delay) × World} {a : o.Answer}
    {w : World} (h : await o n x = some (a, w)) : x.2.now ≤ w.now := by
  induction n generalizing x with
  | zero =>
    obtain ⟨b | d, v⟩ := x
    · cases h
      exact Nat.le_refl _
    · cases h
  | succ n ih =>
    obtain ⟨b | d, v⟩ := x
    · cases h
      exact Nat.le_refl _
    · have hle := ih h
      rw [now_resume] at hle
      exact Nat.le_trans (Nat.le_max_left _ _) hle

theorem await_answer (o : Outside) (w : World) :
    await o 2 (w.ask o) = some ((w.answer o).1, (w.answer o).2) :=
  (Option.some_get _).symm

theorem le_now_answer (o : Outside) (w : World) : w.now ≤ (w.answer o).2.now := by
  have hle := le_now_of_await (await_answer o w)
  rwa [now_ask] at hle

theorem await_inl (o : Outside) (n : Nat) (a : o.Answer) (w : World) :
    await o n (.inl a, w) = some (a, w) := by
  cases n <;> rfl

theorem await_within {h : Handle} {limit giveUp n : Nat} {p : Gate.Progress (.wait h limit)}
    {u v w : World} {a : Except Error Completion} (hu : u.now = v.now) (hnow : v.now ≤ giveUp)
    (hawait : await (.link (.wait h limit)) n (u.progress p, v) = some (a, w)) :
    ∃ x? w', await (.waitWithin h limit) n (u.within giveUp p, v) = some (x?, w') ∧
      (x? = some a ∧ w'.now = w.now ∧ w.now ≤ giveUp ∨
        x? = none ∧ w'.now = giveUp ∧ giveUp ≤ w.now) := by
  induction n generalizing p u v with
  | zero =>
    cases p with
    | inl b =>
      cases hawait
      exact ⟨some a, _, rfl, .inl ⟨rfl, rfl, hnow⟩⟩
    | inr x => cases hawait
  | succ n ih =>
    cases p with
    | inl b =>
      cases hawait
      exact ⟨some a, _, rfl, .inl ⟨rfl, rfl, hnow⟩⟩
    | inr x =>
      obtain ⟨ms, stage⟩ := x
      have hdue := le_now_of_await (n := n) hawait
      rw [now_resume] at hdue
      have hw : u.now + ms ≤ w.now := Nat.le_trans (Nat.le_max_right _ _) hdue
      rw [within]
      split
      next hle =>
        have hnow' : max v.now (u.now + ms) ≤ giveUp := Nat.max_le.2 ⟨hnow, hle⟩
        exact ih (u := { v with now := max v.now (u.now + ms) }) rfl hnow' hawait
      next hlate =>
        split
        next hover =>
          have heq : v.now = giveUp := Nat.le_antisymm hnow (hu ▸ hover)
          exact ⟨none, v, rfl, .inr ⟨rfl, heq, by omega⟩⟩
        next =>
          refine ⟨none, _, await_inl _ n _ _, .inr ⟨rfl, Nat.max_eq_right hnow, by omega⟩⟩

/-- The link as the world has it now: calls take as long as they would take first. -/
def behaviour (w : World) : Link.Behaviour := fun _ c =>
  some ((w.answer (.link c)).2.now - w.now, (w.answer (.link c)).1)

theorem fits_answer (made : List Call) (o : Outside) (w : World) :
    w.behaviour.Fits made w.now (.outside o) (w.answer o).1 (w.answer o).2.now := by
  have htime (c : Call) : (w.answer (.link c)).2.now =
      w.now + ((w.answer (.link c)).2.now - w.now) :=
    (Nat.add_sub_cancel' (le_now_answer (.link c) w)).symm
  cases o with
  | link c => exact ⟨_, rfl, htime c⟩
  | waitWithin h limit =>
    obtain ⟨x?, w', hawait, hcases⟩ := await_within (n := 2) (u := w)
      (v := { w with gate := (w.gate.enter (.wait h limit)).2 })
      (p := (w.gate.enter (.wait h limit)).1) rfl (Nat.le_add_right w.now limit)
      (await_answer (.link (.wait h limit)) w)
    rw [answer_eq hawait]
    rcases hcases with ⟨rfl, hnow, hle⟩ | ⟨rfl, hnow, hle⟩
    · exact ⟨_, Nat.sub_le_iff_le_add'.2 hle, rfl, hnow.trans (htime _)⟩
    · refine ⟨fun d x hd => ?_, hnow⟩
      cases hd
      exact Nat.le_sub_of_add_le' hle
  | sleep ms =>
    show w.now + ms ≤ _
    by_cases hms : ms = 0
    · have hanswer : w.answer (.sleep ms) = ((), w) := answer_eq (by rw [ask, if_pos hms]; rfl)
      rw [hanswer, hms]
      exact Nat.le_refl _
    · have hanswer : w.answer (.sleep ms) = ((), { w with now := max w.now (w.now + ms) }) :=
        answer_eq (by rw [ask, if_neg hms]; rfl)
      rw [hanswer]
      exact Nat.le_max_right _ _
  | clock =>
    have hanswer : w.answer .clock = (w.now, w) := answer_eq rfl
    rw [hanswer]
    exact ⟨rfl, rfl⟩
  | localTime =>
    have hanswer : w.answer .localTime = (Calendar.text (w.now / 1000), w) := answer_eq rfl
    rw [hanswer]
    exact rfl
  | readText | writeText | appendText => exact le_now_answer _ w

end Schedule.World

section

variable [DecidableEq ω] (observers : Observers ω ε)

theorem Scene.fits_answer (made : List Link.Call) (r : Request) (s : Scene ω ε) :
    s.world.behaviour.Fits made s.world.now r (s.answer observers r).1
      (s.answer observers r).2.world.now := by
  cases r with
  | acquire => exact Nat.le_refl _
  | release | inside => exact rfl
  | outside o => exact s.world.fits_answer made o

/-- A job alone is one of the runs with some link: each call goes as it does in the world then. -/
theorem Job.exists_runs_alone (j : Job α) (s : Scene ω ε) (made : List Link.Call) :
    ∃ L xs, Runs L made s.world.now j xs (j.alone observers s).2.world.now
      (.done (j.alone observers s).1) := by
  induction j generalizing s made with
  | done a => exact ⟨s.world.behaviour, [], .refl _ _ _⟩
  | ask r k ih =>
    obtain ⟨L, xs, hrest⟩ := ih (s.answer observers r).1 (s.answer observers r).2
      (made ++ r.call?.toList)
    have hfits := s.fits_answer observers made r
    cases hr : r.call? with
    | none =>
      have hfits' : L.Fits made s.world.now r _ _ := hfits.congr fun c hc =>
        absurd (hc.symm.trans hr) (Option.some_ne_none c)
      exact ⟨L, _, .cons hfits' hrest⟩
    | some c =>
      have hlater : Runs (s.world.behaviour.before made L) (made ++ r.call?.toList)
          (s.answer observers r).2.world.now (k (s.answer observers r).1) xs _ _ :=
        hrest.congr fun cs hcs => s.world.behaviour.before_of_prefix L (hr ▸ hcs)
      exact ⟨_, _, .cons (hfits.congr fun c' _ => by rw [Link.Behaviour.before_self]) hlater⟩

end

end MillGateway
