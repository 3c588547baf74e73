import MillGateway.Schedule

/-! Jobs alone with the gateway and the world, one after another. Nobody else holds a lock, and every
wait takes its time, so each job comes to its end. -/

namespace MillGateway

open Schedule

structure Scene (ω ε : Type) where
  gateway : Gateway ω ε
  world : World

def Link.Gate.Stage.rank : Link.Gate.Stage → Nat
  | .held _ => 2
  | .settling _ => 1

def Schedule.Next.rank (o : Outside) : Next → Nat
  | .stage s => s.rank
  | _ => match o with
    | .link _ => 3
    | _ => 1

namespace Link.Gate

variable {g : Gate} {c : Call}

theorem perform_cases (g : Gate) (c : Call) :
    (∃ a, (g.perform c).1 = .inl a) ∨
      (∃ h limit, c = .wait h limit) ∧
        ∃ ms reached, (g.perform c).1 = .inr (ms, .settling reached) := by
  cases c with
  | pollStatus | pollChannel | issue | launch | shutdown => exact .inl ⟨_, rfl⟩
  | openChannel =>
    unfold perform
    generalize g.machine.answer (g.opened + 1) .openChannel = x
    obtain ⟨a, m⟩ := x
    cases a <;> exact .inl ⟨_, rfl⟩
  | wait h limit =>
    unfold perform
    generalize g.machine.answer (g.opened + 1) (.wait h limit) = x
    obtain ⟨a, m⟩ := x
    cases a with
    | error e => exact .inl ⟨_, rfl⟩
    | ok reached =>
      dsimp only
      split
      · exact .inl ⟨_, rfl⟩
      · exact .inr ⟨⟨h, limit, rfl⟩, _, _, rfl⟩

theorem settling_of_perform {ms : Nat} {stage : Stage} (h : (g.perform c).1 = .inr (ms, stage)) :
    ∃ reached, stage = .settling reached := by
  rcases g.perform_cases c with ⟨a, ha⟩ | ⟨-, ms', reached, hinr⟩
  · rw [ha] at h
    cases h
  · rw [hinr] at h
    cases h
    exact ⟨reached, rfl⟩

theorem settling_of_pass {fail? : Option String} {ms : Nat} {stage : Stage}
    (h : (g.pass c fail?).1 = .inr (ms, stage)) : ∃ reached, stage = .settling reached := by
  cases fail? with
  | none => exact settling_of_perform h
  | some text => cases h

theorem settling_of_resume {ms : Nat} {stage stage' : Stage}
    (h : (g.resume c stage).1 = .inr (ms, stage')) :
    (∃ fail?, stage = .held fail?) ∧ ∃ reached, stage' = .settling reached := by
  cases stage with
  | held fail? => exact ⟨⟨fail?, rfl⟩, settling_of_pass h⟩
  | settling reached =>
    cases c with
    | wait => cases h
    | _ =>
      have hperform : (g.perform _).1 = .inr (ms, stage') := h
      rcases g.perform_cases _ with ⟨a, ha⟩ | ⟨⟨_, _, hwait⟩, -⟩
      · rw [ha] at hperform
        cases hperform
      · cases hwait

end Link.Gate

namespace Schedule.World

open Link

theorem progress_eq_inr {w : World} {c : Call} {p : Gate.Progress c} {d : Delay}
    (h : w.progress p = .inr d) : ∃ ms stage, p = .inr (ms, stage) ∧ d.next = .stage stage := by
  cases p with
  | inl a => cases h
  | inr x =>
    cases h
    exact ⟨_, _, rfl, rfl⟩

theorem within_eq_inr {w : World} {giveUp : Nat} {h : Handle} {limit : Nat}
    {p : Gate.Progress (.wait h limit)} {d : Delay} (hw : w.within giveUp p = .inr d) :
    ∃ ms stage, p = .inr (ms, stage) ∧ (d.next = .stage stage ∨ d.next = .expired) := by
  cases p with
  | inl a => cases hw
  | inr x =>
    rw [within] at hw
    split at hw
    · cases hw
      exact ⟨_, _, rfl, .inl rfl⟩
    · split at hw
      · cases hw
      · cases hw
        exact ⟨_, _, rfl, .inr rfl⟩

theorem rank_le (s : Gate.Stage) : s.rank ≤ 2 := by
  cases s with
  | held => exact Nat.le_refl 2
  | settling => exact Nat.le_succ 1

theorem rank_pos (o : Outside) (n : Next) : 0 < n.rank o := by
  cases n with
  | stage s => cases s <;> exact Nat.succ_pos _
  | _ => cases o <;> exact Nat.succ_pos _

theorem rank_le_of_ask {o : Outside} {w : World} {d : Delay} (h : (w.ask o).1 = .inr d) :
    d.next.rank o ≤ 2 := by
  cases o with
  | link c =>
    obtain ⟨_, stage, -, hd⟩ := progress_eq_inr h
    rw [hd]
    exact rank_le stage
  | waitWithin h' limit =>
    obtain ⟨_, stage, -, hd | hd⟩ := within_eq_inr h
    · rw [hd]
      exact rank_le stage
    · rw [hd]
      exact Nat.le_succ 1
  | sleep ms =>
    rw [ask] at h
    dsimp only at h
    split at h
    · cases h
    · cases h
      exact Nat.le_succ 1
  | clock | localTime => cases h
  | readText | writeText | appendText =>
    cases h
    exact Nat.le_succ 1

theorem rank_lt_of_resume {o : Outside} {w : World} {d d' : Delay}
    (h : (w.resume o d).1 = .inr d') : d'.next.rank o < d.next.rank o := by
  cases o with
  | link c =>
    rw [resume] at h
    split at h
    next stage hstage =>
      obtain ⟨_, _, hp, hd⟩ := progress_eq_inr h
      obtain ⟨⟨_, rfl⟩, _, rfl⟩ := Gate.settling_of_resume hp
      rw [hd, hstage]
      exact Nat.lt_succ_self 1
    next hnext =>
      have hlast : d.next.rank (.link c) = 3 := by
        cases hd : d.next with
        | stage s => exact absurd hd (hnext s)
        | _ => rfl
      rw [hlast]
      exact Nat.lt_succ_of_le (rank_le_of_ask h)
  | waitWithin h' limit =>
    rw [resume] at h
    split at h
    next stage hstage =>
      obtain ⟨_, _, hp, hd⟩ := within_eq_inr h
      obtain ⟨⟨_, rfl⟩, _, rfl⟩ := Gate.settling_of_resume hp
      rw [hstage]
      rcases hd with hd | hd
      · rw [hd]
        exact Nat.lt_succ_self 1
      · rw [hd]
        exact Nat.lt_succ_self 1
    next => cases h
  | sleep | clock | localTime | readText | writeText | appendText => cases h

/-- The answer to a question that is put off at most so often: time moves on to the end of every
wait. -/
def await (o : Outside) : Nat → (o.Answer ⊕ Delay) × World → Option (o.Answer × World)
  | _, (.inl a, w) => some (a, w)
  | 0, (.inr _, _) => none
  | n + 1, (.inr d, w) => await o n (World.resume o d { w with now := max w.now d.due })

theorem isSome_await {o : Outside} {n : Nat} {x : (o.Answer ⊕ Delay) × World}
    (h : ∀ d, x.1 = .inr d → d.next.rank o ≤ n) : (await o n x).isSome = true := by
  induction n generalizing x with
  | zero =>
    obtain ⟨a | d, w⟩ := x
    · rfl
    · exact absurd (h d rfl) (Nat.not_le_of_lt (rank_pos o d.next))
  | succ n ih =>
    obtain ⟨a | d, w⟩ := x
    · rfl
    · exact ih fun d' hd' => Nat.le_of_lt_succ (Nat.lt_of_lt_of_le (rank_lt_of_resume hd') (h d rfl))

def answer (o : Outside) (w : World) : o.Answer × World :=
  (await o 2 (w.ask o)).get (isSome_await fun _ => rank_le_of_ask)

theorem answer_eq {o : Outside} {w w' : World} {a : o.Answer}
    (h : await o 2 (w.ask o) = some (a, w')) : answer o w = (a, w') := by
  simp only [answer, h, Option.get_some]

theorem answer_readText (p : Path) (w : World) :
    w.answer (.readText p) = (w.files.read p, w) := by
  apply answer_eq
  show some (w.files.read p, { w with now := max w.now w.now }) = _
  rw [Nat.max_self]

theorem answer_writeText (p : Path) (s : String) (w : World) :
    w.answer (.writeText p s) = w.edit (w.files.write p s) := by
  apply answer_eq
  show some (World.edit { w with now := max w.now w.now } (w.files.write p s)) = _
  rw [Nat.max_self]
  rfl

theorem answer_appendText (p : Path) (s : String) (w : World) :
    w.answer (.appendText p s) = w.edit (w.files.append p s) := by
  apply answer_eq
  show some (World.edit { w with now := max w.now w.now } (w.files.append p s)) = _
  rw [Nat.max_self]
  rfl

end Schedule.World

namespace Scene

variable [DecidableEq ω]

def machine (s : Scene ω ε) : Link.Simulator :=
  s.world.gate.machine

def files (s : Scene ω ε) : FileTree :=
  s.world.files

def withFiles (s : Scene ω ε) (t : FileTree) : Scene ω ε :=
  { s with world := { s.world with files := t } }

def answer (observers : Observers ω ε) (s : Scene ω ε) : (r : Request) → r.Answer × Scene ω ε
  | .acquire _ => ((), s)
  | .release _ => ((), s)
  | .inside i =>
    let (a, gateway) := s.gateway.answer observers i
    (a, { s with gateway := gateway })
  | .outside o =>
    let (a, world) := s.world.answer o
    (a, { s with world := world })

end Scene

namespace Job

variable [DecidableEq ω] (observers : Observers ω ε)

/-- What a job alone comes to, and what it leaves behind. -/
def alone (j : Job α) : StateM (Scene ω ε) α :=
  j.run fun r s => s.answer observers r

variable (s : Scene ω ε)

theorem alone_ask (r : Request) (k : r.Answer → Job α) :
    (ask r k).alone observers s =
      (k (s.answer observers r).1).alone observers (s.answer observers r).2 :=
  rfl

theorem alone_bind (j : Job α) (f : α → Job β) :
    (j.bind f).alone observers s =
      (f (j.alone observers s).1).alone observers (j.alone observers s).2 := by
  induction j generalizing s with
  | done a => rfl
  | ask r k ih => exact ih _ _

theorem alone_bind_of {j : Job α} {s s' : Scene ω ε} {a : α} (h : j.alone observers s = (a, s'))
    (f : α → Job β) : (j.bind f).alone observers s = (f a).alone observers s' := by
  rw [alone_bind, h]

theorem alone_discard (j : Job α) :
    (discard j : Job Unit).alone observers s = ((), (j.alone observers s).2) := by
  show (j.bind fun _ => done ()).alone observers s = _
  rw [alone_bind]
  rfl

theorem alone_locked (l : Lock) (j : Job α) :
    (locked l j).alone observers s = j.alone observers s := by
  show (j.bind fun a => ask (.release l) fun _ => done a).alone observers s = _
  rw [alone_bind]
  rfl

theorem alone_readText (p : Path) (k : Except FileError String → Job α) :
    (ask (.outside (.readText p)) k).alone observers s =
      (k (s.files.read p)).alone observers s := by
  rw [alone_ask, Scene.answer, World.answer_readText]
  rfl

theorem alone_writeText (p : Path) (text : String) (k : Except FileError Unit → Job α) :
    (ask (.outside (.writeText p text)) k).alone observers s =
      match s.files.write p text with
      | .ok t => (k (.ok ())).alone observers (s.withFiles t)
      | .error e => (k (.error e)).alone observers s := by
  rw [alone_ask, Scene.answer, World.answer_writeText]
  show (k (s.world.edit (s.files.write p text)).1).alone observers
    { s with world := (s.world.edit (s.files.write p text)).2 } = _
  cases s.files.write p text <;> rfl

theorem alone_appendText (p : Path) (text : String) (k : Except FileError Unit → Job α) :
    (ask (.outside (.appendText p text)) k).alone observers s =
      match s.files.append p text with
      | .ok t => (k (.ok ())).alone observers (s.withFiles t)
      | .error e => (k (.error e)).alone observers s := by
  rw [alone_ask, Scene.answer, World.answer_appendText]
  show (k (s.world.edit (s.files.append p text)).1).alone observers
    { s with world := (s.world.edit (s.files.append p text)).2 } = _
  cases s.files.append p text <;> rfl

end Job

def indifferent : Observers Nat Unit where
  onStatus _ _ left := .finish true left
  onEvent _ _ left := .finish true left

end MillGateway
