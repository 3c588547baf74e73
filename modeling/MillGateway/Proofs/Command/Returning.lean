import MillGateway.Proofs.Command.Parts
import MillGateway.Proofs.Crowd.Protocol

/-! Jobs that leave a task where it rests, by whatever protocol. Main statement: commands do so if the
parts do of which they are made. -/

namespace MillGateway

/-- Whether a task at rest may make such requests, and is at rest again when it is answered. -/
def Protocol.Spares (N : Protocol φ) (rest : φ → Prop) (P : Request → Prop) : Prop :=
  ∀ ph r a, rest ph → P r → ∃ ph', N ph r a ph' ∧ rest ph'

def Request.isReport : Request → Bool
  | .inside .nextEventId | .outside .localTime | .inside (.announceEvent _) => true
  | _ => false

namespace Job

def Returns (N : Protocol φ) (rest : φ → Prop) (j : Job α) : Prop :=
  ∀ ph, rest ph → j.Keeps N (fun ph' _ => rest ph') ph

section

variable {N : Protocol φ} {rest : φ → Prop} {j : Job α}

theorem Keeps.returns {p : φ} (h : j.Keeps N (fun q _ => q = p) p) : j.Returns N (· = p) := by
  rintro _ rfl
  exact h

theorem returns_pure (a : α) : (Pure.pure a : Job α).Returns N rest :=
  fun _ h => h

theorem Returns.bind {k : α → Job β} (hj : j.Returns N rest) (hk : ∀ a, (k a).Returns N rest) :
    (j.bind k).Returns N rest :=
  fun ph h => (hj ph h).bind fun ph' a h' => hk a ph' h'

theorem Returns.map {f : α → β} (hj : j.Returns N rest) : (f <$> j).Returns N rest :=
  hj.bind fun a => returns_pure (f a)

end

end Job

open Job

section

variable {N : Protocol φ} {rest : φ → Prop} {P Q : Request → Prop}

theorem Protocol.Spares.mono (hN : N.Spares rest P) (h : ∀ r, Q r → P r) : N.Spares rest Q :=
  fun ph r a hph hr => hN ph r a hph (h r hr)

theorem Protocol.Spares.returns {j : Job α} (hN : N.Spares rest P) (hj : j.Asks P) :
    j.Returns N rest := by
  induction j with
  | done a => exact returns_pure a
  | ask r k ih =>
    intro ph h a
    obtain ⟨ph', hturn, h'⟩ := hN ph r a h hj.1
    exact ⟨ph', hturn, ih a (hj.2 a) ph' h'⟩

end

namespace Job

section

variable {N : Protocol φ} {rest : φ → Prop} {A : Link.Call → Prop} {j : Job α}

theorem returns_execute (halive : isAlive.Returns N rest) {a : Link.Action}
    (hN : N.Spares rest fun r =>
      r = .outside (.link (.issue a)) ∨ ∃ o, o.isPlain = true ∧ r = .outside o) (limit : Nat) :
    (execute a limit).Returns N rest := by
  obtain ⟨k, hk, hasks⟩ := exists_execute a limit
  rw [hk]
  exact halive.bind fun alive => hN.returns (hasks alive)

theorem returns_pollErrors (halive : isAlive.Returns N rest) (htake : takeMessage.Returns N rest)
    (hreport : N.Spares rest fun r => r.isReport = true) : pollErrors.Returns N rest := by
  refine halive.bind fun alive => ?_
  cases alive with
  | false => exact returns_pure _
  | true =>
    refine htake.bind fun m? => ?_
    cases m? with
    | none => exact returns_pure _
    | some m =>
      exact hreport.returns ⟨rfl, fun _ => ⟨rfl, fun _ => ⟨rfl, fun _ => trivial⟩⟩⟩

/-- Whether the parts of commands that change the controller by such calls only leave a task at
rest. -/
structure PartsReturn (N : Protocol φ) (rest : φ → Prop) (A : Link.Call → Prop) : Prop where
  poll : pollStatus.Returns N rest
  alive : isAlive.Returns N rest
  snapshot : snapshot.Returns N rest
  reset : resetChannel.Returns N rest
  execute : ∀ {a}, A (.issue a) → ∀ limit, (execute a limit).Returns N rest
  switch : ∀ {c : Link.Call}, c.isSwitch = true → A c → (link c).Returns N rest
  plain : ∀ {o : Outside}, o.isPlain = true → (outside o).Returns N rest
  edit : ∀ {α : Type} {j : Job α}, (j.Asks fun r => r.isFile = true) →
    (locked .editing j).Returns N rest

theorem PartsReturn.returns (h : PartsReturn N rest A) (hj : j.Composed A) : j.Returns N rest := by
  induction hj with
  | pure a => exact returns_pure a
  | bind _ _ ihj ihk => exact ihj.bind ihk
  | poll => exact h.poll
  | alive => exact h.alive
  | snapshot => exact h.snapshot
  | reset => exact h.reset
  | execute ha limit => exact h.execute ha limit
  | switch hc ha => exact h.switch hc ha
  | plain ho => exact h.plain ho
  | edit hj => exact h.edit hj

theorem partsReturn_of_ordinary (hordinary : N.Spares rest fun r => r.isOrdinary = true)
    (hpoll : pollStatus.Returns N rest)
    (hexecute : ∀ {a}, A (.issue a) → ∀ limit, (execute a limit).Returns N rest)
    (hswitch : N.Spares rest fun r => ∃ c : Link.Call, c.isSwitch = true ∧ A c ∧
      r = .outside (.link c)) : PartsReturn N rest A where
  poll := hpoll
  alive := hordinary.returns asks_isAlive
  snapshot := hordinary.returns asks_snapshot
  reset := hordinary.returns (asks_resetChannel.mono fun _ => Request.isOrdinary_of_isChannel)
  execute := hexecute
  switch hc ha := hswitch.returns ⟨⟨_, hc, ha, rfl⟩, fun _ => trivial⟩
  plain ho := hordinary.returns ⟨Request.isOrdinary_of_isPlain ho, fun _ => trivial⟩
  edit hj := hordinary.returns (Asks.locked rfl rfl (hj.mono fun _ => Request.isOrdinary_of_isFile))

theorem PartsReturn.handleCommand (h : PartsReturn N rest fun _ => True) (s : Setup) (name : String)
    (args : Json) : (handleCommand s name args).Returns N rest :=
  h.returns ((composed_handleCommand s name args).mono fun _ _ => trivial)

end

end Job

end MillGateway
