import MillGateway.Proofs.Crowd.Advance
import MillGateway.Proofs.Message.Protocol

/-! The messages of the simulated machine. Whatever is asked of it through its gate, a message leaves its
queue only as an answer, and from the front. -/

namespace MillGateway

open Crowd Telling Link

def drawn (o : Outside) (a : o.Answer) : List Message :=
  ((note? (.outside o) a).bind Note.message?).toList

namespace Link

namespace Simulator

theorem messages_pollChannel (m : Simulator) (ch : ChannelId) :
    drawn (.link (.pollChannel ch)) m.pollChannel.1 ++ m.pollChannel.2.messages = m.messages := by
  unfold pollChannel
  split
  · rfl
  · split
    next hm => rw [hm]; rfl
    next hm => rw [hm]; rfl

theorem messages_issue (m : Simulator) (a : Action) : (m.issue a).2.messages = m.messages := by
  unfold issue
  split <;> rfl

theorem messages_collect (m : Simulator) (h : Handle) : (m.collect h).2.messages = m.messages := by
  unfold collect
  split
  · rfl
  · dsimp only
    split <;> rfl

theorem messages_launch (m : Simulator) : m.launch.2.messages = m.messages := by
  unfold launch
  split <;> rfl

theorem messages_answer (m : Simulator) (next : ChannelId) (c : Call) :
    drawn (.link c) (m.answer next c).1 ++ (m.answer next c).2.messages = m.messages := by
  cases c with
  | pollStatus | openChannel | shutdown => rfl
  | pollChannel ch => exact m.messages_pollChannel ch
  | issue a => exact m.messages_issue a
  | wait h limit => exact m.messages_collect h
  | launch => exact m.messages_launch

end Simulator

namespace Gate

def Progress.drawn {c : Call} : Progress c → List Message
  | .inl a => MillGateway.drawn (.link c) a
  | .inr _ => []

theorem messages_perform (g : Gate) (c : Call) :
    (g.perform c).1.drawn ++ (g.perform c).2.machine.messages = g.machine.messages := by
  have hanswer := g.machine.messages_answer (g.opened + 1) c
  cases c with
  | pollStatus | pollChannel | issue | launch | shutdown => exact hanswer
  | openChannel =>
    unfold perform
    generalize g.machine.answer (g.opened + 1) .openChannel = x at hanswer
    obtain ⟨a, m⟩ := x
    cases a <;> exact hanswer
  | wait h limit =>
    unfold perform
    generalize g.machine.answer (g.opened + 1) (.wait h limit) = x at hanswer
    obtain ⟨a, m⟩ := x
    cases a with
    | error e => exact hanswer
    | ok reached =>
      dsimp only
      split <;> exact hanswer

theorem messages_pass (g : Gate) (c : Call) (fail? : Option String) :
    (g.pass c fail?).1.drawn ++ (g.pass c fail?).2.machine.messages = g.machine.messages := by
  cases fail? with
  | none => exact g.messages_perform c
  | some text => cases c <;> rfl

theorem messages_enter (g : Gate) (c : Call) :
    (g.enter c).1.drawn ++ (g.enter c).2.machine.messages = g.machine.messages := by
  unfold enter
  split
  · exact g.messages_perform c
  · dsimp only
    split
    · exact messages_perform _ c
    · split
      · exact messages_pass _ c _
      · rfl

theorem messages_resume (g : Gate) (c : Call) (stage : Stage) :
    (g.resume c stage).1.drawn ++ (g.resume c stage).2.machine.messages = g.machine.messages := by
  cases stage with
  | held fail? => exact g.messages_pass c fail?
  | settling reached =>
    cases c with
    | wait => rfl
    | _ => exact g.messages_perform _

end Gate

end Link

namespace Schedule

def broughtBy {o : Outside} : o.Answer ⊕ Delay → List Message
  | .inl a => drawn o a
  | .inr _ => []

namespace World

def messages (w : World) : List Message :=
  w.gate.machine.messages

theorem broughtBy_progress (w : World) {c : Call} (p : Gate.Progress c) :
    broughtBy (w.progress p) = p.drawn := by
  cases p <;> rfl

theorem broughtBy_within (w : World) (giveUp : Nat) {h : Handle} {limit : Nat}
    (p : Gate.Progress (.wait h limit)) : broughtBy (w.within giveUp p) = p.drawn := by
  unfold within
  cases p with
  | inl a => rfl
  | inr x =>
    dsimp only
    split
    · rfl
    · split <;> rfl

theorem messages_ask (w : World) (o : Outside) :
    broughtBy (w.ask o).1 ++ (w.ask o).2.messages = w.messages := by
  cases o with
  | link c =>
    unfold ask
    rw [broughtBy_progress]
    exact w.gate.messages_enter c
  | waitWithin h limit =>
    unfold ask
    rw [broughtBy_within]
    exact w.gate.messages_enter (.wait h limit)
  | sleep ms =>
    unfold ask
    dsimp only
    split <;> rfl
  | _ => rfl

theorem messages_edit (w : World) (r : Except FileError FileTree) :
    (w.edit r).2.messages = w.messages := by
  cases r <;> rfl

theorem messages_resume (w : World) (o : Outside) (d : Delay) :
    broughtBy (w.resume o d).1 ++ (w.resume o d).2.messages = w.messages := by
  cases o with
  | link c =>
    unfold resume
    dsimp only
    split
    · rw [broughtBy_progress]
      exact w.gate.messages_resume c _
    · exact w.messages_ask (.link c)
  | waitWithin h limit =>
    unfold resume
    dsimp only
    split
    · rw [broughtBy_within]
      exact w.gate.messages_resume (.wait h limit) _
    · rfl
  | writeText p text => exact w.messages_edit _
  | appendText p text => exact w.messages_edit _
  | _ => rfl

theorem messages_respond (w : World) (o : Outside) (d? : Option Delay) :
    broughtBy (w.respond o d?).1 ++ (w.respond o d?).2.messages = w.messages := by
  cases d? with
  | none => exact w.messages_ask o
  | some d => exact w.messages_resume o d

end World

inductive Incident where
  | chance (c : Chance)
  | message (m : Message)
  | running (b : Bool)
  | faults (p : Link.Gate.Point) (fs : List (Option Link.Gate.Fault))

def Incident.message? : Incident → Option Message
  | .message m => some m
  | .chance _ | .running _ | .faults _ _ => none

def Incident.change (g : Link.Gate) : Incident → Link.Gate
  | .chance _ => g
  | .message m => { g with machine := { g.machine with messages := g.machine.messages ++ [m] } }
  | .running b => { g with machine := { g.machine with running := b } }
  | .faults p fs => g.addFaults p fs

def simulated (jobs : TaskId → Option (Job α)) (mayDrop : TaskId → Bool)
    (observers : Observers ω ε) : Rules α World Incident ω ε where
  jobs := jobs
  mayDrop := mayDrop
  observers := observers
  answer o c w :=
    match c with
    | .chance c => (rules jobs mayDrop observers).answer o c w
    | .message _ | .running _ | .faults _ _ => none
  befall c x :=
    match c with
    | .chance c => (rules jobs mayDrop observers).befall c x
    | c => some (x.1, { x.2 with gate := c.change x.2.gate })

end Schedule

/-- Whether messages wait in a queue: one that is drawn is the first, and one that comes in the last. -/
structure Crowd.Rules.Queues (R : Rules α σ χ ω ε) (queue : σ → List Message)
    (pushed? : χ → Option Message) : Prop where
  answer : ∀ {o c w a w'}, R.answer o c w = some (a, w') → drawn o a ++ queue w' = queue w
  befall : ∀ {c r w r' w'}, R.befall c (r, w) = some (r', w') →
    queue w' = queue w ++ (pushed? c).toList

namespace Schedule

theorem queues_rules (jobs : TaskId → Option (Job α)) (mayDrop : TaskId → Bool)
    (observers : Observers ω ε) :
    (rules jobs mayDrop observers).Queues World.messages fun _ => none where
  answer {o c w a w'} h := by
    cases c with
    | answers d? =>
      obtain ⟨a', ha, h⟩ := Option.map_eq_some_iff.1 h
      cases h
      have hmessages := w.messages_respond o d?
      rw [Sum.getLeft?_eq_some_iff] at ha
      rwa [ha] at hmessages
    | waits | passes => cases h
  befall {c r w r' w'} h := by
    rw [Option.toList_none, List.append_nil]
    cases c with
    | waits o d? =>
      obtain ⟨d, hd, h⟩ := Option.map_eq_some_iff.1 h
      cases h
      have hmessages := w.messages_respond o d?
      rw [Sum.getRight?_eq_some_iff] at hd
      rwa [hd] at hmessages
    | passes due =>
      cases h
      rfl
    | answers => cases h

theorem queues_simulated (jobs : TaskId → Option (Job α)) (mayDrop : TaskId → Bool)
    (observers : Observers ω ε) :
    (simulated jobs mayDrop observers).Queues World.messages Incident.message? where
  answer {o c w a w'} h := by
    cases c with
    | chance c => exact (queues_rules jobs mayDrop observers).answer h
    | message | running | faults => cases h
  befall {c r w r' w'} h := by
    cases c with
    | chance c => exact (queues_rules jobs mayDrop observers).befall h
    | message m =>
      cases h
      rfl
    | running | faults =>
      cases h
      exact (List.append_nil _).symm

end Schedule

end MillGateway
