import MillGateway.Proofs.Crowd.Turns
import MillGateway.Proofs.Poll.Protocol

/-! How a message comes from the error channel to the observers: it is read, numbered, stamped with the
time and announced, all in one turn. Whatever the gateway does keeps to it. -/

namespace MillGateway

open Crowd Job

def Request.isTelling : Request → Bool
  | .outside (.link (.pollChannel _)) => true
  | .inside .nextEventId | .inside (.announceEvent _) => true
  | _ => false

def Poll.Errand.Result.event? : Poll.Errand.Result → Option Event
  | .event e? => e?
  | .reply _ | .status _ | .done => none

namespace Telling

/-- How far a task is with reading a message. `apart` is one that reads none, or none any more. -/
inductive Phase where
  | apart
  | fresh
  | reading
  | drained (m : Message)
  | numbered (m : Message) (id : UInt64)
  | dated (m : Message) (id : UInt64) (time : String)
  | told (m : Message) (id : UInt64) (time : String)

namespace Phase

def isCarrying : Phase → Bool
  | .drained _ | .numbered _ _ | .dated _ _ _ => true
  | .apart | .fresh | .reading | .told _ _ _ => false

def message? : Phase → Option Message
  | .drained m | .numbered m _ | .dated m _ _ | .told m _ _ => some m
  | .apart | .fresh | .reading => none

def event? : Phase → Option Event
  | .told m id time => some (.ofMessage id m time)
  | _ => none

end Phase

def afterLook (c : Cache) : Phase :=
  if c.alive then .reading else .apart

def afterRead : Except Link.Error (Option Message) → Phase
  | .ok (some m) => .drained m
  | .ok none | .error _ => .apart

/-- From the message on nothing can hold up what follows. -/
inductive Turn : Protocol Phase
  | look {c} : Turn .fresh (.inside .cache) c (afterLook c)
  | read {ch a} : Turn .reading (.outside (.link (.pollChannel ch))) a (afterRead a)
  | give {m a} : Turn (.drained m) (.release .channel) a (.drained m)
  | number {m id} : Turn (.drained m) (.inside .nextEventId) id (.numbered m id)
  | date {m id time} : Turn (.numbered m id) (.outside .localTime) time (.dated m id time)
  | announce {m id time n} :
      Turn (.dated m id time) (.inside (.announceEvent (.ofMessage id m time))) n (.told m id time)
  | other {ph r a} (hr : r.isTelling = false) (hlook : ph = .fresh → r ≠ .inside .cache)
      (hph : ph.isCarrying = false) : Turn ph r a ph

def Ends (ph : Phase) (res : Poll.Errand.Result) : Prop :=
  ph.isCarrying = false ∧ ph.event? = res.event?

theorem unbroken : Unbroken Turn Ends (·.isCarrying = true) where
  prompt := by
    intro ph r a ph' h hin
    cases h with
    | look | read => cases hin
    | other _ _ hph => exact absurd hin (by simp [hph])
    | _ => rfl
  post h := by simp [h.1]

/-! ### What is noted on the way -/

inductive Note where
  | drained (m : Message)
  | numbered (id : UInt64)
  | announced (e : Event)

namespace Note

def message? : Note → Option Message
  | .drained m => some m
  | .numbered _ | .announced _ => none

def id? : Note → Option UInt64
  | .numbered id => some id
  | .drained _ | .announced _ => none

def event? : Note → Option Event
  | .announced e => some e
  | .drained _ | .numbered _ => none

end Note

def note? : (r : Request) → r.Answer → Option Note
  | .outside (.link (.pollChannel _)), .ok (some m) => some (.drained m)
  | .inside .nextEventId, id => some (.numbered id)
  | .inside (.announceEvent e), _ => some (.announced e)
  | _, _ => none

def Phase.notes : Phase → List Note
  | .drained m => [.drained m]
  | .numbered m id | .dated m id _ => [.drained m, .numbered id]
  | .apart | .fresh | .reading | .told _ _ _ => []

def Whole (l : List Note) : Prop :=
  ∃ m id time, l = [.drained m, .numbered id, .announced (.ofMessage id m time)]

theorem note?_of_other {r : Request} (a : r.Answer) (hr : r.isTelling = false) :
    note? r a = none := by
  cases r with
  | outside o =>
    cases o with
    | link c => cases c <;> first | rfl | cases hr
    | _ => rfl
  | inside x => cases x <;> first | rfl | cases hr
  | acquire | release => rfl

theorem afterLook_isCarrying (c : Cache) : (afterLook c).isCarrying = false := by
  unfold afterLook
  split <;> rfl

theorem sections_turn : Sections Turn (·.isCarrying = true) note? Phase.notes Whole where
  apart := by
    intro ph r a ph' h hout hout'
    cases h with
    | look => rfl
    | @read ch a =>
      rcases a with e | _ | m
      · rfl
      · rfl
      · exact absurd rfl hout'
    | other hr => exact note?_of_other a hr
    | _ => exact absurd rfl hout
  enter := by
    intro ph r a ph' h hout hin
    cases h with
    | @look c => simp [afterLook_isCarrying c] at hin
    | @read ch a =>
      rcases a with e | _ | m
      · cases hin
      · cases hin
      · rfl
    | announce => cases hin
    | other => exact absurd hin hout
    | _ => exact absurd rfl hout
  stay := by
    intro ph r a ph' h hin hin'
    cases h with
    | look | read => cases hin
    | announce => cases hin'
    | other _ _ hph => exact absurd hin (by simp [hph])
    | _ => rfl
  leave := by
    intro ph r a ph' h hin hout
    cases h with
    | look | read => cases hin
    | @announce m id time n => exact ⟨m, id, time, rfl⟩
    | other _ _ hph => exact absurd hin (by simp [hph])
    | _ => exact absurd rfl hout

/-! ### What one task notes -/

def notesOf (t : List Exchange) : List Note :=
  t.filterMap fun x => note? x.1 x.2

theorem notes_of_turn {ph ph' : Phase} {r : Request} {a : r.Answer} (h : Turn ph r a ph') :
    ph.message?.toList ++ ((note? r a).bind Note.message?).toList = ph'.message?.toList ∧
      ph.event?.toList ++ ((note? r a).bind Note.event?).toList = ph'.event?.toList := by
  cases h with
  | @look c =>
    unfold afterLook
    split <;> exact ⟨rfl, rfl⟩
  | @read ch a => rcases a with _ | _ | _ <;> exact ⟨rfl, rfl⟩
  | other hr => simp [note?_of_other a hr]
  | _ => exact ⟨rfl, rfl⟩

theorem notesOf_of_path {p q : Phase} {t : List Exchange} (h : Protocol.Path Turn p t q) :
    p.message?.toList ++ (notesOf t).filterMap Note.message? = q.message?.toList ∧
      p.event?.toList ++ (notesOf t).filterMap Note.event? = q.event?.toList := by
  induction h with
  | nil => exact ⟨List.append_nil _, List.append_nil _⟩
  | @snoc t q r a q' h hturn ih =>
    obtain ⟨hmessage, hevent⟩ := notes_of_turn hturn
    have hsnoc : ∀ {β : Type} (f : Note → Option β), (notesOf (t ++ [⟨r, a⟩])).filterMap f =
        (notesOf t).filterMap f ++ ((note? r a).bind f).toList := by
      intro β f
      unfold notesOf
      rw [List.filterMap_filterMap, List.filterMap_filterMap]
      exact filterMap_snoc _ t _
    rw [hsnoc, hsnoc, ← List.append_assoc, ← List.append_assoc, ih.1, ih.2]
    exact ⟨hmessage, hevent⟩

theorem apart_of_path {q : Phase} {t : List Exchange} (h : Protocol.Path Turn .apart t q) :
    q = .apart := by
  induction h with
  | nil => rfl
  | snoc h hturn ih =>
    subst ih
    cases hturn with
    | other => rfl

/-! ### Whatever the gateway does -/

theorem keeps_isAlive :
    isAlive.Keeps Turn (fun ph alive => ph = if alive then .reading else .apart) .fresh := by
  refine fun _ => ⟨_, .other rfl nofun rfl, fun c => ⟨_, .look, fun _ => ⟨_, .other rfl ?_ ?_, rfl⟩⟩⟩
  · intro _
    nofun
  · exact afterLook_isCarrying c

theorem keeps_openedChannel :
    openedChannel.Keeps Turn (fun ph _ => ph = .reading) .reading := by
  intro c?
  refine ⟨_, .other rfl nofun rfl, ?_⟩
  cases c? with
  | some c => rfl
  | none =>
    intro opened
    refine ⟨_, .other rfl nofun rfl, ?_⟩
    cases opened with
    | ok c => exact fun _ => ⟨_, .other rfl nofun rfl, rfl⟩
    | error e => rfl

def Took (ph : Phase) : Option Message → Prop
  | some m => ph = .drained m
  | none => ph = .reading ∨ ph = .apart

theorem keeps_takeMessage : takeMessage.Keeps Turn Took .reading := by
  refine fun _ => ⟨_, .other rfl nofun rfl, ?_⟩
  refine (keeps_openedChannel.bind ?_ : Keeps Turn Took (openedChannel.bind _) .reading).bind ?_
  · rintro ph c? rfl
    cases c? with
    | none => exact .inl rfl
    | some c =>
      refine fun m? => ⟨_, .read, ?_⟩
      rcases m? with e | _ | m
      · exact fun _ => ⟨_, .other rfl nofun rfl, .inr rfl⟩
      · exact .inr rfl
      · rfl
  · intro ph m? hph
    cases m? with
    | none =>
      rcases hph with rfl | rfl
      · exact fun _ => ⟨_, .other rfl nofun rfl, .inl rfl⟩
      · exact fun _ => ⟨_, .other rfl nofun rfl, .inr rfl⟩
    | some m =>
      cases hph
      exact fun _ => ⟨_, .give, rfl⟩

theorem keeps_pollErrors :
    pollErrors.Keeps Turn (fun ph e? => ph.isCarrying = false ∧ ph.event? = e?) .fresh := by
  refine keeps_isAlive.bind ?_
  rintro ph alive rfl
  cases alive with
  | false => exact ⟨rfl, rfl⟩
  | true =>
    refine keeps_takeMessage.bind ?_
    intro ph m? hph
    cases m? with
    | none => rcases hph with rfl | rfl <;> exact ⟨rfl, rfl⟩
    | some m =>
      cases hph
      exact fun id => ⟨_, .number, fun time => ⟨_, .date, fun n => ⟨_, .announce, rfl, rfl⟩⟩⟩

theorem not_isTelling {r : Request}
    (hr : r.isOrdinary = true ∨ r.isPolling = true ∨ r.isSwitch = true) : r.isTelling = false := by
  cases r with
  | outside o =>
    cases o with
    | link c => cases c <;> first | rfl | (rcases hr with hr | hr | hr <;> cases hr)
    | _ => rfl
  | inside x => cases x <;> first | rfl | (rcases hr with hr | hr | hr <;> cases hr)
  | acquire | release => rfl

theorem spares_apart : Turn.Spares (· = .apart) fun r => r.isTelling = false := by
  rintro _ r a rfl hr
  exact ⟨_, .other hr nofun rfl, rfl⟩

theorem partsReturn : PartsReturn Turn (· = .apart) fun _ => True := by
  refine partsReturn_of_ordinary (spares_apart.mono fun r hr => not_isTelling (.inl hr))
    (spares_apart.returns (asks_pollStatus.mono fun r hr => not_isTelling (hr.imp_right .inl)))
    (fun {a} _ limit => ?_) (spares_apart.mono ?_)
  · refine spares_apart.returns ((asks_execute a limit).mono ?_)
    rintro r (hr | rfl)
    · exact not_isTelling (.inl hr)
    · rfl
  · rintro _ ⟨c, hc, -, rfl⟩
    exact not_isTelling (.inr (.inr hc))

def start : Poll.Errand → Phase
  | .pollErrors => .fresh
  | .command _ _ _ | .pollStatus | .resetChannel => .apart

theorem keeps_answer (e : Poll.Errand) : e.answer.Keeps Turn Ends (start e) := by
  have hends : ∀ {ph : Phase} {res : Poll.Errand.Result}, ph = .apart → res.event? = none →
      Ends ph res := by
    rintro _ res rfl hres
    exact ⟨rfl, hres.symm⟩
  cases e with
  | pollErrors => exact keeps_pollErrors.bind fun ph e? h => h
  | command s name args =>
    exact (partsReturn.handleCommand s name args _ rfl).bind fun ph r hph => hends hph rfl
  | pollStatus => exact (partsReturn.poll _ rfl).bind fun ph s? hph => hends hph rfl
  | resetChannel => exact (partsReturn.reset _ rfl).bind fun ph _ hph => hends hph rfl

end Telling

end MillGateway
