import MillGateway.Proofs.Crowd.Play
import MillGateway.Proofs.Message.Simulation
import MillGateway.Proofs.Poll.Glance

/-! Messages of many reads. Main statement: each message that is taken out of the channel becomes one
event, numbered in the order in which messages are taken, and is announced once. -/

namespace MillGateway

open Crowd

namespace Telling

/-! ### Messages on their way -/

def noted (f : Note → Option β) (m : List (TaskId × Note)) : List (TaskId × β) :=
  m.filterMap fun x => (f x.2).map fun y => (x.1, y)

def drained (es : List (Crowd.Event χ)) : List (TaskId × Message) :=
  noted Note.message? (marks note? es)

def numbered (es : List (Crowd.Event χ)) : List (TaskId × UInt64) :=
  noted Note.id? (marks note? es)

def announced (es : List (Crowd.Event χ)) : List (TaskId × Event) :=
  noted Note.event? (marks note? es)

theorem noted_append (f : Note → Option β) (m m' : List (TaskId × Note)) :
    noted f (m ++ m') = noted f m ++ noted f m' :=
  List.filterMap_append

theorem noted_ofTask (f : Note → Option β) (i : TaskId) (l : List Note) :
    noted f (ofTask i l) = ofTask i (l.filterMap f) := by
  unfold noted ofTask
  rw [List.filterMap_map, List.map_filterMap]
  rfl

theorem noted_of_whole {ls : List (TaskId × List Note)} (h : ∀ x ∈ ls, Whole x.2) :
    (noted Note.message? (oneByOne ls)).length = ls.length ∧
    (noted Note.event? (oneByOne ls)).length = ls.length ∧
    ∀ (n : Nat) i e, (noted Note.event? (oneByOne ls))[n]? = some (i, e) → ∃ m id time,
      (noted Note.message? (oneByOne ls))[n]? = some (i, m) ∧
      (noted Note.id? (oneByOne ls))[n]? = some (i, id) ∧ e = Event.ofMessage id m time := by
  induction ls with
  | nil => exact ⟨rfl, rfl, fun n i e he => by simp [noted, oneByOne] at he⟩
  | cons x ls ih =>
    obtain ⟨hmessages, hevents, hall⟩ := ih fun y hy => h y (List.mem_cons_of_mem _ hy)
    obtain ⟨m, id, time, hx⟩ := h x List.mem_cons_self
    have hcons : ∀ {β : Type} (f : Note → Option β), noted f (oneByOne (x :: ls)) =
        ofTask x.1 (x.2.filterMap f) ++ noted f (oneByOne ls) := by
      intro β f
      rw [oneByOne, List.flatMap_cons, noted_append, noted_ofTask]
      rfl
    rw [hcons, hcons, hcons, hx]
    refine ⟨?_, ?_, ?_⟩
    · rw [List.length_append, hmessages]
      exact Nat.add_comm 1 ls.length
    · rw [List.length_append, hevents]
      exact Nat.add_comm 1 ls.length
    · intro n i e he
      cases n with
      | zero =>
        cases he
        exact ⟨m, id, time, rfl, rfl, rfl⟩
      | succ n => exact hall n i e he

section

variable [DecidableEq ω] {R : Rules Poll.Errand.Result σ χ ω ε}
  {s₀ s s' : Crowd Poll.Errand.Result σ ω ε} {e : Crowd.Event χ}
  {ms ms' : List (Move Poll.Errand.Result σ χ ω ε)} {errands : TaskId → Option Poll.Errand}
  {i : TaskId}

def startOf (errands : TaskId → Option Poll.Errand) (i : TaskId) : Phase :=
  ((errands i).map start).getD .apart

omit [DecidableEq ω] in
theorem keeps_of_errands (hjobs : ∀ i, R.jobs i = (errands i).map Poll.Errand.answer) (i : TaskId)
    {j : Job Poll.Errand.Result} (hj : R.jobs i = some j) :
    j.Keeps Turn Ends (startOf errands i) := by
  rw [hjobs] at hj
  obtain ⟨e, he, rfl⟩ := Option.map_eq_some_iff.1 hj
  rw [startOf, he]
  exact keeps_answer e

/-- Phases of tasks, and the messages that are on their way. -/
structure Carried (errands : TaskId → Option Poll.Errand) (s : Crowd Poll.Errand.Result σ ω ε)
    (ph : TaskId → Phase) (m : List (TaskId × Note)) : Prop where
  follows : Follows Turn Ends (startOf errands) s ph
  sectioned : Sectioned (·.isCarrying = true) Phase.notes Whole (fun _ => False) s ph m

theorem startOf_isCarrying (errands : TaskId → Option Poll.Errand) (i : TaskId) :
    ¬ (startOf errands i).isCarrying = true := by
  unfold startOf
  cases errands i with
  | none => nofun
  | some e => cases e <;> nofun

theorem carried_of_trail (hjobs : ∀ i, R.jobs i = (errands i).map Poll.Errand.answer)
    (hs₀ : s₀.Fresh) (h : Trail R s₀ ms s) (hturns : InTurns ms) :
    ∃ ph, Carried errands s ph (marks note? (events ms)) := by
  induction h with
  | nil => exact ⟨startOf errands, hs₀.follows, hs₀.sectioned⟩
  | @snoc ms s e s' h hstep ih =>
    obtain ⟨hbefore, hkeeping⟩ := inTurns_snoc_iff.1 hturns
    obtain ⟨ph, hfollows, hsectioned⟩ := ih hbefore
    obtain ⟨ph', hadv, hfollows'⟩ := hfollows.step (fun i j => keeps_of_errands hjobs i) hstep
    have hsnoc : marks note? (events (ms ++ [⟨s, e, s'⟩])) =
        marks note? (events ms) ++ (e.mark? note?).toList := by
      rw [events_snoc]
      exact filterMap_snoc _ _ e
    rw [hsnoc]
    refine ⟨ph', hfollows', hsectioned.step sections_turn (startOf_isCarrying errands) hfollows
      hstep hadv (unbroken.alone hfollows (h.oneTurn hs₀.oneTurn hbefore))
      (unbroken.alone hfollows' (hstep.oneTurn hkeeping)) ?_⟩
    -- nobody is dropped in the middle of a turn
    rintro i rfl hi
    obtain ⟨p, hp, hyields⟩ := unbroken.within hfollows hi
    cases hkeeping i p hp hyields

/-! ### Numbers -/

theorem next_of_step (h : Step R s e s') :
    (∃ i, numbered [e] = [(i, s.gateway.nextEvent)] ∧
      s'.gateway.nextEvent = s.gateway.nextEvent + 1) ∨
    numbered [e] = [] ∧ s'.gateway.nextEvent = s.gateway.nextEvent := by
  cases h with
  | @looked i x k hi =>
    cases x with
    | nextEventId => exact .inl ⟨i, rfl, rfl⟩
    | _ => exact .inr ⟨rfl, rfl⟩
  | @heard i o k c a w hi ha =>
    refine .inr ⟨?_, rfl⟩
    cases o with
    | link call =>
      cases call with
      | pollChannel ch => rcases a with _ | _ | _ <;> rfl
      | _ => rfl
    | _ => rfl
  | _ => exact .inr ⟨rfl, rfl⟩

theorem numbered_of_run {es : List (Crowd.Event χ)} (hnext : s₀.gateway.nextEvent = 0)
    (h : Run R s₀ es s) :
    (∀ (n : Nat) i id, (numbered es)[n]? = some (i, id) → id = UInt64.ofNat n) ∧
      s.gateway.nextEvent = UInt64.ofNat (numbered es).length := by
  induction h with
  | nil => exact ⟨nofun, hnext⟩
  | @snoc es s e s' _ hstep ih =>
    obtain ⟨hall, hs⟩ := ih
    have hsnoc : numbered (es ++ [e]) = numbered es ++ numbered [e] := by
      unfold numbered marks
      rw [List.filterMap_append, noted_append]
    rw [hsnoc]
    rcases next_of_step hstep with ⟨i, hone, hs'⟩ | ⟨hnone, hs'⟩
    · rw [hone]
      refine ⟨fun n i' id hn => ?_, ?_⟩
      · by_cases hlt : n < (numbered es).length
        · rw [List.getElem?_append_left hlt] at hn
          exact hall n i' id hn
        · have hlast : n = (numbered es).length := by
            have hle := (List.getElem?_eq_some_iff.1 hn).1
            rw [List.length_append, List.length_singleton] at hle
            omega
          rw [hlast, List.getElem?_append_right (Nat.le_refl _), Nat.sub_self] at hn
          cases hn
          rw [hs, hlast]
      · rw [hs', hs, List.length_append, List.length_singleton, UInt64.ofNat_add]
        rfl
    · rw [hnone, List.append_nil, hs']
      exact ⟨hall, hs⟩

/-! ### One task -/

omit [DecidableEq ω] in
theorem filter_noted (f : Note → Option β) (i : TaskId) (es : List (Crowd.Event χ)) :
    ((noted f (marks note? es)).filter fun x => x.1 == i) =
      ofTask i ((notesOf (exchanges i es)).filterMap f) := by
  have hfilter : ∀ m : List (TaskId × Note), ((noted f m).filter fun x => x.1 == i) =
      noted f (m.filter fun x => x.1 == i) := by
    intro m
    unfold noted
    rw [List.filter_filterMap, List.filterMap_filter]
    congr 1
    funext x
    by_cases hi : x.1 = i
    · cases f x.2 <;> simp [hi]
    · cases f x.2 <;> simp [hi]
  rw [hfilter, filter_marks, noted_ofTask]
  rfl

theorem path_of_trail (hjobs : ∀ i, R.jobs i = (errands i).map Poll.Errand.answer)
    (hs₀ : s₀.Fresh) (h : Trail R s₀ ms s) (i : TaskId) :
    ∃ q, Protocol.Path Turn (startOf errands i) (exchanges i (events ms)) q ∧
      ∀ res, s.tasks i = some (.ready (.done res)) → Ends q res := by
  cases hi : R.jobs i with
  | none =>
    have habsent : s.tasks i = none := by
      by_contra hne
      obtain ⟨p, hp⟩ := Option.ne_none_iff_exists'.1 hne
      obtain ⟨j, hj⟩ := h.run.job_of_task hs₀ hp
      rw [hi] at hj
      cases hj
    refine ⟨startOf errands i, ?_, fun res hres => ?_⟩
    · rw [h.run.exchanges_of_absent habsent]
      exact .nil
    · rw [habsent] at hres
      cases hres
  | some j₀ =>
    have hstands := h.run.stands hi (congrFun hs₀.tasks i)
    have hkeeps := keeps_of_errands hjobs i hi
    obtain ⟨j, hreach, hj⟩ := hstands.exists_reaches
    obtain ⟨q, hpath, hends⟩ := hkeeps.of_reaches hreach
    refine ⟨q, hpath, fun res hres => ?_⟩
    rw [← hj _ (jobAt_of_task hres)] at hends
    exact hends

theorem message?_startOf (errands : TaskId → Option Poll.Errand) (i : TaskId) :
    (startOf errands i).message? = none ∧ (startOf errands i).event? = none := by
  unfold startOf
  cases errands i with
  | none => exact ⟨rfl, rfl⟩
  | some e => cases e <;> exact ⟨rfl, rfl⟩

theorem drained_by (hjobs : ∀ i, R.jobs i = (errands i).map Poll.Errand.answer) (hs₀ : s₀.Fresh)
    (h : Trail R s₀ ms s) (i : TaskId) :
    ((drained (events ms)).filter fun x => x.1 == i) = [] ∨
      errands i = some .pollErrors ∧
        ∃ m, ((drained (events ms)).filter fun x => x.1 == i) = [(i, m)] := by
  obtain ⟨q, hpath, -⟩ := path_of_trail hjobs hs₀ h i
  have hmessages := (notesOf_of_path hpath).1
  rw [(message?_startOf errands i).1, Option.toList_none, List.nil_append] at hmessages
  unfold drained
  rw [filter_noted, hmessages]
  by_cases hi : errands i = some .pollErrors
  · cases q.message? with
    | none => exact .inl rfl
    | some m => exact .inr ⟨hi, m, rfl⟩
  · have hstart : startOf errands i = .apart := by
      unfold startOf
      cases he : errands i with
      | none => rfl
      | some e =>
        cases e with
        | pollErrors => exact absurd he hi
        | _ => rfl
    rw [hstart] at hpath
    rw [apart_of_path hpath]
    exact .inl rfl

theorem announced_by (hjobs : ∀ i, R.jobs i = (errands i).map Poll.Errand.answer) (hs₀ : s₀.Fresh)
    (h : Trail R s₀ ms s) {i : TaskId} {res : Poll.Errand.Result}
    (hi : s.tasks i = some (.ready (.done res))) :
    ((announced (events ms)).filter fun x => x.1 == i) = ofTask i res.event?.toList := by
  obtain ⟨q, hpath, hends⟩ := path_of_trail hjobs hs₀ h i
  have hevents := (notesOf_of_path hpath).2
  rw [(message?_startOf errands i).2, Option.toList_none, List.nil_append] at hevents
  unfold announced
  rw [filter_noted, hevents, (hends res hi).2]

/-! ### A controller that is down -/

theorem exchanges_of_first (hjobs : ∀ i, R.jobs i = (errands i).map Poll.Errand.answer)
    (hs₀ : s₀.Fresh) {x : Move Poll.Errand.Result σ χ ω ε} (h : Trail R s₀ (ms ++ x :: ms') s)
    (hturns : InTurns (ms ++ x :: ms')) (hi : errands i = some .pollErrors)
    (hx : x.event.mover? = some i) (hfirst : ∀ y ∈ ms, y.event.mover? ≠ some i) :
    exchanges i (events (ms ++ x :: ms')) = [⟨.acquire .cache, ()⟩] ∨
      ∃ t, exchanges i (events (ms ++ x :: ms')) =
        ⟨.acquire .cache, ()⟩ :: ⟨.inside .cache, x.before.gateway.cache⟩ :: t := by
  obtain ⟨k, hk⟩ : ∃ k, Poll.Errand.answer .pollErrors =
      .ask (.acquire .cache) fun _ => .ask (.inside .cache) k := ⟨_, rfl⟩
  have hj : R.jobs i = some (.ask (.acquire .cache) fun _ => .ask (.inside .cache) k) := by
    rw [hjobs, hi, Option.map_some, hk]
  exact Glance.exchanges_of_first (Poll.exists_errand hjobs) hs₀ h hturns hj hx hfirst

theorem apart_of_look {c : Cache} {t : List Exchange} {q : Phase} (hdown : c.alive = false)
    (h : Protocol.Path Turn .fresh (⟨.acquire .cache, ()⟩ :: ⟨.inside .cache, c⟩ :: t) q) :
    q = .apart := by
  obtain ⟨p, hacquire, h⟩ := h.cons_cases
  obtain ⟨p', hlook, h⟩ := h.cons_cases
  cases hacquire with
  | other =>
    cases hlook with
    | look =>
      rw [afterLook, hdown] at h
      exact apart_of_path h
    | other _ hlook => exact absurd rfl (hlook rfl)

theorem drained_of_down (hjobs : ∀ i, R.jobs i = (errands i).map Poll.Errand.answer)
    (hs₀ : s₀.Fresh) {x : Move Poll.Errand.Result σ χ ω ε} (h : Trail R s₀ (ms ++ x :: ms') s)
    (hturns : InTurns (ms ++ x :: ms')) (hx : x.event.mover? = some i)
    (hfirst : ∀ y ∈ ms, y.event.mover? ≠ some i) (hdown : x.before.gateway.cache.alive = false) :
    ((drained (events (ms ++ x :: ms'))).filter fun y => y.1 == i) = [] := by
  rcases drained_by hjobs hs₀ h i with hnone | ⟨hi, -⟩
  · exact hnone
  · obtain ⟨q, hpath, -⟩ := path_of_trail hjobs hs₀ h i
    have hmessages := (notesOf_of_path hpath).1
    have hstart : startOf errands i = .fresh := by
      rw [startOf, hi]
      rfl
    unfold drained
    rw [filter_noted]
    rcases exchanges_of_first hjobs hs₀ h hturns hi hx hfirst with hone | ⟨t, ht⟩
    · rw [hone]
      rfl
    · rw [hstart, ht] at hpath
      rw [hstart, apart_of_look hdown hpath] at hmessages
      rw [show (notesOf _).filterMap Note.message? = [] from hmessages]
      rfl

/-! ### Many reads -/

theorem notes_of_isCarrying {p : Phase} (hp : p.isCarrying = true) :
    p.notes.filterMap Note.event? = [] ∧ ∃ m, p.notes.filterMap Note.message? = [m] := by
  cases p with
  | drained m | numbered m | dated m => exact ⟨rfl, m, rfl⟩
  | apart | fresh | reading | told => cases hp

omit [DecidableEq ω] in
theorem Carried.exists_whole {ph : TaskId → Phase} {m : List (TaskId × Note)}
    (h : Carried errands s ph m) :
    ∃ ls rest, m = oneByOne ls ++ rest ∧ (∀ x ∈ ls, Whole x.2) ∧
      (rest = [] ∨ noted Note.event? rest = [] ∧ (noted Note.message? rest).length = 1 ∧
        ∃ i p, s.tasks i = some p ∧ p.yields = false) := by
  obtain ⟨ls, rest, rfl, hls, hin, hout⟩ := h.sectioned.exists_sections
  refine ⟨ls, rest, rfl, fun x hx => (hls x hx).resolve_right fun hcut => hcut.2, ?_⟩
  by_cases hnone : ∀ i, ¬ Within (·.isCarrying = true) s ph i
  · exact .inl (hout hnone)
  · obtain ⟨i, hi⟩ := not_forall_not.1 hnone
    obtain ⟨hevents, m, hmessages⟩ := notes_of_isCarrying hi.2
    right
    rw [hin i hi, noted_ofTask, noted_ofTask, hevents, hmessages]
    exact ⟨rfl, rfl, i, unbroken.within h.follows hi⟩

omit [DecidableEq ω] in
theorem Carried.announced {ph : TaskId → Phase} {m : List (TaskId × Note)}
    (h : Carried errands s ph m) :
    ((noted Note.event? m).length ≤ (noted Note.message? m).length ∧
      (noted Note.message? m).length ≤ (noted Note.event? m).length + 1 ∧
      ((∀ i p, s.tasks i = some p → p.yields = true) →
        (noted Note.event? m).length = (noted Note.message? m).length)) ∧
    ∀ (n : Nat) i e, (noted Note.event? m)[n]? = some (i, e) → ∃ msg id time,
      (noted Note.message? m)[n]? = some (i, msg) ∧ (noted Note.id? m)[n]? = some (i, id) ∧
        e = Event.ofMessage id msg time := by
  obtain ⟨ls, rest, rfl, hwhole, hrest⟩ := h.exists_whole
  obtain ⟨hmessages, hevents, hall⟩ := noted_of_whole hwhole
  rcases hrest with rfl | ⟨hnil, hone, i, p, hp, hno⟩
  · rw [List.append_nil]
    exact ⟨by simp [hmessages, hevents], hall⟩
  · rw [noted_append, noted_append, noted_append, hnil, List.append_nil, List.length_append, hone,
      hmessages, hevents]
    refine ⟨⟨Nat.le_succ _, Nat.le_refl _, fun hyields => ?_⟩, fun n i e hn => ?_⟩
    · rw [hyields i p hp] at hno
      cases hno
    · obtain ⟨msg, id, time, hmsg, hid, he⟩ := hall n i e hn
      refine ⟨msg, id, time, ?_, ?_, he⟩
      · rw [List.getElem?_append_left (List.getElem?_eq_some_iff.1 hmsg).1, hmsg]
      · rw [List.getElem?_append_left (List.getElem?_eq_some_iff.1 hid).1, hid]

def pushed (pushed? : χ → Option Message) (es : List (Crowd.Event χ)) : List Message :=
  es.filterMap fun
    | .befell c => pushed? c
    | _ => none

theorem queue_of_step {queue : σ → List Message} {pushed? : χ → Option Message}
    (hqueue : R.Queues queue pushed?) (h : Step R s e s') :
    (drained [e]).map Prod.snd ++ queue s'.world = queue s.world ++ pushed pushed? [e] := by
  cases h with
  | @heard i o k c a w hi ha =>
    have hanswer := hqueue.answer ha
    have hdrained : (drained [Event.heard i o c a]).map Prod.snd = drawn o a := by
      simp only [drained, noted, marks, Event.mark?, Event.answered?, drawn, List.filterMap_cons,
        List.filterMap_nil, Option.bind_some]
      cases note? (.outside o) a with
      | none => rfl
      | some x => cases hx : x.message? <;> simp [hx]
    rw [hdrained]
    exact hanswer.trans (List.append_nil _).symm
  | @befell c r w h =>
    have hbefall := hqueue.befall h
    have hpushed : pushed pushed? [Crowd.Event.befell c] = (pushed? c).toList := by
      simp only [pushed, List.filterMap_cons, List.filterMap_nil]
      cases pushed? c <;> rfl
    rw [hpushed]
    exact hbefall
  | @looked i x k hi =>
    refine Eq.trans ?_ (List.append_nil _).symm
    cases x <;> rfl
  | _ => exact (List.append_nil _).symm

theorem queue_of_run {queue : σ → List Message} {pushed? : χ → Option Message}
    (hqueue : R.Queues queue pushed?) {es : List (Crowd.Event χ)} (h : Run R s₀ es s) :
    (drained es).map Prod.snd ++ queue s.world = queue s₀.world ++ pushed pushed? es := by
  induction h with
  | nil => exact (List.append_nil _).symm
  | @snoc es s e s' _ hstep ih =>
    have hdrained : drained (es ++ [e]) = drained es ++ drained [e] := by
      unfold drained marks
      rw [List.filterMap_append, noted_append]
    have hpushed : pushed pushed? (es ++ [e]) = pushed pushed? es ++ pushed pushed? [e] :=
      List.filterMap_append
    rw [hdrained, hpushed, List.map_append, List.append_assoc, queue_of_step hqueue hstep,
      ← List.append_assoc, ih, List.append_assoc]

theorem announced_in_order {es : List (Crowd.Event χ)}
    (h : ∀ (n : Nat) i e, (announced es)[n]? = some (i, e) →
      ∃ m time, (drained es)[n]? = some (i, m) ∧ e = Event.ofMessage (UInt64.ofNat n) m time) :
    (announced es).map (fun x => (x.2.kind, x.2.text)) <+:
      (drained es).map fun x => (x.2.kind, x.2.text) := by
  rw [List.prefix_iff_getElem?]
  intro n hn
  rw [List.length_map] at hn
  obtain ⟨m, time, hm, he⟩ :=
    h n (announced es)[n].1 (announced es)[n].2 (List.getElem?_eq_getElem hn)
  rw [List.getElem?_map, hm, List.getElem_map, he]
  rfl

/-- However the tasks of the gateway come on in turns, and whatever comes of the channel: the event
with the number `n` is that of the message that was taken as the `n`-th, and it is announced once; only
one message at a time is on its way; a call that reads messages takes one at most, none if it begins
while the controller is down, and ends with the event that it has announced; and if messages wait in a
queue, events are announced in the order in which their messages have come in. -/
theorem messages_told_once (hjobs : ∀ i, R.jobs i = (errands i).map Poll.Errand.answer)
    (hs₀ : s₀.Fresh) (hnext : s₀.gateway.nextEvent = 0) (h : Trail R s₀ ms s)
    (hturns : InTurns ms) :
    (∀ (n : Nat) i e, (announced (events ms))[n]? = some (i, e) → ∃ m time,
      (drained (events ms))[n]? = some (i, m) ∧ e = .ofMessage (UInt64.ofNat n) m time) ∧
    ((announced (events ms)).length ≤ (drained (events ms)).length ∧
      (drained (events ms)).length ≤ (announced (events ms)).length + 1 ∧
      ((∀ i p, s.tasks i = some p → p.yields = true) →
        (announced (events ms)).length = (drained (events ms)).length)) ∧
    (∀ i, ((drained (events ms)).filter fun x => x.1 == i) = [] ∨ errands i = some .pollErrors ∧
      ∃ m, ((drained (events ms)).filter fun x => x.1 == i) = [(i, m)]) ∧
    (∀ i res, s.tasks i = some (.ready (.done res)) →
      ((announced (events ms)).filter fun x => x.1 == i) = ofTask i res.event?.toList) ∧
    (∀ ms₁ x ms₂ i, ms = ms₁ ++ x :: ms₂ → x.event.mover? = some i →
      (∀ y ∈ ms₁, y.event.mover? ≠ some i) → x.before.gateway.cache.alive = false →
      ((drained (events ms)).filter fun y => y.1 == i) = []) ∧
    ∀ (queue : σ → List Message) (pushed? : χ → Option Message), R.Queues queue pushed? →
      (announced (events ms)).map (fun x => (x.2.kind, x.2.text)) <+:
        (queue s₀.world ++ pushed pushed? (events ms)).map fun m => (m.kind, m.text) := by
  obtain ⟨ph, hcarried⟩ := carried_of_trail hjobs hs₀ h hturns
  obtain ⟨hlength, hall⟩ := hcarried.announced
  have hevents : ∀ (n : Nat) i e, (announced (events ms))[n]? = some (i, e) → ∃ m time,
      (drained (events ms))[n]? = some (i, m) ∧ e = .ofMessage (UInt64.ofNat n) m time := by
    intro n i e hn
    obtain ⟨m, id, time, hm, hid, he⟩ := hall n i e hn
    have hnumber : id = UInt64.ofNat n := (numbered_of_run hnext h.run).1 n i id hid
    exact ⟨m, time, hm, hnumber ▸ he⟩
  refine ⟨hevents, hlength, drained_by hjobs hs₀ h, fun i res => announced_by hjobs hs₀ h, ?_,
    fun queue pushed? hqueue => ?_⟩
  · rintro ms₁ x ms₂ i rfl hx hfirst hdown
    exact drained_of_down hjobs hs₀ h hturns hx hfirst hdown
  · rw [← queue_of_run hqueue h.run, List.map_append, List.map_map]
    exact (announced_in_order hevents).trans (List.prefix_append _ _)

end

def silent : Observers Nat Unit where
  onStatus _ _ left := .finish true left
  onEvent _ _ left := .finish true left

def readers (i : TaskId) : Option Poll.Errand :=
  [.pollErrors, .pollStatus, .pollErrors, .pollErrors][i]?

def readersRules : Rules Poll.Errand.Result Schedule.World Schedule.Incident Nat Unit :=
  Schedule.simulated (fun i => (readers i).map Poll.Errand.answer) (fun _ => true) silent

def readersStart : Crowd Poll.Errand.Result Schedule.World Nat Unit where
  gateway := { left := () }
  world := { gate := { machine :=
    { name := "mill", running := true, messages := [⟨.operatorError, "limit"⟩] } } }

/-- One message waits, and another comes in. The last reader begins while the one before it waits for
its answer. -/
def readersChoices : List (Choice Schedule.Incident) :=
  .start 0 :: List.replicate 3 (.go 0 (.chance (.answers none))) ++
    .start 1 :: List.replicate 8 (.go 1 (.chance (.answers none))) ++
    .start 2 :: List.replicate 9 (.go 2 (.chance (.answers none))) ++
    .befall (.message ⟨.operatorText, "done"⟩) ::
    .start 3 :: List.replicate 4 (.go 3 (.chance (.answers none))) ++
    List.replicate 6 (.go 2 (.chance (.answers none))) ++
    List.replicate 9 (.go 3 (.chance (.answers none)))

theorem messages_told_once_two_readers :
    ∃ ms s, Trail readersRules readersStart ms s ∧
      (announced (events ms)).map (fun x => (x.1, x.2.id, x.2.text)) =
        [(2, 0, "limit"), (3, 1, "done")] ∧
      ((drained (events ms)).filter fun x => x.1 == 0) = [] ∧
      (announced (events ms)).map (fun x => (x.2.kind, x.2.text)) <+:
        [(.operatorError, "limit"), (.operatorText, "done")] := by
  have hcomputed : (trace? readersRules readersChoices readersStart).map (fun x =>
      (takeTurns (List.range 4) x.1, (announced (events x.1)).map (fun x => (x.1, x.2.id, x.2.text)),
        pushed Schedule.Incident.message? (events x.1))) =
      some (true, [(2, 0, "limit"), (3, 1, "done")], [⟨.operatorText, "done"⟩]) := by
    decide +kernel
  have hfirst : (trace? readersRules readersChoices readersStart).map (fun x =>
      (x.1.take 2).map fun y => (y.event.mover?, y.before.gateway.cache.alive)) =
      some [(none, false), (some 0, false)] := by
    decide +kernel
  obtain ⟨⟨ms, s⟩, htrace, hcomputed⟩ := Option.map_eq_some_iff.1 hcomputed
  rw [htrace] at hfirst
  obtain ⟨hturns, hannounced, hpushed⟩ := by simpa only [Prod.mk.injEq] using hcomputed
  have htrail := trail_of_trace? .nil htrace
  rw [List.nil_append] at htrail
  have hfresh : readersStart.Fresh := ⟨rfl, rfl⟩
  have hmem : ∀ i j, readersRules.jobs i = some j → i ∈ List.range 4 := by
    intro i j hj
    obtain ⟨e, he, -⟩ := Option.map_eq_some_iff.1 hj
    exact List.mem_range.2 (List.getElem?_eq_some_iff.1 he).1
  obtain ⟨-, -, -, -, hnone, hprefix⟩ := messages_told_once (fun _ => rfl) hfresh rfl htrail
    (htrail.inTurns_of_takeTurns hmem hfresh hturns)
  refine ⟨ms, s, htrail, hannounced, ?_, ?_⟩
  · obtain _ | ⟨x, _ | ⟨x', ms'⟩⟩ := ms
    · simp at hfirst
    · simp at hfirst
    · simp only [Option.map_some, List.take_succ_cons, List.map_cons, Option.some.injEq,
        List.cons.injEq, Prod.mk.injEq] at hfirst
      obtain ⟨⟨hx, -⟩, ⟨hx', hdown⟩, -⟩ := hfirst
      exact hnone [x] x' ms' 0 rfl hx' (by simp [hx]) hdown
  · have hall := hprefix _ _ (Schedule.queues_simulated _ _ _)
    rw [hpushed] at hall
    exact hall

end Telling

end MillGateway
