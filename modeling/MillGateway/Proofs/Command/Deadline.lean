import Mathlib.Algebra.Order.Floor.Div
import Mathlib.Data.List.Chain
import MillGateway.Proofs.Command.Mode
import MillGateway.Proofs.Job.Timed

/-! Starting the controller within a limit. After a launch the controller is polled until it
answers; the limit counts from the end of the launch, and is looked at only after a poll that has
failed. Main statement: what a start polls, launches, waits and replies, for every link and every
limit, and that it comes to its end. -/

namespace MillGateway

open Link (Call ChannelId)
open Machine (Status)

structure Sight where
  began : Nat
  ended : Nat
  answer : Except Link.Error Status

structure Rest where
  length : Nat
  began : Nat
  ended : Nat

namespace Sight

def pauses (ps : List Sight) : List Rest :=
  ps.zipWith (fun p q => ⟨Timing.startPoll, p.ended, q.began⟩) ps.tail

theorem pauses_cons {ps : List Sight} {next : Nat} (p : Sight)
    (hnext : ps.head?.map Sight.began = some next) :
    pauses (p :: ps) = ⟨Timing.startPoll, p.ended, next⟩ :: pauses ps := by
  cases ps with
  | nil => cases hnext
  | cons q ps =>
    obtain rfl := Option.some.inj hnext
    rfl

/-- Whether a poll is answered by the link as it is after such calls. The rest of its time goes by
while it waits for locks. -/
def Heard (L : Link.Behaviour) (made : List Call) (p : Sight) : Prop :=
  ∃ d, L made .pollStatus = some (d, p.answer) ∧ p.began + d ≤ p.ended

theorem Heard.began_le {L : Link.Behaviour} {made : List Call} {p : Sight} (h : p.Heard L made) :
    p.began ≤ p.ended := by
  obtain ⟨d, -, hd⟩ := h
  exact Nat.le_of_add_right_le hd

end Sight

namespace TimedExchange

def pollBegun? (x : TimedExchange) : Option Nat :=
  match x.exchange.1 with
  | .acquire .polling => some x.asked
  | _ => none

def pollEnded? (x : TimedExchange) : Option Nat :=
  match x.exchange.1 with
  | .release .polling => some x.answered
  | _ => none

def pause? (x : TimedExchange) : Option Rest :=
  match x.exchange.1 with
  | .outside (.sleep ms) => some ⟨ms, x.asked, x.answered⟩
  | _ => none

def setting? (x : TimedExchange) : Option (Option ChannelId) :=
  match x.exchange.1 with
  | .inside (.setChannel c?) => some c?
  | _ => none

structure Shows (xs : List TimedExchange) (ps : List Sight) (rests : List Rest)
    (cs : List Call) (settings : List (Option ChannelId)) : Prop where
  begun : xs.filterMap pollBegun? = ps.map Sight.began
  ended : xs.filterMap pollEnded? = ps.map Sight.ended
  answers : Exchange.polls (xs.map TimedExchange.exchange) = ps.map Sight.answer
  pauses : xs.filterMap pause? = rests
  calls : calls xs = cs
  settings : xs.filterMap setting? = settings

theorem Shows.append {xs ys : List TimedExchange} {ps qs : List Sight} {rests rests' : List Rest}
    {cs cs' : List Call} {settings settings' : List (Option ChannelId)}
    (hx : Shows xs ps rests cs settings) (hy : Shows ys qs rests' cs' settings') :
    Shows (xs ++ ys) (ps ++ qs) (rests ++ rests') (cs ++ cs') (settings ++ settings') where
  begun := by rw [List.filterMap_append, hx.begun, hy.begun, List.map_append]
  ended := by rw [List.filterMap_append, hx.ended, hy.ended, List.map_append]
  answers := by
    rw [List.map_append, List.map_append, ← hx.answers, ← hy.answers]
    exact List.filterMap_append
  pauses := by rw [List.filterMap_append, hx.pauses, hy.pauses]
  calls := by rw [calls_append, hx.calls, hy.calls]
  settings := by rw [List.filterMap_append, hx.settings, hy.settings]

end TimedExchange

open TimedExchange

/-- The polls `qs` and then `q` wait for the controller, from `start` and after such calls: all
before the last have failed before the deadline, each is followed by a pause, and the last has failed
only at the deadline or later. -/
structure Awaits (L : Link.Behaviour) (made : List Call) (start deadline : Nat) (qs : List Sight)
    (q : Sight) : Prop where
  first : (qs ++ [q]).head?.map Sight.began = some start
  vain : ∀ p ∈ qs, p.answer.isOk = false ∧ p.ended < deadline
  paced : (qs ++ [q]).IsChain fun p p' => p.ended + Timing.startPoll ≤ p'.began
  late : q.answer.isOk = false → deadline ≤ q.ended
  heard : ∀ n (p : Sight), (qs ++ [q])[n]? = some p →
    p.Heard L (made ++ List.replicate n .pollStatus)

namespace Awaits

variable {L : Link.Behaviour} {made : List Call} {start start' deadline : Nat} {p q : Sight}
  {qs : List Sight}

theorem one (hstart : q.began = start) (hlate : q.answer.isOk = false → deadline ≤ q.ended)
    (hheard : q.Heard L made) : Awaits L made start deadline [] q where
  first := congrArg some hstart
  vain := List.forall_mem_nil _
  paced := .singleton q
  late := hlate
  heard n p hp := by
    cases n with
    | zero =>
      obtain rfl := Option.some.inj hp
      rwa [List.replicate_zero, List.append_nil]
    | succ n => cases hp

theorem cons (hstart : p.began = start) (hvain : p.answer.isOk = false) (hsoon : p.ended < deadline)
    (hheard : p.Heard L made) (hpause : p.ended + Timing.startPoll ≤ start')
    (h : Awaits L (made ++ [.pollStatus]) start' deadline qs q) :
    Awaits L made start deadline (p :: qs) q where
  first := congrArg some hstart
  vain := List.forall_mem_cons.2 ⟨⟨hvain, hsoon⟩, h.vain⟩
  paced := by
    refine List.isChain_cons.2 ⟨fun p' hp' => ?_, h.paced⟩
    have hbegan : (some p').map Sight.began = some start' := by
      rw [← Option.mem_def.1 hp']
      exact h.first
    rwa [Option.some.inj hbegan]
  late := h.late
  heard n p' hp' := by
    cases n with
    | zero =>
      obtain rfl := Option.some.inj hp'
      rwa [List.replicate_zero, List.append_nil]
    | succ n =>
      have hheard' := h.heard n p' hp'
      rwa [List.append_assoc] at hheard'

theorem began_ge (h : Awaits L made start deadline qs q) (i : Nat) (hi : i < (qs ++ [q]).length) :
    start + i * Timing.startPoll ≤ (qs ++ [q])[i].began := by
  induction i with
  | zero =>
    have hfirst := h.first
    rw [List.head?_eq_getElem?, List.getElem?_eq_getElem hi] at hfirst
    rw [Nat.zero_mul]
    exact Nat.le_of_eq (Option.some.inj hfirst).symm
  | succ i ih =>
    have hbefore := ih (Nat.lt_of_succ_lt hi)
    have hpaced := List.isChain_iff_getElem.1 h.paced i hi
    have hends := (h.heard i _ (List.getElem?_eq_getElem (Nat.lt_of_succ_lt hi))).began_le
    rw [Nat.succ_mul]
    omega

theorem few {limit : Nat} (h : Awaits L made start (start + limit) qs q) :
    qs.length ≤ limit ⌈/⌉ Timing.startPoll := by
  rcases List.eq_nil_or_concat' qs with rfl | ⟨ps, p, rfl⟩
  · exact Nat.zero_le _
  · have hlast : ps.length < (ps ++ [p] ++ [q]).length := by simp
    have hp : (ps ++ [p] ++ [q])[ps.length] = p := by simp
    have hbegan := h.began_ge ps.length hlast
    have hended := (h.heard _ _ (List.getElem?_eq_getElem hlast)).began_le
    have hsoon := (h.vain p (List.mem_append_right _ List.mem_cons_self)).2
    rw [hp] at hbegan hended
    rw [List.length_append, List.length_singleton, Nat.succ_le_iff]
    refine Nat.lt_of_not_le fun hmany => ?_
    have hall := (ceilDiv_le_iff_le_mul (by decide)).1 hmany
    rw [Nat.mul_comm] at hall
    omega

end Awaits

namespace Job

variable {L : Link.Behaviour} {made : List Call} {start stop : Nat} {xs : List TimedExchange}

theorem runs_locked_inside {l : Lock} {i : Inside} {a : i.Answer} (hl : l ≠ .polling)
    (h : Runs L made start (locked l (inside i)) xs stop (.done a)) :
    Shows xs [] [] [] (match i with | .setChannel c? => [c?] | _ => []) := by
  obtain ⟨_, _, xs, rfl, -, h₁⟩ := h.ask_cases
  obtain ⟨_, _, xs, rfl, -, h₂⟩ := Runs.ask_cases h₁
  obtain ⟨_, _, xs, rfl, -, h₃⟩ := Runs.ask_cases h₂
  obtain ⟨rfl, -, -⟩ := h₃.done_cases
  cases l with
  | polling => exact absurd rfl hl
  | channel | cache | editing => cases i <;> exact ⟨rfl, rfl, rfl, rfl, rfl, rfl⟩

theorem runs_pollStatus {s? : Option Status}
    (h : Runs L made start pollStatus xs stop (.done s?)) :
    ∃ p : Sight, p.began = start ∧ p.ended = stop ∧ p.Heard L made ∧
      s? = p.answer.toOption ∧ Shows xs [p] [] [.pollStatus] [] := by
  obtain ⟨_, _, xs, rfl, hturn, h₁⟩ := h.ask_cases
  obtain ⟨answer, heard, xs, rfl, hlink, h₂⟩ := Runs.ask_cases h₁
  have hheard : ∀ stop, heard ≤ stop → Sight.Heard L made ⟨start, stop, answer⟩ := by
    obtain ⟨d, hL, rfl⟩ := hlink
    simp only [Request.call?, Option.toList_none, List.append_nil] at hL
    exact fun stop hstop => ⟨d, hL, Nat.le_trans (Nat.add_le_add_right hturn d) hstop⟩
  have hstop := h₂.start_le
  cases answer with
  | ok s =>
    obtain ⟨_, _, xs, rfl, -, h₃⟩ := Runs.ask_cases h₂
    obtain ⟨_, _, xs, rfl, -, h₄⟩ := Runs.ask_cases h₃
    obtain ⟨_, _, xs, rfl, -, h₅⟩ := Runs.ask_cases h₄
    obtain ⟨_, _, xs, rfl, -, h₆⟩ := Runs.ask_cases h₅
    obtain ⟨_, _, xs, rfl, -, h₇⟩ := Runs.ask_cases h₆
    obtain ⟨rfl, rfl, hdone⟩ := h₇.done_cases
    cases hdone
    exact ⟨_, rfl, rfl, hheard _ hstop, rfl, ⟨rfl, rfl, rfl, rfl, rfl, rfl⟩⟩
  | error e =>
    obtain ⟨_, _, xs, rfl, -, h₃⟩ := Runs.ask_cases h₂
    obtain ⟨_, _, xs, rfl, -, h₄⟩ := Runs.ask_cases h₃
    obtain ⟨_, _, xs, rfl, -, h₅⟩ := Runs.ask_cases h₄
    obtain ⟨_, _, xs, rfl, -, h₆⟩ := Runs.ask_cases h₅
    obtain ⟨rfl, rfl, hdone⟩ := h₆.done_cases
    cases hdone
    exact ⟨_, rfl, rfl, hheard _ hstop, rfl, ⟨rfl, rfl, rfl, rfl, rfl, rfl⟩⟩

end Job

namespace Handle

open Job

variable {L : Link.Behaviour} {made : List Call} {start stop : Nat} {xs : List TimedExchange}

theorem runs_awaitAnswer_succ {deadline tries : Nat} {answered : Bool}
    (h : Runs L made start (awaitAnswer deadline (tries + 1)) xs stop (.done answered)) :
    ∃ (p : Sight) (us ys : List TimedExchange), xs = us ++ ys ∧ p.began = start ∧
      p.Heard L made ∧
      (Shows xs [p] [] [.pollStatus] [] ∧ p.answer.isOk = answered ∧
          (p.answer.isOk = false → deadline ≤ p.ended) ∨
        p.answer.isOk = false ∧ p.ended < deadline ∧
          ∃ next, p.ended + Timing.startPoll ≤ next ∧
            Shows us [p] [⟨Timing.startPoll, p.ended, next⟩] [.pollStatus] [] ∧
            Runs L (made ++ [.pollStatus]) next (awaitAnswer deadline tries) ys stop
              (.done answered)) := by
  obtain ⟨us, ended, s?, ys, rfl, hpoll, hrest⟩ := Runs.bind_cases h
  obtain ⟨p, hbegan, rfl, hheard, rfl, hshows⟩ := runs_pollStatus hpoll
  rw [hshows.calls] at hrest
  cases hanswer : p.answer with
  | ok s =>
    rw [hanswer] at hrest
    obtain ⟨rfl, -, hdone⟩ := Runs.done_cases hrest
    cases hdone
    refine ⟨p, us, [], rfl, hbegan, hheard, .inl ⟨?_, congrArg Except.isOk hanswer, ?_⟩⟩
    · rwa [List.append_nil]
    · rw [hanswer]
      exact nofun
  | error e =>
    have hvain : p.answer.isOk = false := congrArg Except.isOk hanswer
    rw [hanswer] at hrest
    obtain ⟨now, _, ys, rfl, ⟨rfl, rfl⟩, hrest⟩ := Runs.ask_cases hrest
    change Runs L _ _ (if deadline ≤ p.ended then Job.done false else
      .ask (.outside (.sleep Timing.startPoll)) fun _ => awaitAnswer deadline tries) _ _ _ at hrest
    split at hrest
    next hlate =>
      obtain ⟨rfl, -, hdone⟩ := hrest.done_cases
      cases hdone
      have hclock : Shows [⟨⟨.outside .clock, p.ended⟩, p.ended, p.ended⟩] [] [] [] [] :=
        ⟨rfl, rfl, rfl, rfl, rfl, rfl⟩
      exact ⟨p, us, _, rfl, hbegan, hheard, .inl ⟨hshows.append hclock, hvain, fun _ => hlate⟩⟩
    next hsoon =>
      obtain ⟨_, next, ys, rfl, hpause, hrest⟩ := hrest.ask_cases
      have hpaused : Shows [⟨⟨.outside .clock, p.ended⟩, p.ended, p.ended⟩,
          ⟨⟨.outside (.sleep Timing.startPoll), ()⟩, p.ended, next⟩] []
          [⟨Timing.startPoll, p.ended, next⟩] [] [] := ⟨rfl, rfl, rfl, rfl, rfl, rfl⟩
      simp only [Request.call?, Option.toList_none, List.append_nil] at hrest
      exact ⟨p, us ++ [_, _], ys, (List.append_assoc us [_, _] ys).symm, hbegan, hheard,
        .inr ⟨hvain, Nat.lt_of_not_le hsoon, next, hpause, hshows.append hpaused, hrest⟩⟩

/-- The tries are never what ends the wait: each takes up a pause, and they outlast the deadline. -/
theorem runs_awaitAnswer {deadline tries : Nat} {answered : Bool}
    (htries : deadline ≤ start + tries * Timing.startPoll)
    (h : Runs L made start (awaitAnswer deadline (tries + 1)) xs stop (.done answered)) :
    ∃ qs q, Awaits L made start deadline qs q ∧ q.answer.isOk = answered ∧
      Shows xs (qs ++ [q]) (Sight.pauses (qs ++ [q]))
        (List.replicate (qs.length + 1) .pollStatus) [] := by
  induction tries generalizing made start xs with
  | zero =>
    obtain ⟨p, us, ys, rfl, hbegan, hheard, ⟨hshows, hanswer, hlate⟩ | ⟨-, hsoon, -⟩⟩ :=
      runs_awaitAnswer_succ h
    · exact ⟨[], p, .one hbegan hlate hheard, hanswer, hshows⟩
    · have hends := hheard.began_le
      omega
  | succ tries ih =>
    obtain ⟨p, us, ys, rfl, hbegan, hheard, hend | ⟨hvain, hsoon, next, hpause, hshows, hrest⟩⟩ :=
      runs_awaitAnswer_succ h
    · obtain ⟨hshows, hanswer, hlate⟩ := hend
      exact ⟨[], p, .one hbegan hlate hheard, hanswer, hshows⟩
    · have hends := hheard.began_le
      rw [Nat.succ_mul] at htries
      obtain ⟨qs, q, hawaits, hanswer, hshows'⟩ := ih (by omega) hrest
      refine ⟨p :: qs, q, .cons hbegan hvain hsoon hheard hpause hawaits, hanswer, ?_⟩
      rw [List.cons_append, Sight.pauses_cons p hawaits.first]
      exact hshows.append hshows'

theorem asks_startCnc (s : Setup) :
    (startCnc s).Asks fun r => ∀ c, r = .outside (.link c) → c = .pollStatus ∨ c = .launch := by
  have hpoll : pollStatus.Asks fun r =>
      ∀ c, r = .outside (.link c) → c = .pollStatus ∨ c = .launch := by
    refine asks_pollStatus_of ⟨nofun, nofun⟩ ⟨nofun, nofun⟩ ?_ (fun _ => ⟨nofun, nofun⟩) nofun
    intro c hc
    cases hc
    exact .inl rfl
  refine hpoll.bind fun s? => ?_
  cases s? with
  | some s => trivial
  | none =>
    refine ⟨fun c hc => .inr ?_, fun x => ?_⟩
    · cases hc
      rfl
    cases x with
    | error e => trivial
    | ok =>
      refine ⟨nofun, fun now => (asks_awaitAnswer hpoll nofun nofun _ _).bind fun answered => ?_⟩
      cases answered with
      | true => exact Asks.bind (Asks.locked nofun nofun ⟨nofun, fun _ => trivial⟩) fun _ => trivial
      | false => trivial

def afterLaunch (s : Setup) : Job Reply := do
  let deadline := (← outside .clock) + s.startTimeout
  if ← awaitAnswer deadline (s.startTimeout / Timing.startPoll + 2) then
    resetChannel
    return .of .ok
  else return .of .startTimedOut

theorem runs_afterLaunch {s : Setup} {r : Reply}
    (h : Runs L made start (afterLaunch s) xs stop (.done r)) :
    ∃ qs q, Awaits L made start (start + s.startTimeout) qs q ∧
      Shows xs (qs ++ [q]) (Sight.pauses (qs ++ [q])) (List.replicate (qs.length + 1) .pollStatus)
        (if q.answer.isOk then [none] else []) ∧
      r.outcome.view =
        (if q.answer.isOk then ⟨"OK", 0⟩ else ⟨"controller start timed out", -2⟩) := by
  obtain ⟨_, start, xs, rfl, ⟨rfl, rfl⟩, hrest⟩ := Runs.ask_cases h
  simp only [Request.call?, Option.toList_none, List.append_nil] at hrest
  change Runs L _ _ ((awaitAnswer _ _).bind _) _ _ _ at hrest
  obtain ⟨us, now, answered, ys, rfl, hwait, hend⟩ := hrest.bind_cases
  have htries : start + s.startTimeout ≤
      start + (s.startTimeout / Timing.startPoll + 1) * Timing.startPoll := by
    have hlimit := Nat.lt_div_mul_add (a := s.startTimeout) (b := Timing.startPoll) (by decide)
    rw [Nat.succ_mul]
    omega
  obtain ⟨qs, q, hawaits, rfl, hshows⟩ := runs_awaitAnswer htries hwait
  have hclock : Shows [⟨⟨.outside .clock, start⟩, start, start⟩] [] [] [] [] :=
    ⟨rfl, rfl, rfl, rfl, rfl, rfl⟩
  refine ⟨qs, q, hawaits, ?_⟩
  cases hanswer : q.answer.isOk with
  | false =>
    rw [hanswer] at hend
    obtain ⟨rfl, -, hdone⟩ := Runs.done_cases hend
    cases hdone
    refine ⟨?_, rfl⟩
    rw [List.append_nil]
    exact hclock.append hshows
  | true =>
    rw [hanswer] at hend
    obtain ⟨vs, _, _, zs, rfl, hreset, hdone⟩ := Runs.bind_cases hend
    obtain ⟨rfl, -, hdone⟩ := Runs.done_cases hdone
    cases hdone
    have hdropped : Shows vs [] [] [] [none] := runs_locked_inside (by decide) hreset
    refine ⟨?_, rfl⟩
    have hall := (hclock.append hshows).append hdropped
    simpa using hall

theorem exists_reply {s : Setup} {now : Nat} {j : Job Reply}
    (hlink : ∀ made, (L made .pollStatus).isSome ∧ (L made .launch).isSome)
    (h : Runs L [] start (startCnc s) xs now j) :
    ∃ ys stop r, Runs L [] start (startCnc s) (xs ++ ys) stop (.done r) := by
  obtain ⟨ys, stop, hend | ⟨c, k, hstuck, hnone⟩⟩ := h.exists_end
  · exact ⟨ys, stop, hend⟩
  · obtain ⟨hpoll, hlaunch⟩ := hlink ([] ++ TimedExchange.calls (xs ++ ys))
    rcases (hstuck.reaches.asks (asks_startCnc s)).1.1 c rfl with rfl | rfl
    · rw [hnone] at hpoll
      cases hpoll
    · rw [hnone] at hlaunch
      cases hlaunch

/-- A start whose first poll is answered replies that the controller runs already. Otherwise it
launches once. A launch that fails ends it; after any other it polls, with a pause after each poll
that fails, until a poll is answered, which drops the error channel, or a poll that fails is over at
the deadline or later. So there are at most as many polls after the launch as pauses begin within the
limit, and one. There is no run without end, and as long as the link answers, every run goes on to a
reply. -/
theorem startCnc_by_deadline (L : Link.Behaviour) (s : Setup) (start : Nat) :
    (∀ xs stop r, Runs L [] start (startCnc s) xs stop (.done r) →
      ∃ p : Sight, p.began = start ∧ p.Heard L [] ∧
        (p.answer.isOk = true →
          Shows xs [p] [] [.pollStatus] [] ∧ r.outcome.view = ⟨"already running", -1⟩) ∧
        (p.answer.isOk = false →
          ∃ d launched, L [.pollStatus] .launch = some (d, launched) ∧
            (∀ e, launched = .error e → Shows xs [p] [] [.pollStatus, .launch] [] ∧
              r.outcome.view = ⟨"controller start error: " ++ e.message, -2⟩) ∧
            (launched = .ok () → ∃ qs q,
              Awaits L [.pollStatus, .launch] (p.ended + d) (p.ended + d + s.startTimeout) qs q ∧
              (qs ++ [q]).length ≤ s.startTimeout ⌈/⌉ Timing.startPoll + 1 ∧
              Shows xs (p :: (qs ++ [q])) (Sight.pauses (qs ++ [q]))
                (.pollStatus :: .launch :: List.replicate (qs.length + 1) .pollStatus)
                (if q.answer.isOk then [none] else []) ∧
              r.outcome.view = (if q.answer.isOk then ⟨"OK", 0⟩
                else ⟨"controller start timed out", -2⟩)))) ∧
    (∀ f : Nat → TimedExchange,
      ∃ n, ∀ now j, ¬ Runs L [] start (startCnc s) ((List.range n).map f) now j) ∧
    ((∀ made, (L made .pollStatus).isSome ∧ (L made .launch).isSome) →
      ∀ xs now j, Runs L [] start (startCnc s) xs now j →
        ∃ ys stop r, Runs L [] start (startCnc s) (xs ++ ys) stop (.done r)) := by
  refine ⟨fun xs stop r h => ?_, not_endless L [] start (startCnc s), fun hlink xs now j h => ?_⟩
  · obtain ⟨us, ended, s?, ys, rfl, hpoll, hrest⟩ := Runs.bind_cases h
    obtain ⟨p, hbegan, rfl, hheard, rfl, hshows⟩ := runs_pollStatus hpoll
    rw [hshows.calls] at hrest
    refine ⟨p, hbegan, hheard, ?_⟩
    cases hanswer : p.answer with
    | ok s =>
      rw [hanswer] at hrest
      obtain ⟨rfl, -, hdone⟩ := Runs.done_cases hrest
      cases hdone
      rw [List.append_nil]
      exact ⟨fun _ => ⟨hshows, rfl⟩, nofun⟩
    | error e =>
      rw [hanswer] at hrest
      obtain ⟨launched, _, ys, rfl, ⟨d, hL, rfl⟩, hrest⟩ := Runs.ask_cases hrest
      have hlaunched : Shows [⟨⟨.outside (.link .launch), launched⟩, p.ended, p.ended + d⟩] [] []
        [.launch] [] := ⟨rfl, rfl, rfl, rfl, rfl, rfl⟩
      refine ⟨nofun, fun _ => ⟨d, launched, hL, ?_, ?_⟩⟩
      · rintro e' rfl
        obtain ⟨rfl, -, hdone⟩ := Runs.done_cases hrest
        cases hdone
        exact ⟨hshows.append hlaunched, rfl⟩
      · rintro rfl
        obtain ⟨qs, q, hawaits, hshows', hview⟩ := runs_afterLaunch hrest
        refine ⟨qs, q, hawaits, ?_, hshows.append (hlaunched.append hshows'), hview⟩
        rw [List.length_append, List.length_singleton]
        exact Nat.succ_le_succ hawaits.few
  · exact exists_reply hlink h

def waking : Link.Behaviour
  | made, .pollStatus => some (20, if made.length < 4 then .error .channelClosed else .ok default)
  | _, .launch => some (100, .ok ())
  | _, _ => none

def failedPoll (start : Nat) : List TimedExchange := [
  ⟨⟨.acquire .polling, ()⟩, start, start⟩,
  ⟨⟨.outside (.link .pollStatus), .error .channelClosed⟩, start, start + 20⟩,
  ⟨⟨.acquire .cache, ()⟩, start + 20, start + 20⟩,
  ⟨⟨.inside .markDown, false⟩, start + 20, start + 20⟩,
  ⟨⟨.release .cache, ()⟩, start + 20, start + 20⟩,
  ⟨⟨.release .polling, ()⟩, start + 20, start + 20⟩]

def answeredPoll (start : Nat) : List TimedExchange := [
  ⟨⟨.acquire .polling, ()⟩, start, start⟩,
  ⟨⟨.outside (.link .pollStatus), .ok default⟩, start, start + 20⟩,
  ⟨⟨.acquire .cache, ()⟩, start + 20, start + 20⟩,
  ⟨⟨.inside (.store default), true⟩, start + 20, start + 20⟩,
  ⟨⟨.release .cache, ()⟩, start + 20, start + 20⟩,
  ⟨⟨.inside (.announceStatus default), (0 : Nat)⟩, start + 20, start + 20⟩,
  ⟨⟨.release .polling, ()⟩, start + 20, start + 20⟩]

theorem runs_failedPoll (start : Nat)
    (hL : L made .pollStatus = some (20, .error .channelClosed)) :
    Runs L made start pollStatus (failedPoll start) (start + 20) (.done none) := by
  have hL' : L (made ++ []) .pollStatus = some (20, .error .channelClosed) := by
    rwa [List.append_nil]
  refine .cons (Nat.le_refl _) (.cons ⟨20, hL', rfl⟩ ?_)
  exact .cons (Nat.le_refl _) (.cons rfl (.cons rfl (.cons rfl (.refl _ _ _))))

theorem runs_answeredPoll (start : Nat) (hL : L made .pollStatus = some (20, .ok default)) :
    Runs L made start pollStatus (answeredPoll start) (start + 20) (.done (some default)) := by
  have hL' : L (made ++ []) .pollStatus = some (20, .ok default) := by rwa [List.append_nil]
  refine .cons (Nat.le_refl _) (.cons ⟨20, hL', rfl⟩ ?_)
  exact .cons (Nat.le_refl _) (.cons rfl (.cons rfl (.cons rfl (.cons rfl (.refl _ _ _)))))

def pausedRun (start : Nat) : List TimedExchange := [
  ⟨⟨.outside .clock, start⟩, start, start⟩,
  ⟨⟨.outside (.sleep Timing.startPoll), ()⟩, start, start + Timing.startPoll⟩]

theorem runs_awaitAnswer_failed {deadline tries : Nat} {answered : Bool}
    (hL : L made .pollStatus = some (20, .error .channelClosed)) (hsoon : start + 20 < deadline)
    (h : Runs L (made ++ [.pollStatus]) (start + 20 + Timing.startPoll)
      (awaitAnswer deadline tries) xs stop (.done answered)) :
    Runs L made start (awaitAnswer deadline (tries + 1))
      (failedPoll start ++ (pausedRun (start + 20) ++ xs)) stop (.done answered) := by
  refine (runs_failedPoll start hL).bind (.cons ⟨rfl, rfl⟩ ?_)
  change Runs L _ _ (if deadline ≤ start + 20 then Job.done false else
    .ask (.outside (.sleep Timing.startPoll)) fun _ => awaitAnswer deadline tries) _ _ _
  rw [if_neg (Nat.not_le_of_lt hsoon)]
  have hmade : made ++ [Call.pollStatus] = made ++ [Call.pollStatus] ++ [] ++ [] := by
    rw [List.append_nil, List.append_nil]
  rw [hmade] at h
  exact .cons (Nat.le_refl _) h

/-- A start with a limit of 500 milliseconds: the polls that begin before the deadline fail, and the
one after it is answered. -/
def wakingRun : List TimedExchange :=
  failedPoll 0 ++ ⟨⟨.outside (.link .launch), .ok ()⟩, 20, 120⟩ ::
    ⟨⟨.outside .clock, (120 : Nat)⟩, 120, 120⟩ ::
    ((failedPoll 120 ++
        (pausedRun 140 ++ (failedPoll 440 ++ (pausedRun 460 ++ answeredPoll 760)))) ++
      [⟨⟨.acquire .channel, ()⟩, 780, 780⟩,
      ⟨⟨.inside (.setChannel none), ()⟩, 780, 780⟩,
      ⟨⟨.release .channel, ()⟩, 780, 780⟩])

def hasty : Setup :=
  { (default : Setup) with startTimeout := 500 }

theorem runs_waking : Runs waking [] 0 (startCnc hasty) wakingRun 780 (.done (.of .ok)) := by
  have hthird : Runs waking [.pollStatus, .launch, .pollStatus, .pollStatus] 760
      (awaitAnswer 620 1) (answeredPoll 760) 780 (.done true) := by
    rw [← List.append_nil (answeredPoll 760)]
    exact (runs_answeredPoll 760 rfl).bind (.refl _ _ _)
  have hwait : Runs waking [.pollStatus, .launch] 120 (awaitAnswer 620 3) _ 780 (.done true) :=
    runs_awaitAnswer_failed rfl (by decide) (runs_awaitAnswer_failed rfl (by decide) hthird)
  refine (runs_failedPoll 0 rfl).bind (.cons ⟨100, rfl, rfl⟩ (.cons ⟨rfl, rfl⟩ ?_))
  refine hwait.bind (.cons (Nat.le_refl _) (.cons rfl (.cons rfl (.refl _ _ _))))

theorem startCnc_by_deadline_waking :
    Runs waking [] 0 (startCnc hasty) wakingRun 780 (.done (.of .ok)) ∧
    (∃ p qs q, Shows wakingRun (p :: (qs ++ [q])) (Sight.pauses (qs ++ [q]))
        [.pollStatus, .launch, .pollStatus, .pollStatus, .pollStatus] [none] ∧
      Awaits waking [.pollStatus, .launch] 120 620 qs q ∧ q.ended = 780) ∧
    (∃ n, ∀ now j, ¬ Runs waking [] 0 (startCnc hasty)
      ((List.range n).map fun _ => ⟨⟨.outside .clock, (0 : Nat)⟩, 0, 0⟩) now j) ∧
    ∃ ys stop r, Runs waking [] 0 (startCnc hasty) ([] ++ ys) stop (.done r) := by
  obtain ⟨hruns, hendless, hends⟩ := startCnc_by_deadline waking hasty 0
  obtain ⟨p, -, ⟨d, hpoll, -⟩, -, hvain⟩ := hruns _ _ _ runs_waking
  have hfailed : p.answer = .error .channelClosed :=
    (Prod.mk.inj (Option.some.inj hpoll)).2.symm
  obtain ⟨d, launched, hlaunch, -, htaken⟩ := hvain (congrArg Except.isOk hfailed)
  cases hlaunch
  obtain ⟨qs, q, hawaits, -, hshows, -⟩ := htaken rfl
  have hcalls : [.pollStatus, .launch, .pollStatus, .pollStatus, .pollStatus] =
      Call.pollStatus :: .launch :: List.replicate (qs.length + 1) .pollStatus := hshows.calls
  have hsettings : [none] = if q.answer.isOk then [none] else [] := hshows.settings
  have hended : [20, 140, 460, 780] = p.ended :: (qs ++ [q]).map Sight.ended := hshows.ended
  obtain ⟨hfirst, hlater⟩ := List.cons.inj hended
  rw [← hcalls, ← hsettings] at hshows
  rw [← hfirst] at hawaits
  have hlast : [140, 460, 780].getLast? = some q.ended := by
    rw [hlater, List.map_append, List.map_singleton, List.getLast?_concat]
  refine ⟨runs_waking, ⟨p, qs, q, hshows, hawaits, (Option.some.inj hlast).symm⟩, hendless _, ?_⟩
  exact hends (fun made => ⟨rfl, rfl⟩) [] 0 _ (.refl _ _ _)

end Handle

end MillGateway
