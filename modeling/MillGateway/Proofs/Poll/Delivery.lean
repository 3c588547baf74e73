import MillGateway.Proofs.Crowd.Section
import MillGateway.Proofs.Crowd.News
import MillGateway.Proofs.Crowd.Play
import MillGateway.Proofs.Poll.Protocol

/-! What status observers receive. Main statement: each status that goes into the cache goes to the
observers that are listed then, in their order and before anybody asks the controller again, and what
a subscription receives is what is delivered while it is listed. -/

namespace MillGateway

open Machine Subscription

namespace Poll

open Crowd

/-! ### Rounds -/

inductive Beat where
  | read (o : Option Status)
  | stored (s : Status)
  | delivered (s : Status)

def beat? : (r : Request) → r.Answer → Option Beat
  | .outside (.link .pollStatus), a => some (.read a.toOption)
  | .inside (.store s), _ => some (.stored s)
  | .inside (.announceStatus s), _ => some (.delivered s)
  | _, _ => none

def Phase.beats : Phase → List Beat
  | .idle | .holding => []
  | .heard o => [.read o]
  | .stored s => [.read (some s), .stored s]
  | .settled none => [.read none]
  | .settled (some s) => [.read (some s), .stored s, .delivered s]

/-- What a poll does that has ended. A status that it has read goes into the cache and is delivered. -/
def Whole (l : List Beat) : Prop :=
  l = [.read none] ∨ ∃ s, l = [.read (some s), .stored s, .delivered s]

def Early (l : List Beat) : Prop :=
  l = [] ∨ ∃ o, l = [.read o]

theorem beat?_of_other {r : Request} (a : r.Answer) (hr : r.isPolling = false) :
    beat? r a = none := by
  cases r with
  | outside o =>
    cases o with
    | link c => cases c <;> first | rfl | cases hr
    | _ => rfl
  | inside x => cases x <;> first | rfl | cases hr
  | acquire | release => rfl

theorem whole_settled (o : Option Status) : Whole (Phase.settled o).beats := by
  cases o with
  | none => exact .inl rfl
  | some s => exact .inr ⟨s, rfl⟩

theorem early_of_entered {p : Phase} (hp : p.entered? = none) : Early p.beats := by
  cases p with
  | idle | holding => exact .inl rfl
  | heard o => exact .inr ⟨o, rfl⟩
  | stored | settled => cases hp

theorem sections_turn : Sections Turn (· ≠ .idle) beat? Phase.beats Whole where
  apart := by
    intro ph r a ph' h hout hout'
    cases h with
    | take => exact absurd nofun hout'
    | other hr => exact beat?_of_other a hr
    | _ => exact absurd nofun hout
  enter := by
    intro ph r a ph' h hout hin
    cases h with
    | take => rfl
    | other => exact absurd hin hout
    | _ => exact absurd nofun hout
  stay := by
    intro ph r a ph' h hin hin'
    cases h with
    | take => exact absurd rfl hin
    | give => exact absurd rfl hin'
    | other hr => rw [beat?_of_other a hr, Option.toList_none, List.append_nil]
    | _ => rfl
  leave := by
    intro ph r a ph' h hin hout
    cases h with
    | @give o a =>
      have hnone : (beat? (.release .polling) a).toList = [] := rfl
      rw [hnone, List.append_nil]
      exact whole_settled o
    | other => exact absurd hin hout
    | _ => exact absurd nofun hout

section

variable [DecidableEq ω] {R : Rules α σ χ ω ε} {s₀ s s' : Crowd α σ ω ε} {e : Crowd.Event χ}
  {ph ph' : TaskId → Phase} {m : List (TaskId × Beat)}

structure Polling (s : Crowd α σ ω ε) (ph : TaskId → Phase) (m : List (TaskId × Beat)) : Prop where
  follows : Follows Turn Ends (fun _ => .idle) s ph
  excludes : Excludes .polling (· ≠ .idle) s ph
  sectioned : Sectioned (· ≠ .idle) Phase.beats Whole Early s ph m

theorem Polling.step (hjobs : ∀ i j, R.jobs i = some j → j.Keeps Turn Ends .idle)
    (h : Polling s ph m) (hstep : Step R s e s') :
    ∃ ph', Polling s' ph' (m ++ (e.mark? beat?).toList) := by
  obtain ⟨ph', hadv, hfollows⟩ := h.follows.step hjobs hstep
  have hexcludes := guards_polling.step (fun i hi => hi rfl) h.follows h.excludes hstep hadv
  refine ⟨ph', hfollows, hexcludes, ?_⟩
  refine h.sectioned.step sections_turn (fun i hi => hi rfl) h.follows hstep hadv
    h.excludes.alone hexcludes.alone ?_
  -- a task that has entered its outcome does not wait, so it is not dropped
  rintro i rfl ⟨hjob, -⟩
  cases hstep with
  | dropped hp hsuspended _ =>
    apply early_of_entered
    cases ho : (ph i).entered? with
    | none => rfl
    | some o =>
      rw [(midway_of_follows h.follows hp hjob ho).1] at hsuspended
      cases hsuspended

theorem polling_of_run {es : List (Crowd.Event χ)}
    (hjobs : ∀ i j, R.jobs i = some j → j.Keeps Turn Ends .idle) (hs₀ : s₀.Fresh)
    (h : Run R s₀ es s) : ∃ ph, Polling s ph (marks beat? es) := by
  induction h with
  | nil => exact ⟨fun _ => .idle, hs₀.follows, hs₀.excludes, hs₀.sectioned⟩
  | @snoc es s e s' _ hstep ih =>
    obtain ⟨ph, ih⟩ := ih
    have hsnoc : marks beat? (es ++ [e]) = marks beat? es ++ (e.mark? beat?).toList :=
      filterMap_snoc _ es e
    rw [hsnoc]
    exact ih.step hjobs hstep

omit [DecidableEq ω] in
theorem Polling.rounds (h : Polling s ph m) :
    ∃ ls i l, m = oneByOne ls ++ ofTask i l ∧ (∀ x ∈ ls, Over Whole Early s x) ∧
      (Whole l ∨ Early l ∨ ∃ st, l = [.read (some st), .stored st]) ∧
      (s.Rests → Whole l ∨ Early l) ∧
      ∀ i' k, s.tasks i' = some (.away (.link .pollStatus) k) → l = [] := by
  obtain ⟨ls, rest, rfl, hls, hin, hout⟩ := h.sectioned.exists_sections
  by_cases hnone : ∀ i, ¬ Within (· ≠ .idle) s ph i
  · refine ⟨ls, 0, [], ?_, hls, .inr (.inl (.inl rfl)), fun _ => .inr (.inl rfl), fun _ _ _ => rfl⟩
    rw [hout hnone]
    rfl
  · obtain ⟨i, hi⟩ := not_forall_not.1 hnone
    refine ⟨ls, i, (ph i).beats, ?_, hls, ?_, ?_, ?_⟩
    · rw [hin i hi]
    · cases hp : (ph i).entered? with
      | none => exact .inr (.inl (early_of_entered hp))
      | some o =>
        generalize ph i = p at hp
        cases p with
        | stored st => exact .inr (.inr ⟨st, rfl⟩)
        | settled o => exact .inl (whole_settled o)
        | idle | holding | heard => cases hp
    · intro hrests
      cases hp : (ph i).entered? with
      | none => exact .inr (early_of_entered hp)
      | some o =>
        obtain ⟨j, hj⟩ := hi.1
        obtain ⟨p, htask, -⟩ := Option.bind_eq_some_iff.1 hj
        have hmidway := (midway_of_follows h.follows htask hi.1 hp).2
        rw [hrests i p htask] at hmidway
        cases hmidway
    · intro i' k hi'
      have hholding := holding_of_follows h.follows hi'
      have hwithin : Within (· ≠ .idle) s ph i' := by
        refine ⟨⟨_, jobAt_of_task hi'⟩, ?_⟩
        rw [hholding]
        nofun
      rw [h.excludes.alone i i' hi hwithin, hholding]
      rfl

theorem news?_eq_status_iff {e : Crowd.Event χ} {st : Status} :
    e.news? = some (.status st) ↔ ∃ i, e.mark? beat? = some (i, .delivered st) := by
  cases e with
  | looked i x a => cases x <;> simp [Event.news?, Event.mark?, Event.answered?, beat?]
  | heard i o c a =>
    cases o with
    | link call => cases call <;> simp [Event.news?, Event.mark?, Event.answered?, beat?]
    | _ => simp [Event.news?, Event.mark?, Event.answered?, beat?]
  | _ => simp [Event.news?, Event.mark?, Event.answered?, beat?]

end

section

variable [DecidableEq ω] {obs : Observers ω ε} {edits : χ → Edit ω}
  {R : Rules Unit σ χ ω (List (Receipt News ω) × ε)}
  {s₀ s : Crowd Unit σ ω (List (Receipt News ω) × ε)}
  {ms : List (Move Unit σ χ ω (List (Receipt News ω) × ε))}

/-- However the tasks of the gateway come on, whatever observers do, and whoever changes their lists:
polls follow one another, and each that is not dropped before delivers what it has put into the cache
before another one waits for the controller; each delivery goes to all who are listed, in the order of
their subscriptions; a subscription receives what is delivered while it is listed, and nothing after
its observer has failed; and it is listed until then or until it is given up. -/
theorem statuses_delivered_once (hjobs : ∀ i j, R.jobs i = some j → ∃ e : Errand, j = e.job)
    (hR : Noting R obs edits) (hs₀ : s₀.Fresh) (hregistry : s₀.gateway.registry = {})
    (hleft : s₀.gateway.left.1 = []) (h : Trail R s₀ ms s) :
    (∃ ls i l, marks beat? (events ms) = oneByOne ls ++ ofTask i l ∧
      (∀ x ∈ ls, Over Whole Early s x) ∧
      (Whole l ∨ Early l ∨ ∃ st, l = [.read (some st), .stored st]) ∧
      (s.Rests → Whole l ∨ Early l) ∧
      ∀ i' k, s.tasks i' = some (.away (.link .pollStatus) k) → l = []) ∧
    (∀ x ∈ ms, x.receipts.map (fun y => (y.what, y.observer)) =
        x.event.told x.before.gateway.registry ∧ x.before.gateway.registry.Sound ∧
      ∀ st, x.event.news? = some (.status st) ↔
        ∃ i, x.event.mark? beat? = some (i, .delivered st)) ∧
    s.gateway.left.1 = ms.flatMap Move.receipts ∧
    (∀ id, (received .status id ms).map Prod.fst = brought .status id ms ∧
      ∀ l w l', received .status id ms = l ++ (w, false) :: l' → l' = []) ∧
    ∀ ms₁ x ms₂, ms = ms₁ ++ x :: ms₂ → ∀ n ∈ x.before.gateway.registry.status,
      (n ∈ x.after.gateway.registry.status ↔ ¬ Leaves edits x.event x.receipts .status n) ∧
      (n ∉ x.after.gateway.registry.status → s.subscription? .status n.id = none) := by
  have hkeeps : ∀ i j, R.jobs i = some j → j.Keeps Turn Ends .idle := by
    intro i j hj
    obtain ⟨e, rfl⟩ := hjobs i j hj
    exact keeps_errand e
  have hsound : s₀.gateway.registry.Sound := hregistry ▸ Registry.sound_empty
  obtain ⟨ph, hpolling⟩ := polling_of_run hkeeps hs₀ h.run
  refine ⟨hpolling.rounds, fun x hx => ?_, ?_, fun id => ?_, ?_⟩
  · obtain ⟨ms₁, ms₂, rfl⟩ := List.append_of_mem hx
    exact ⟨(h.notes hR hsound).told, h.at_move.1.sound hR hsound, fun st => news?_eq_status_iff⟩
  · rw [h.left_eq hR hsound, hleft, List.nil_append]
  · exact ⟨h.received_eq hR hsound .status id, fun l w l' => h.eq_nil_of_failed hR hsound⟩
  · rintro ms₁ x ms₂ rfl n hn
    exact h.ends_iff (c := .status) hR hsound hn

end

inductive Chance where
  | answers (x : Except Link.Error Status)
  | edits (d : Edit Nat)

def Chance.edit : Chance → Edit Nat
  | .answers _ => .keep
  | .edits d => d

def even : Observers Nat Unit where
  onStatus _ o left := .finish (o % 2 == 0) left
  onEvent _ o left := .finish (o % 2 == 0) left

def audience : Rules Unit Unit Chance Nat (List (Receipt News Nat) × Unit) where
  jobs _ := some Errand.pollStatus.job
  mayDrop _ := true
  observers := even.noting
  answer
    | .link .pollStatus, .answers x, w => some (x, w)
    | _, _, _ => none
  befall c x := some (c.edit.apply x.1, x.2)

/-- Two observers receive the first status. One of them fails, so the second status goes to the other
one alone. -/
theorem statuses_delivered_once_two_polls :
    ∃ ms s, Trail audience { gateway := { left := ([], ()) }, world := () } ms s ∧
      (received .status 0 ms).map Prod.snd = [true, true] ∧
      (received .status 1 ms).map Prod.snd = [false] ∧
      (received .status 0 ms).map Prod.fst = brought .status 0 ms ∧
      ∀ l w l', received .status 1 ms = l ++ (w, false) :: l' → l' = [] := by
  have hreceived : (trace? audience
      ([.befall (.edits (.subscribe .status 4)), .befall (.edits (.subscribe .status 3)), .start 0,
          .start 1] ++ List.replicate 8 (.go 0 (.answers (.ok default))) ++
        List.replicate 8 (.go 1 (.answers (.ok default))))
      { gateway := { left := ([], ()) }, world := () }).map (fun x =>
        ((received .status 0 x.1).map Prod.snd, (received .status 1 x.1).map Prod.snd)) =
          some ([true, true], [false]) := by decide +kernel
  obtain ⟨⟨ms, s⟩, htrace, hreceived⟩ := Option.map_eq_some_iff.1 hreceived
  obtain ⟨hfirst, hsecond⟩ := Prod.mk.inj hreceived
  have htrail := trail_of_trace? .nil htrace
  rw [List.nil_append] at htrail
  have hjobs : ∀ i j, audience.jobs i = some j → ∃ e : Errand, j = e.job := by
    intro i j hj
    exact ⟨.pollStatus, (Option.some.inj hj).symm⟩
  have hnoting : Noting audience even Chance.edit := by
    refine ⟨rfl, fun h => ?_⟩
    cases h
    rfl
  obtain ⟨-, -, -, hall, -⟩ :=
    statuses_delivered_once hjobs hnoting ⟨rfl, rfl⟩ rfl rfl htrail
  exact ⟨ms, s, htrail, hfirst, hsecond, (hall 0).1, (hall 1).2⟩

end Poll

end MillGateway
