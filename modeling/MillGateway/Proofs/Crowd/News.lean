import MillGateway.Proofs.Crowd.Trail
import MillGateway.Proofs.Subscription.Notes

/-! What observers receive while tasks come on. Main statements: a subscription receives what is brought
to its channel while it is listed, once each and in order, and nothing after its observer has failed. -/

namespace MillGateway

open Machine Subscription

inductive News where
  | status (s : Status)
  | event (e : Event)

def News.channel : News → Channel
  | .status _ => .status
  | .event _ => .errors

def Observers.noting (obs : Observers ω ε) : Observers ω (List (Receipt News ω) × ε) where
  onStatus s := noted (.status s) (obs.onStatus s)
  onEvent e := noted (.event e) (obs.onEvent e)

namespace Crowd

def Event.news? : Event χ → Option News
  | .looked _ (.announceStatus s) _ => some (.status s)
  | .looked _ (.announceEvent e) _ => some (.event e)
  | _ => none

def Event.told (e : Event χ) (r : Registry ω) : List (News × ω) :=
  match e.news? with
  | some w => (r.list w.channel).map fun n => (w, n.observer)
  | none => []

/-- Whether a subscription ends with an event: its observer fails, an observer gives it up, or a caller
does. -/
def Leaves (edits : χ → Edit ω) (e : Event χ) (rs : List (Receipt News ω)) (c : Channel)
    (n : Entry ω) : Prop :=
  ((∃ w, e.news? = some w ∧ c = w.channel) ∧ Fails rs n) ∨ (∃ x ∈ rs, (c, n.id) ∈ x.cancelled) ∨
    ∃ k, e = .befell k ∧ edits k = .unsubscribe c n.id

def Move.receipts (x : Move α σ χ ω (List (Receipt News ω) × ε)) : List (Receipt News ω) :=
  x.after.gateway.left.1.drop x.before.gateway.left.1.length

def subscription? (s : Crowd α σ ω ε) (c : Channel) (id : Id) : Option (Entry ω) :=
  (s.gateway.registry.list c).find? fun n => n.id == id

/-- What is brought to a channel while a subscription is listed there. -/
def brought (c : Channel) (id : Id) (ms : List (Move α σ χ ω ε)) : List News :=
  ms.filterMap fun x => x.event.news?.filter fun w =>
    w.channel == c && (x.before.subscription? c id).isSome

/-- What the observer of a subscription receives from its channel while the subscription is listed, and
whether it accepts. -/
def received [DecidableEq ω] (c : Channel) (id : Id)
    (ms : List (Move α σ χ ω (List (Receipt News ω) × ε))) : List (News × Bool) :=
  ms.flatMap fun x =>
    match x.before.subscription? c id with
    | some n => (x.receipts.filter fun y => y.what.channel == c && y.observer == n.observer).map
        fun y => (y.what, y.accepted)
    | none => []

section

variable {s : Crowd α σ ω ε} {c : Channel} {id : Id}

theorem subscription?_eq_none_iff :
    s.subscription? c id = none ↔ ∀ n ∈ s.gateway.registry.list c, n.id ≠ id := by
  unfold subscription?
  rw [List.find?_eq_none]
  simp

theorem of_subscription? {n : Entry ω} (h : s.subscription? c id = some n) :
    n ∈ s.gateway.registry.list c ∧ n.id = id :=
  ⟨List.mem_of_find?_eq_some h, by simpa using List.find?_some h⟩

end

section

variable [DecidableEq ω] {obs : Observers ω ε} {edits : χ → Edit ω}
  {R : Rules α σ χ ω (List (Receipt News ω) × ε)}
  {s₀ s s' : Crowd α σ ω (List (Receipt News ω) × ε)} {e : Event χ}
  {ms ms' : List (Move α σ χ ω (List (Receipt News ω) × ε))}
  {x : Move α σ χ ω (List (Receipt News ω) × ε)} {c : Channel} {id : Id}

structure Noting (R : Rules α σ χ ω (List (Receipt News ω) × ε)) (obs : Observers ω ε)
    (edits : χ → Edit ω) : Prop where
  observers : R.observers = obs.noting
  befall : ∀ {k r w r' w'}, R.befall k (r, w) = some (r', w') → r' = (edits k).apply r

structure Notes (edits : χ → Edit ω) (s : Crowd α σ ω (List (Receipt News ω) × ε)) (e : Event χ)
    (s' : Crowd α σ ω (List (Receipt News ω) × ε)) (rs : List (Receipt News ω)) : Prop where
  left : s'.gateway.left.1 = s.gateway.left.1 ++ rs
  told : rs.map (fun y => (y.what, y.observer)) = e.told s.gateway.registry
  later : Registry.Later (Leaves edits e rs) s.gateway.registry s'.gateway.registry
  sound : s'.gateway.registry.Sound

omit [DecidableEq ω] in
theorem notes_of_same (hs : s.gateway.registry.Sound)
    (hregistry : s'.gateway.registry = s.gateway.registry)
    (hleft : s'.gateway.left = s.gateway.left) (hnews : e.news? = none)
    (he : ∀ k, e ≠ .befell k) : Notes edits s e s' [] where
  left := by rw [hleft, List.append_nil]
  told := by rw [Event.told, hnews, List.map_nil]
  later := by
    rw [hregistry]
    refine (Registry.Later.refl _).congr fun c n _ => ?_
    simp [Leaves, hnews, he]
  sound := hregistry ▸ hs

theorem notes_of_notify (w : News) (react : ω → ε → Callback ω ε)
    (hs : s.gateway.registry.Sound) (hnews : e.news? = some w) (he : ∀ k, e ≠ .befell k)
    (hleft : s'.gateway.left =
      (s.gateway.registry.notify (noted w react) w.channel s.gateway.left).2.1)
    (hregistry : s'.gateway.registry =
      (s.gateway.registry.notify (noted w react) w.channel s.gateway.left).2.2) :
    ∃ rs, Notes edits s e s' rs := by
  obtain ⟨rs, hnotify, htold, hlater, hsound⟩ :=
    notify_noted w react w.channel s.gateway.left.1 s.gateway.left.2 hs
  rw [hnotify] at hleft hregistry
  refine ⟨rs, by rw [hleft], ?_, ?_, hregistry ▸ hsound⟩
  · rw [htold, Event.told, hnews]
  · rw [hregistry]
    refine hlater.congr fun c n _ => ?_
    simp [Leaves, hnews, he]

theorem Step.notes (hR : Noting R obs edits) (h : Step R s e s') (hs : s.gateway.registry.Sound) :
    ∃ rs, Notes edits s e s' rs := by
  cases h with
  | @looked i x k hi =>
    cases x with
    | announceStatus st =>
      refine notes_of_notify (.status st) (obs.onStatus st) hs rfl nofun ?_ ?_
      · rw [hR.observers]
        rfl
      · rw [hR.observers]
        rfl
    | announceEvent ev =>
      refine notes_of_notify (.event ev) (obs.onEvent ev) hs rfl nofun ?_ ?_
      · rw [hR.observers]
        rfl
      · rw [hR.observers]
        rfl
    | _ => exact ⟨[], notes_of_same hs rfl rfl rfl nofun⟩
  | @befell k r w h =>
    have hregistry := hR.befall h
    refine ⟨[], (List.append_nil _).symm, rfl, ?_, ?_⟩
    · refine (hregistry ▸ later_apply s.gateway.registry (edits k)).congr fun c n _ => ?_
      simp [Leaves, Event.news?]
    · exact hregistry ▸ sound_apply hs (edits k)
  | _ => exact ⟨[], notes_of_same hs rfl rfl rfl nofun⟩

theorem Trail.sound (hR : Noting R obs edits) (hs₀ : s₀.gateway.registry.Sound)
    (h : Trail R s₀ ms s) : s.gateway.registry.Sound := by
  refine h.induction (P := fun s => s.gateway.registry.Sound) (fun hstep hs => ?_) hs₀
  obtain ⟨rs, hnotes⟩ := hstep.notes hR hs
  exact hnotes.sound

theorem Trail.notes_of_step (hR : Noting R obs edits) (hs₀ : s₀.gateway.registry.Sound)
    (h : Trail R s₀ ms x.before) (hstep : Step R x.before x.event x.after) :
    Notes edits x.before x.event x.after x.receipts := by
  obtain ⟨rs, hnotes⟩ := hstep.notes hR (h.sound hR hs₀)
  have hreceipts : x.receipts = rs := by
    unfold Move.receipts
    rw [hnotes.left, List.drop_left]
  exact hreceipts ▸ hnotes

theorem Trail.notes (hR : Noting R obs edits) (hs₀ : s₀.gateway.registry.Sound)
    (h : Trail R s₀ (ms ++ x :: ms') s) : Notes edits x.before x.event x.after x.receipts :=
  h.at_move.1.notes_of_step hR hs₀ h.at_move.2.1

theorem Trail.left_eq (hR : Noting R obs edits) (hs₀ : s₀.gateway.registry.Sound)
    (h : Trail R s₀ ms s) :
    s.gateway.left.1 = s₀.gateway.left.1 ++ ms.flatMap Move.receipts := by
  induction h with
  | nil => simp
  | @snoc ms s e s' h hstep ih =>
    have hnotes := h.notes_of_step (x := ⟨s, e, s'⟩) hR hs₀ hstep
    rw [hnotes.left, ih, List.flatMap_append]
    simp

theorem Trail.unlisted (hR : Noting R obs edits) (hs₀ : s₀.gateway.registry.Sound)
    (hid : id < s₀.gateway.registry.nextId) (hlist : s₀.subscription? c id = none)
    (h : Trail R s₀ ms s) : s.subscription? c id = none := by
  have hall := h.induction (P := fun s => id < s.gateway.registry.nextId ∧
    s.subscription? c id = none ∧ s.gateway.registry.Sound) (fun hstep hs => ?_) ⟨hid, hlist, hs₀⟩
  · exact hall.2.1
  obtain ⟨rs, hnotes⟩ := hstep.notes hR hs.2.2
  have hlater := hnotes.later.unlisted hs.1 (subscription?_eq_none_iff.1 hs.2.1)
  exact ⟨hlater.1, subscription?_eq_none_iff.2 hlater.2, hnotes.sound⟩

theorem received_append (c : Channel) (id : Id)
    (ms ms' : List (Move α σ χ ω (List (Receipt News ω) × ε))) :
    received c id (ms ++ ms') = received c id ms ++ received c id ms' :=
  List.flatMap_append

theorem filter_key [DecidableEq κ] {f : β → κ} {l : List β} (h : (l.map f).Nodup) {y : β}
    (hy : y ∈ l) : l.filter (fun z => f z == f y) = [y] := by
  induction l with
  | nil => cases hy
  | cons z l ih =>
    rw [List.map_cons, List.nodup_cons] at h
    rcases List.mem_cons.1 hy with rfl | hy
    · rw [List.filter_cons_of_pos (by simp), List.cons.injEq, List.filter_eq_nil_iff]
      refine ⟨rfl, fun z hz heq => h.1 ?_⟩
      rw [← beq_iff_eq.1 heq]
      exact List.mem_map_of_mem hz
    · rw [List.filter_cons_of_neg, ih h.2 hy]
      intro heq
      rw [beq_iff_eq.1 heq] at h
      exact h.1 (List.mem_map_of_mem hy)

omit [DecidableEq ω] in
theorem Notes.what {rs : List (Receipt News ω)} (h : Notes edits s e s' rs) {y : Receipt News ω}
    (hy : y ∈ rs) : e.news? = some y.what := by
  have hmem : (y.what, y.observer) ∈ e.told s.gateway.registry := by
    rw [← h.told]
    exact List.mem_map_of_mem hy
  unfold Event.told at hmem
  cases hnews : e.news? with
  | none => simp [hnews] at hmem
  | some w =>
    simp only [hnews, List.mem_map, Prod.mk.injEq] at hmem
    obtain ⟨n, -, rfl, -⟩ := hmem
    rfl

theorem Notes.filter_observer {rs : List (Receipt News ω)} (h : Notes edits s e s' rs)
    (hs : s.gateway.registry.Sound) {w : News} (hnews : e.news? = some w) {n : Entry ω}
    (hn : n ∈ s.gateway.registry.list w.channel) :
    ∃ y, y ∈ rs ∧ y.what = w ∧ y.observer = n.observer ∧
      rs.filter (fun y => y.observer == n.observer) = [y] := by
  have hobservers : rs.map (·.observer) =
      (s.gateway.registry.list w.channel).map (·.observer) := by
    have htold := h.told
    rw [Event.told, hnews] at htold
    simpa [Function.comp_def] using congrArg (List.map Prod.snd) htold
  have hmem : n.observer ∈ rs.map (·.observer) := by
    rw [hobservers]
    exact List.mem_map_of_mem hn
  obtain ⟨y, hy, heq⟩ := List.mem_map.1 hmem
  refine ⟨y, hy, ?_, heq, ?_⟩
  · have hwhat := h.what hy
    rw [hnews] at hwhat
    exact (Option.some.inj hwhat).symm
  · rw [← heq]
    refine filter_key ?_ hy
    rw [hobservers]
    exact hs.observers w.channel

theorem Notes.received_cases (h : Notes edits x.before x.event x.after x.receipts)
    (hs : x.before.gateway.registry.Sound) (c : Channel) (id : Id) :
    received c id [x] = [] ∧ brought c id [x] = [] ∨
      ∃ n y, x.before.subscription? c id = some n ∧ y ∈ x.receipts ∧ y.observer = n.observer ∧
        x.event.news? = some y.what ∧ y.what.channel = c ∧
        received c id [x] = [(y.what, y.accepted)] ∧ brought c id [x] = [y.what] := by
  have hreceived : received c id [x] = match x.before.subscription? c id with
      | some n => (x.receipts.filter fun y => y.what.channel == c && y.observer == n.observer).map
          fun y => (y.what, y.accepted)
      | none => [] := by simp [received]
  have hbrought : brought c id [x] = (x.event.news?.filter fun w =>
      w.channel == c && (x.before.subscription? c id).isSome).toList := filterMap_snoc _ [] x
  rw [hreceived, hbrought]
  cases hsub : x.before.subscription? c id with
  | none => exact .inl ⟨rfl, by cases x.event.news? <;> simp⟩
  | some n =>
    cases hnews : x.event.news? with
    | none =>
      have hnone : x.receipts = [] := by
        refine List.eq_nil_iff_forall_not_mem.2 fun y hy => ?_
        have hwhat := h.what hy
        rw [hnews] at hwhat
        cases hwhat
      exact .inl ⟨by simp [hnone], rfl⟩
    | some w =>
      by_cases hc : w.channel = c
      · subst hc
        obtain ⟨hn, -⟩ := of_subscription? hsub
        obtain ⟨y, hy, rfl, heq, hfilter⟩ := h.filter_observer hs hnews hn
        refine .inr ⟨n, y, rfl, hy, heq, rfl, rfl, ?_, by simp⟩
        have hall : ∀ z ∈ x.receipts,
            (z.what.channel == y.what.channel && z.observer == n.observer) =
              (z.observer == n.observer) := by
          intro z hz
          have hwhat := h.what hz
          rw [hnews] at hwhat
          rw [Option.some.inj hwhat, beq_self_eq_true, Bool.true_and]
        dsimp only
        rw [List.filter_congr hall, hfilter]
        rfl
      · refine .inl ⟨?_, by simp [hc]⟩
        simp only [List.map_eq_nil_iff, List.filter_eq_nil_iff]
        intro z hz heq
        have hwhat := h.what hz
        rw [hnews] at hwhat
        rw [Option.some.inj hwhat] at hc
        simp [hc] at heq

theorem Trail.received_eq (hR : Noting R obs edits) (hs₀ : s₀.gateway.registry.Sound)
    (h : Trail R s₀ ms s) (c : Channel) (id : Id) :
    (received c id ms).map Prod.fst = brought c id ms := by
  induction h with
  | nil => rfl
  | @snoc ms s e s' h hstep ih =>
    have hnotes := h.notes_of_step (x := ⟨s, e, s'⟩) hR hs₀ hstep
    have hbrought : brought c id (ms ++ [⟨s, e, s'⟩]) =
        brought c id ms ++ brought c id [⟨s, e, s'⟩] := List.filterMap_append
    rw [received_append, List.map_append, ih, hbrought]
    rcases hnotes.received_cases (h.sound hR hs₀) c id with
      ⟨hnone, hnone'⟩ | ⟨n, y, -, -, -, -, -, hone, hone'⟩
    · rw [hnone, hnone']
      rfl
    · rw [hone, hone']
      rfl

theorem Trail.unlisted_of_failed (hR : Noting R obs edits) (hs₀ : s₀.gateway.registry.Sound)
    (h : Trail R s₀ ms s) {w : News} (hw : (w, false) ∈ received c id ms) :
    id < s.gateway.registry.nextId ∧ s.subscription? c id = none := by
  induction h with
  | nil => cases hw
  | @snoc ms s e s' h hstep ih =>
    have hs := h.sound hR hs₀
    have hnotes := h.notes_of_step (x := ⟨s, e, s'⟩) hR hs₀ hstep
    have hstill : id < s.gateway.registry.nextId ∧ s.subscription? c id = none →
        id < s'.gateway.registry.nextId ∧ s'.subscription? c id = none := by
      rintro ⟨hid, hnone⟩
      have hunlisted := hnotes.later.unlisted hid (subscription?_eq_none_iff.1 hnone)
      exact ⟨hunlisted.1, subscription?_eq_none_iff.2 hunlisted.2⟩
    rw [received_append] at hw
    rcases hnotes.received_cases hs c id with
      ⟨hnone, -⟩ | ⟨n, y, hsub, hy, heq, hnews, hc, hone, -⟩
    · rw [hnone, List.append_nil] at hw
      exact hstill (ih hw)
    · rw [hone] at hw
      rcases List.mem_append.1 hw with hw | hw
      · exact hstill (ih hw)
      · obtain ⟨-, haccepted⟩ := Prod.mk.inj (List.mem_singleton.1 hw)
        obtain ⟨hn, rfl⟩ := of_subscription? hsub
        have hleaves : Leaves edits e (Move.receipts ⟨s, e, s'⟩) c n :=
          .inl ⟨⟨_, hnews, hc.symm⟩, y, hy, heq, haccepted.symm⟩
        exact ⟨Nat.lt_of_lt_of_le (hs.fresh c n hn) hnotes.later.nextId,
          subscription?_eq_none_iff.2 (hnotes.later.unlisted_of_gone hs hn hleaves)⟩

theorem Trail.eq_nil_of_failed (hR : Noting R obs edits) (hs₀ : s₀.gateway.registry.Sound)
    (h : Trail R s₀ ms s) {l l' : List (News × Bool)} {w : News}
    (hl : received c id ms = l ++ (w, false) :: l') : l' = [] := by
  induction h generalizing l' with
  | nil => simp [received] at hl
  | @snoc ms s e s' h hstep ih =>
    have hnotes := h.notes_of_step (x := ⟨s, e, s'⟩) hR hs₀ hstep
    rw [received_append] at hl
    rcases hnotes.received_cases (h.sound hR hs₀) c id with
      ⟨hnone, -⟩ | ⟨n, y, hsub, -, -, -, -, hone, -⟩
    · rw [hnone, List.append_nil] at hl
      exact ih hl
    · -- it is listed, so its observer has not failed before
      rw [hone] at hl
      rcases List.eq_nil_or_concat l' with rfl | ⟨l'', z, rfl⟩
      · rfl
      · rw [List.concat_eq_append, ← List.cons_append, ← List.append_assoc] at hl
        obtain ⟨hbefore, -⟩ := List.append_inj' hl rfl
        have hw : (w, false) ∈ received c id ms := by simp [hbefore]
        rw [(h.unlisted_of_failed hR hs₀ hw).2] at hsub
        cases hsub

theorem Trail.ends_iff (hR : Noting R obs edits) (hs₀ : s₀.gateway.registry.Sound)
    (h : Trail R s₀ (ms ++ x :: ms') s) {n : Entry ω}
    (hn : n ∈ x.before.gateway.registry.list c) :
    (n ∈ x.after.gateway.registry.list c ↔ ¬ Leaves edits x.event x.receipts c n) ∧
      (n ∉ x.after.gateway.registry.list c → s.subscription? c n.id = none) := by
  have hnotes := h.notes hR hs₀
  obtain ⟨hbefore, hstep, hafter⟩ := h.at_move
  have hs := hbefore.sound hR hs₀
  have hiff := hnotes.later.left c n hn
  refine ⟨hiff, fun hout => ?_⟩
  have hleaves := not_not.1 (mt hiff.2 hout)
  exact hafter.unlisted hR hnotes.sound
    (Nat.lt_of_lt_of_le (hs.fresh c n hn) hnotes.later.nextId)
    (subscription?_eq_none_iff.2 (hnotes.later.unlisted_of_gone hs hn hleaves))

end

end Crowd

end MillGateway
