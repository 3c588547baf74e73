import MillGateway.Proofs.Subscription.Changes

/-! Which observers a delivery visits, and what is left of the lists after it. Main statement: how
lists of observers behave under subscriptions, cancellations and deliveries whose observers subscribe
and cancel in turn. -/

namespace MillGateway.Subscription

open Registry

def visited (react : ω → ε → Callback ω ε) (o : ω) (left : List (Visit ω) × ε) :
    Callback ω (List (Visit ω) × ε) :=
  (react o left.2).recording (fun edits accepted l => (left.1 ++ [⟨o, edits, accepted⟩], l)) []

theorem visited_eq (react : ω → ε → Callback ω ε) : visited react = logged id react :=
  rfl

/-! ### Single operations -/

namespace Registry

def Distinct (r : Registry ω) : Prop :=
  ∀ c, ((r.list c).map Entry.id).Nodup ∧ ((r.list c).map Entry.observer).Nodup

section

variable {r : Registry ω} {c c' : Channel} {n : Entry ω} {o : ω} {id : Id}

theorem Sound.distinct (h : r.Sound) : r.Distinct :=
  fun c => ⟨h.nodup_ids c, h.observers c⟩

theorem setList_list (r : Registry ω) (c : Channel) : r.setList c (r.list c) = r := by
  cases c <;> rfl

theorem unsubscribe_of_absent (h : ∀ n ∈ r.list c, n.id ≠ id) :
    r.unsubscribe c id = (false, r) := by
  have hnone : ((r.list c).any fun e => e.id == id) = false := by simpa using h
  have hall : (r.list c).filter (fun e => e.id != id) = r.list c :=
    List.filter_eq_self.2 fun n hn => by simpa using h n hn
  rw [unsubscribe, hnone, hall, setList_list]

theorem unsubscribe_of_listed (hn : n ∈ r.list c) : (r.unsubscribe c n.id).1 = true :=
  List.any_eq_true.2 ⟨n, hn, beq_self_eq_true _⟩

theorem list_unsubscribe (r : Registry ω) (c : Channel) (id : Id) :
    (r.unsubscribe c id).2.list c = (r.list c).filter fun n => n.id != id :=
  list_setList_self ..

theorem list_unsubscribe_of_ne (hc : c' ≠ c) : (r.unsubscribe c id).2.list c' = r.list c' :=
  list_setList_of_ne r hc _

variable [DecidableEq ω]

theorem Sound.subscribe_of_listed (h : r.Sound) (hn : n ∈ r.list c) :
    r.subscribe c n.observer = (n.id, r) := by
  unfold Registry.subscribe
  split
  next m hm =>
    have hobserver : m.observer = n.observer := by simpa using List.find?_some hm
    have hmem := List.mem_of_find?_eq_some hm
    obtain rfl := List.inj_on_of_nodup_map (h.observers c) hmem hn hobserver
    rfl
  next hnone =>
    have hne := List.find?_eq_none.1 hnone n hn
    simp at hne

theorem subscribe_of_unlisted (h : ∀ n ∈ r.list c, n.observer ≠ o) :
    r.subscribe c o =
      (r.nextId, { r.setList c (r.list c ++ [⟨r.nextId, o⟩]) with nextId := r.nextId + 1 }) := by
  have hnone : ((r.list c).find? fun e => e.observer == o) = none :=
    List.find?_eq_none.2 fun n hn => by simpa using h n hn
  rw [subscribe, hnone]

theorem Sound.list_subscribe_of_unlisted (hr : r.Sound) (h : ∀ n ∈ r.list c, n.observer ≠ o) :
    (r.subscribe c o).2.list c = r.list c ++ [⟨(r.subscribe c o).1, o⟩] ∧
      ∀ c', ∀ n ∈ r.list c', n.id ≠ (r.subscribe c o).1 := by
  rw [subscribe_of_unlisted h, list_withNextId, list_setList_self]
  exact ⟨rfl, fun c' n hn => Nat.ne_of_lt (hr.fresh c' n hn)⟩

theorem list_subscribe_of_ne (hc : c' ≠ c) : (r.subscribe c o).2.list c' = r.list c' := by
  rcases subscribe_cases r c o with heq | ⟨-, heq⟩
  · rw [heq]
  · rw [heq, list_withNextId, list_setList_of_ne r hc]

end

end Registry

def Edit.channel? : Edit ω → Option Channel
  | .keep => none
  | .subscribe c _ | .unsubscribe c _ => some c

section

variable [DecidableEq ω] {r : Registry ω} {c : Channel}

theorem list_apply_of_ne {d : Edit ω} (h : d.channel? ≠ some c) :
    (d.apply r).list c = r.list c := by
  cases d with
  | keep => rfl
  | subscribe c' o => exact list_subscribe_of_ne fun hc => h (congrArg some hc.symm)
  | unsubscribe c' id => exact list_unsubscribe_of_ne fun hc => h (congrArg some hc.symm)

theorem list_foldl_apply_of_ne {ds : List (Edit ω)} (h : ∀ d ∈ ds, d.channel? ≠ some c) :
    (ds.foldl Edit.apply r).list c = r.list c := by
  induction ds generalizing r with
  | nil => rfl
  | cons d ds ih =>
    rw [List.foldl_cons, ih fun d' hd' => h d' (List.mem_cons_of_mem _ hd'),
      list_apply_of_ne (h d List.mem_cons_self)]

end

/-! ### Deliveries -/

/-- What a delivery to the observers of `c` comes to: those that are listed are visited once each, in
their order; the count is that of the visits that were accepted; those that failed leave what the
changes made meanwhile have left of the list, and nothing else happens to any list. -/
structure Delivers [DecidableEq ω] (r : Registry ω) (c : Channel) (vs : List (Visit ω))
    (count : Nat) (r' : Registry ω) : Prop where
  visits : vs.map Visit.observer = (r.list c).map Entry.observer
  count : count = vs.countP Visit.accepted
  distinct : ∀ ds, ds <+: Visit.changes vs → (ds.foldl Edit.apply r).Distinct
  list : r'.list c = (((Visit.changes vs).foldl Edit.apply r).list c).filter
    fun n => !(Visit.failed (r.list c) vs).contains n.id
  others : ∀ c', c' ≠ c → r'.list c' = ((Visit.changes vs).foldl Edit.apply r).list c'
  apart : ∀ c', c' ≠ c → (∀ d ∈ Visit.changes vs, d.channel? ≠ some c') → r'.list c' = r.list c'

theorem length_failed (ns : List (Entry ω)) (vs : List (Visit ω)) (h : vs.length = ns.length) :
    (Visit.failed ns vs).length + vs.countP Visit.accepted = ns.length := by
  induction ns generalizing vs with
  | nil =>
    obtain rfl := List.length_eq_zero_iff.1 h
    rfl
  | cons n ns ih =>
    cases vs with
    | nil => cases h
    | cons v vs =>
      have hrest := ih vs (Nat.succ.inj h)
      rw [Visit.failed, List.zip_cons_cons, List.filterMap_cons, List.countP_cons]
      rw [Visit.failed] at hrest
      cases v.accepted <;> simp <;> omega

section

variable [DecidableEq ω] {r : Registry ω}

theorem notify_visited (react : ω → ε → Callback ω ε) (c : Channel) (left : ε) (hr : r.Sound) :
    ∃ vs, r.notify (visited react) c ([], left) =
        ((r.notify react c left).1, (vs, (r.notify react c left).2.1),
          (r.notify react c left).2.2) ∧
      Delivers r c vs (r.notify react c left).1 (r.notify react c left).2.2 := by
  obtain ⟨vs, hrun, hvisits, hfailed, hafter⟩ := deliver_logged react id (r.list c) [] left r
  rw [List.map_id, List.nil_append] at hrun
  have hnotify : (r.notify react c left).2.2 =
      ((Visit.changes vs).foldl Edit.apply r).setList c
        ((((Visit.changes vs).foldl Edit.apply r).list c).filter
          fun n => !(Visit.failed (r.list c) vs).contains n.id) := by
    rw [notify, ← hfailed, ← hafter]
  have hothers : ∀ c', c' ≠ c → (r.notify react c left).2.2.list c' =
      ((Visit.changes vs).foldl Edit.apply r).list c' := fun c' hc => by
    rw [hnotify, list_setList_of_ne _ hc]
  refine ⟨vs, ?_, hvisits, ?_, fun ds _ => (sound_foldl_apply hr ds).distinct, ?_, hothers,
    fun c' hc hds => ?_⟩
  · rw [notify, visited_eq, hrun]
    rfl
  · have hlength := congrArg List.length hvisits
    rw [List.length_map, List.length_map] at hlength
    have hcount := length_failed (r.list c) vs hlength
    rw [← hfailed] at hcount
    exact Nat.sub_eq_of_eq_add' hcount.symm
  · rw [hnotify, list_setList_self]
  · rw [hothers c' hc, list_foldl_apply_of_ne hds]

end

/-! ### Sequences of operations -/

inductive Operation (ω ε : Type) where
  | subscribe (c : Channel) (o : ω)
  | unsubscribe (c : Channel) (id : Id)
  | notify (c : Channel) (react : ω → ε → Callback ω ε)

section

variable [DecidableEq ω]

def Operation.perform (x : Registry ω × ε) : Operation ω ε → Registry ω × ε
  | .subscribe c o => ((x.1.subscribe c o).2, x.2)
  | .unsubscribe c id => ((x.1.unsubscribe c id).2, x.2)
  | .notify c react => ((x.1.notify react c x.2).2.2, (x.1.notify react c x.2).2.1)

theorem sound_perform {x : Registry ω × ε} (hx : x.1.Sound) (op : Operation ω ε) :
    (op.perform x).1.Sound := by
  cases op with
  | subscribe c o => exact hx.subscribe c o
  | unsubscribe c id => exact hx.unsubscribe c id
  | notify c react => exact (sound_deliver react _ x.2 hx).filter c _

theorem sound_operations (ops : List (Operation ω ε)) {x : Registry ω × ε} (hx : x.1.Sound) :
    (ops.foldl Operation.perform x).1.Sound := by
  induction ops generalizing x with
  | nil => exact hx
  | cons op ops ih => exact ih (sound_perform hx op)

/-- Whatever operations have come before, no list has two entries of one number or one observer. An
observer that is listed is not listed again, and another one comes last, under a new number; to drop
a number that is not listed changes nothing, and one that is leaves its list. A delivery visits the
observers of its list once each and in order, whatever they change and however they end; those that
fail leave what the changes have left of the list. An operation changes no list but that of its
channel. -/
theorem lists_after_operations (left₀ : ε) (ops : List (Operation ω ε)) (r : Registry ω) (left : ε)
    (h : ops.foldl Operation.perform ({}, left₀) = (r, left)) :
    r.Distinct ∧
    (∀ c o, (∀ n ∈ r.list c, n.observer = o → r.subscribe c o = (n.id, r)) ∧
      ((∀ n ∈ r.list c, n.observer ≠ o) →
        (r.subscribe c o).2.list c = r.list c ++ [⟨(r.subscribe c o).1, o⟩] ∧
        ∀ c', ∀ n ∈ r.list c', n.id ≠ (r.subscribe c o).1) ∧
      ∀ c', c' ≠ c → (r.subscribe c o).2.list c' = r.list c') ∧
    (∀ c id, ((∀ n ∈ r.list c, n.id ≠ id) → r.unsubscribe c id = (false, r)) ∧
      (∀ n ∈ r.list c, n.id = id → (r.unsubscribe c id).1 = true) ∧
      (r.unsubscribe c id).2.list c = (r.list c).filter (fun n => n.id != id) ∧
      ∀ c', c' ≠ c → (r.unsubscribe c id).2.list c' = r.list c') ∧
    ∀ c react, ∃ vs, r.notify (visited react) c ([], left) =
        ((r.notify react c left).1, (vs, (r.notify react c left).2.1),
          (r.notify react c left).2.2) ∧
      Delivers r c vs (r.notify react c left).1 (r.notify react c left).2.2 := by
  have hr : r.Sound := by
    have hsound := sound_operations ops (x := ({}, left₀)) sound_empty
    rwa [h] at hsound
  refine ⟨hr.distinct, fun c o => ?_, fun c id => ?_, fun c react => notify_visited react c left hr⟩
  · refine ⟨?_, hr.list_subscribe_of_unlisted, fun _ => list_subscribe_of_ne⟩
    rintro n hn rfl
    exact hr.subscribe_of_listed hn
  · refine ⟨unsubscribe_of_absent, ?_, list_unsubscribe r c id, fun _ => list_unsubscribe_of_ne⟩
    rintro n hn rfl
    exact unsubscribe_of_listed hn

end

def threeObservers : List (Operation Nat Unit) :=
  [.subscribe .status 10, .subscribe .status 20, .subscribe .status 30]

def quarrel : Nat → Unit → Callback Nat Unit
  | 10, _ => .unsubscribe .status 1 fun _ => .subscribe .status 40 fun _ => .finish false ()
  | 30, _ => .finish false ()
  | _, _ => .finish true ()

theorem lists_after_operations_quarrel :
    let r : Registry Nat := { status := [⟨0, 10⟩, ⟨1, 20⟩, ⟨2, 30⟩], nextId := 3 }
    threeObservers.foldl Operation.perform ({}, ()) = (r, ()) ∧ r.Distinct ∧
      r.subscribe .status 20 = (1, r) ∧ r.unsubscribe .status 7 = (false, r) ∧
      Delivers r .status [⟨10, [.unsubscribe .status 1, .subscribe .status 40], false⟩,
        ⟨20, [], true⟩, ⟨30, [], false⟩] 1 { status := [⟨3, 40⟩], nextId := 4 } := by
  intro r
  obtain ⟨hdistinct, hsubscribe, hunsubscribe, hnotify⟩ :=
    lists_after_operations () threeObservers r () rfl
  obtain ⟨vs, hlog, hdelivers⟩ := hnotify .status quarrel
  have hvs : vs = [⟨10, [.unsubscribe .status 1, .subscribe .status 40], false⟩, ⟨20, [], true⟩,
      ⟨30, [], false⟩] :=
    (Prod.mk.inj (Prod.mk.inj (Prod.mk.inj hlog).2).1).1.symm
  rw [hvs] at hdelivers
  refine ⟨rfl, hdistinct, (hsubscribe .status 20).1 ⟨1, 20⟩ ?_ rfl, ?_, hdelivers⟩
  · exact List.mem_cons_of_mem _ List.mem_cons_self
  · exact (hunsubscribe .status 7).1 (by decide)

end MillGateway.Subscription
