import Mathlib.Data.List.Nodup
import MillGateway.Subscription

/-! What becomes of subscriptions while observers are called, which may subscribe and cancel in turn.
Observers that keep a record of their visits act as they do without one. Main statement: a delivery
visits each observer of its list once, and changes the lists as the observers do. -/

namespace MillGateway.Subscription

namespace Registry

structure Sound (r : Registry ω) : Prop where
  observers : ∀ c, ((r.list c).map (·.observer)).Nodup
  ids : ∀ c, (r.list c).Pairwise fun n n' => n.id < n'.id
  fresh : ∀ c, ∀ n ∈ r.list c, n.id < r.nextId

/-- What has become of the lists: `gone` have left them, and what is new has a number that is new. -/
structure Later (gone : Channel → Entry ω → Prop) (r r' : Registry ω) : Prop where
  nextId : r.nextId ≤ r'.nextId
  new : ∀ c, ∀ n ∈ r'.list c, n ∈ r.list c ∨ r.nextId ≤ n.id
  left : ∀ c, ∀ n ∈ r.list c, n ∈ r'.list c ↔ ¬ gone c n

theorem list_setList_self (r : Registry ω) (c : Channel) (ns : List (Entry ω)) :
    (r.setList c ns).list c = ns := by
  cases c <;> rfl

theorem list_setList_of_ne (r : Registry ω) {c c' : Channel} (h : c' ≠ c) (ns : List (Entry ω)) :
    (r.setList c ns).list c' = r.list c' := by
  cases c <;> cases c' <;> first | rfl | exact absurd rfl h

theorem nextId_setList (r : Registry ω) (c : Channel) (ns : List (Entry ω)) :
    (r.setList c ns).nextId = r.nextId := by
  cases c <;> rfl

theorem sound_empty : ({} : Registry ω).Sound where
  observers c := by cases c <;> exact .nil
  ids c := by cases c <;> exact .nil
  fresh c := by cases c <;> exact List.forall_mem_nil _

section

variable {gone gone' : Channel → Entry ω → Prop} {r r' r'' : Registry ω} {c : Channel}

theorem Later.refl (r : Registry ω) : Later (fun _ _ => False) r r where
  nextId := Nat.le_refl _
  new _ _ hn := .inl hn
  left _ _ hn := iff_of_true hn not_false

theorem Later.congr (h : Later gone r r') (hgone : ∀ c, ∀ n ∈ r.list c, gone c n ↔ gone' c n) :
    Later gone' r r' where
  nextId := h.nextId
  new := h.new
  left c n hn := (h.left c n hn).trans (not_congr (hgone c n hn))

theorem Later.trans (hr : r.Sound) (h : Later gone r r') (h' : Later gone' r' r'') :
    Later (fun c n => gone c n ∨ gone' c n) r r'' where
  nextId := Nat.le_trans h.nextId h'.nextId
  new c n hn := by
    rcases h'.new c n hn with hn | hn
    · exact h.new c n hn
    · exact .inr (Nat.le_trans h.nextId hn)
  left c n hn := by
    rw [not_or, ← h.left c n hn]
    constructor
    · intro hn''
      -- its number has been given, so it has not come back
      rcases h'.new c n hn'' with hn' | hid
      · exact ⟨hn', (h'.left c n hn').1 hn''⟩
      · exact absurd (Nat.lt_of_lt_of_le (hr.fresh c n hn) h.nextId) (Nat.not_lt.2 hid)
    · rintro ⟨hn', hgone⟩
      exact (h'.left c n hn').2 hgone

theorem Later.unlisted {id : Id} (h : Later gone r r') (hid : id < r.nextId)
    (hlist : ∀ n ∈ r.list c, n.id ≠ id) : id < r'.nextId ∧ ∀ n ∈ r'.list c, n.id ≠ id := by
  refine ⟨Nat.lt_of_lt_of_le hid h.nextId, fun n hn => ?_⟩
  rcases h.new c n hn with hn | hn
  · exact hlist n hn
  · exact Nat.ne_of_gt (Nat.lt_of_lt_of_le hid hn)

theorem Sound.nodup_ids (h : r.Sound) (c : Channel) : ((r.list c).map (·.id)).Nodup :=
  List.pairwise_map.2 ((h.ids c).imp fun hlt => Nat.ne_of_lt hlt)

theorem Sound.eq_of_id (h : r.Sound) {n n' : Entry ω} (hn : n ∈ r.list c) (hn' : n' ∈ r.list c)
    (hid : n.id = n'.id) : n = n' :=
  List.inj_on_of_nodup_map (h.nodup_ids c) hn hn' hid

theorem Later.unlisted_of_gone (h : Later gone r r') (hr : r.Sound) {n : Entry ω}
    (hn : n ∈ r.list c) (hgone : gone c n) : ∀ m ∈ r'.list c, m.id ≠ n.id := by
  intro m hm hid
  rcases h.new c m hm with hm' | hm'
  · rw [hr.eq_of_id hm' hn hid] at hm
    exact (h.left c n hn).1 hm hgone
  · exact Nat.not_lt.2 hm' (hid ▸ hr.fresh c n hn)

theorem Sound.filter (h : r.Sound) (c : Channel) (p : Entry ω → Bool) :
    (r.setList c ((r.list c).filter p)).Sound := by
  have hsub : ∀ c', ((r.setList c ((r.list c).filter p)).list c').Sublist (r.list c') := by
    intro c'
    by_cases hc : c' = c
    · rw [hc, list_setList_self]
      exact List.filter_sublist
    · rw [list_setList_of_ne r hc]
  refine ⟨fun c' => (h.observers c').sublist ((hsub c').map _),
    fun c' => (h.ids c').sublist (hsub c'), fun c' n hn => ?_⟩
  rw [nextId_setList]
  exact h.fresh c' n ((hsub c').subset hn)

theorem later_filter (r : Registry ω) (c : Channel) (p : Entry ω → Bool) :
    Later (fun c' n => c' = c ∧ p n = false) r (r.setList c ((r.list c).filter p)) where
  nextId := Nat.le_of_eq (nextId_setList r c _).symm
  new c' n hn := by
    by_cases hc : c' = c
    · rw [hc, list_setList_self] at hn
      exact .inl (hc ▸ (List.mem_filter.1 hn).1)
    · rw [list_setList_of_ne r hc] at hn
      exact .inl hn
  left c' n hn := by
    by_cases hc : c' = c
    · subst hc
      rw [list_setList_self, List.mem_filter]
      simp [hn]
    · rw [list_setList_of_ne r hc]
      simp [hn, hc]

variable [DecidableEq ω]

theorem subscribe_cases (r : Registry ω) (c : Channel) (o : ω) :
    (r.subscribe c o).2 = r ∨
      (∀ n ∈ r.list c, n.observer ≠ o) ∧
        (r.subscribe c o).2 =
          { r.setList c (r.list c ++ [⟨r.nextId, o⟩]) with nextId := r.nextId + 1 } := by
  unfold subscribe
  split
  · exact .inl rfl
  next hnone =>
    refine .inr ⟨fun n hn => ?_, rfl⟩
    simpa using List.find?_eq_none.1 hnone n hn

omit [DecidableEq ω] in
theorem list_withNextId (r : Registry ω) (id : Id) (c : Channel) :
    ({ r with nextId := id } : Registry ω).list c = r.list c := by
  cases c <;> rfl

theorem Sound.subscribe (h : r.Sound) (c : Channel) (o : ω) : (r.subscribe c o).2.Sound := by
  rcases subscribe_cases r c o with heq | ⟨hnone, heq⟩
  · rw [heq]
    exact h
  · rw [heq]
    refine ⟨fun c' => ?_, fun c' => ?_, fun c' n hn => ?_⟩
    all_goals
      rw [list_withNextId] at *
      by_cases hc : c' = c
    · subst hc
      rw [list_setList_self, List.map_append, List.nodup_append]
      refine ⟨h.observers c', List.nodup_singleton _, fun o' ho' o'' ho'' => ?_⟩
      obtain ⟨n, hn, rfl⟩ := List.mem_map.1 ho'
      rw [List.mem_singleton.1 ho'']
      exact hnone n hn
    · rw [list_setList_of_ne r hc]
      exact h.observers c'
    · subst hc
      rw [list_setList_self, List.pairwise_append]
      refine ⟨h.ids c', List.pairwise_singleton _ _, fun n hn n' hn' => ?_⟩
      rw [List.mem_singleton.1 hn']
      exact h.fresh c' n hn
    · rw [list_setList_of_ne r hc]
      exact h.ids c'
    · subst hc
      rw [list_setList_self] at hn
      rcases List.mem_append.1 hn with hn | hn
      · exact Nat.lt_succ_of_lt (h.fresh c' n hn)
      · rw [List.mem_singleton.1 hn]
        exact Nat.lt_succ_self _
    · rw [list_setList_of_ne r hc] at hn
      exact Nat.lt_succ_of_lt (h.fresh c' n hn)

theorem later_subscribe (r : Registry ω) (c : Channel) (o : ω) :
    Later (fun _ _ => False) r (r.subscribe c o).2 := by
  rcases subscribe_cases r c o with heq | ⟨-, heq⟩
  · rw [heq]
    exact .refl r
  · rw [heq]
    refine ⟨Nat.le_succ _, fun c' n hn => ?_, fun c' n hn => iff_of_true ?_ not_false⟩
    all_goals
      rw [list_withNextId] at *
      by_cases hc : c' = c
    · subst hc
      rw [list_setList_self] at hn
      rcases List.mem_append.1 hn with hn | hn
      · exact .inl hn
      · rw [List.mem_singleton.1 hn]
        exact .inr (Nat.le_refl _)
    · rw [list_setList_of_ne r hc] at hn
      exact .inl hn
    · subst hc
      rw [list_setList_self]
      exact List.mem_append_left _ hn
    · rw [list_setList_of_ne r hc]
      exact hn

omit [DecidableEq ω] in
theorem Sound.unsubscribe (h : r.Sound) (c : Channel) (id : Id) : (r.unsubscribe c id).2.Sound :=
  h.filter c _

omit [DecidableEq ω] in
theorem later_unsubscribe (r : Registry ω) (c : Channel) (id : Id) :
    Later (fun c' n => (c', n.id) = (c, id)) r (r.unsubscribe c id).2 := by
  refine (later_filter r c _).congr fun c' n _ => ?_
  rw [bne_eq_false_iff_eq, Prod.mk.injEq]

end

end Registry

open Registry

/-! ### Callers -/

inductive Edit (ω : Type) where
  | keep
  | subscribe (c : Channel) (o : ω)
  | unsubscribe (c : Channel) (id : Id)

def Edit.apply [DecidableEq ω] (r : Registry ω) : Edit ω → Registry ω
  | .keep => r
  | .subscribe c o => (r.subscribe c o).2
  | .unsubscribe c id => (r.unsubscribe c id).2

section

variable [DecidableEq ω] {r : Registry ω}

theorem sound_apply (hr : r.Sound) (d : Edit ω) : (d.apply r).Sound := by
  cases d with
  | keep => exact hr
  | subscribe c o => exact hr.subscribe c o
  | unsubscribe c id => exact hr.unsubscribe c id

theorem later_apply (r : Registry ω) (d : Edit ω) :
    Later (fun c n => d = .unsubscribe c n.id) r (d.apply r) := by
  cases d with
  | keep => exact (Later.refl r).congr fun c n _ => by simp
  | subscribe c o => exact (later_subscribe r c o).congr fun c' n _ => by simp
  | unsubscribe c id => exact (later_unsubscribe r c id).congr fun c' n _ => by simp [eq_comm]

theorem sound_foldl_apply (hr : r.Sound) (ds : List (Edit ω)) :
    (ds.foldl Edit.apply r).Sound := by
  induction ds generalizing r with
  | nil => exact hr
  | cons d ds ih => exact ih (sound_apply hr d)

theorem later_foldl_apply (hr : r.Sound) (ds : List (Edit ω)) :
    Later (fun c n => .unsubscribe c n.id ∈ ds) r (ds.foldl Edit.apply r) := by
  induction ds generalizing r with
  | nil => exact (Later.refl r).congr fun c n _ => by simp
  | cons d ds ih =>
    refine ((later_apply r d).trans hr (ih (sound_apply hr d))).congr fun c n _ => ?_
    rw [List.mem_cons, eq_comm]

end

/-! ### Visits -/

structure Visit (ω : Type) where
  observer : ω
  edits : List (Edit ω)
  accepted : Bool

namespace Visit

def changes (vs : List (Visit ω)) : List (Edit ω) :=
  vs.flatMap Visit.edits

def failed (ns : List (Entry ω)) (vs : List (Visit ω)) : List Id :=
  (ns.zip vs).filterMap fun x => if x.2.accepted then none else some x.1.id

end Visit

/-- A callback that ends with a record of the changes that it has made, after `made`. -/
def Callback.recording (record : List (Edit ω) → Bool → ε → ε') :
    List (Edit ω) → Callback ω ε → Callback ω ε'
  | made, .finish accepted left => .finish accepted (record made accepted left)
  | made, .subscribe c o k =>
    .subscribe c o fun id => (k id).recording record (made ++ [.subscribe c o])
  | made, .unsubscribe c id k =>
    .unsubscribe c id fun found => (k found).recording record (made ++ [.unsubscribe c id])

def logged (f : Visit ω → β) (react : ω → ε → Callback ω ε) (o : ω) (left : List β × ε) :
    Callback ω (List β × ε) :=
  (react o left.2).recording
    (fun edits accepted l => (left.1 ++ [f ⟨o, edits, accepted⟩], l)) []

section

variable [DecidableEq ω] {r : Registry ω}

theorem run_recording (cb : Callback ω ε) (record : List (Edit ω) → Bool → ε → ε')
    (made : List (Edit ω)) (r : Registry ω) :
    ∃ edits, (cb.recording record made).run r =
        ((cb.run r).1, record (made ++ edits) (cb.run r).1 (cb.run r).2.1, (cb.run r).2.2) ∧
      (cb.run r).2.2 = edits.foldl Edit.apply r := by
  induction cb generalizing made r with
  | finish accepted left =>
    refine ⟨[], ?_, rfl⟩
    rw [List.append_nil]
    rfl
  | subscribe c o k ih =>
    obtain ⟨edits, hrun, hafter⟩ :=
      ih (r.subscribe c o).1 (made ++ [.subscribe c o]) (r.subscribe c o).2
    rw [List.append_assoc] at hrun
    exact ⟨.subscribe c o :: edits, hrun, hafter⟩
  | unsubscribe c id k ih =>
    obtain ⟨edits, hrun, hafter⟩ :=
      ih (r.unsubscribe c id).1 (made ++ [.unsubscribe c id]) (r.unsubscribe c id).2
    rw [List.append_assoc] at hrun
    exact ⟨.unsubscribe c id :: edits, hrun, hafter⟩

variable (react : ω → ε → Callback ω ε)

theorem deliver_logged (f : Visit ω → β) (ns : List (Entry ω)) (log : List β) (left : ε)
    (r : Registry ω) :
    ∃ vs, deliver (logged f react) ns (log, left) r =
        ((deliver react ns left r).1, (log ++ vs.map f, (deliver react ns left r).2.1),
          (deliver react ns left r).2.2) ∧
      vs.map Visit.observer = ns.map Entry.observer ∧
      (deliver react ns left r).1 = Visit.failed ns vs ∧
      (deliver react ns left r).2.2 = (Visit.changes vs).foldl Edit.apply r := by
  induction ns generalizing log left r with
  | nil =>
    refine ⟨[], ?_, rfl, rfl, rfl⟩
    rw [List.map_nil, List.append_nil]
    rfl
  | cons n ns ih =>
    obtain ⟨edits, hrun, hafter⟩ := run_recording (react n.observer left)
      (fun edits accepted l => (log ++ [f ⟨n.observer, edits, accepted⟩], l)) [] r
    rw [List.nil_append] at hrun
    obtain ⟨vs, hrest, hobservers, hfailed, hlater⟩ := ih
      (log ++ [f ⟨n.observer, edits, ((react n.observer left).run r).1⟩])
      ((react n.observer left).run r).2.1 ((react n.observer left).run r).2.2
    refine ⟨⟨n.observer, edits, ((react n.observer left).run r).1⟩ :: vs, ?_, ?_, ?_, ?_⟩
    · have hfirst : (logged f react n.observer (log, left)).run r = _ := hrun
      rw [deliver, hfirst]
      dsimp only
      rw [hrest, deliver, List.append_assoc]
      rfl
    · rw [List.map_cons, List.map_cons, hobservers]
    · rw [deliver, Visit.failed, List.zip_cons_cons]
      dsimp only
      rw [hfailed, List.filterMap_cons]
      cases ((react n.observer left).run r).1 <;> rfl
    · rw [deliver, Visit.changes, List.flatMap_cons, List.foldl_append, ← hafter]
      exact hlater

theorem sound_deliver (ns : List (Entry ω)) (left : ε) (hr : r.Sound) :
    (deliver react ns left r).2.2.Sound := by
  obtain ⟨vs, -, -, -, hafter⟩ := deliver_logged react id ns [] left r
  rw [hafter]
  exact sound_foldl_apply hr _

end

end MillGateway.Subscription
