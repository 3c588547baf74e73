import MillGateway.Proofs.Subscription.Changes

/-! What observers receive while news is delivered, and what becomes of subscriptions. Observers that
take notes of what they receive act as they do without notes. -/

namespace MillGateway.Subscription

open Registry

/-- What an observer did when it received something: whether it accepted, and the subscriptions that
it gave up. -/
structure Receipt (δ ω : Type) where
  what : δ
  observer : ω
  accepted : Bool
  cancelled : List (Channel × Id)
  deriving DecidableEq

def Callback.noting (note : List (Channel × Id) → Bool → ε → ε') :
    List (Channel × Id) → Callback ω ε → Callback ω ε'
  | given, .finish accepted left => .finish accepted (note given accepted left)
  | given, .subscribe c o k => .subscribe c o fun id => (k id).noting note given
  | given, .unsubscribe c id k =>
    .unsubscribe c id fun found => (k found).noting note (given ++ [(c, id)])

def noted (what : δ) (react : ω → ε → Callback ω ε) (o : ω) (left : List (Receipt δ ω) × ε) :
    Callback ω (List (Receipt δ ω) × ε) :=
  (react o left.2).noting
    (fun cancelled accepted l => (left.1 ++ [⟨what, o, accepted, cancelled⟩], l)) []

def cancelled (ds : List (Edit ω)) : List (Channel × Id) :=
  ds.filterMap fun
    | .unsubscribe c id => some (c, id)
    | .keep | .subscribe _ _ => none

def receipt (what : δ) (v : Visit ω) : Receipt δ ω :=
  ⟨what, v.observer, v.accepted, cancelled v.edits⟩

theorem noting_eq (cb : Callback ω ε) (note : List (Channel × Id) → Bool → ε → ε')
    (made : List (Edit ω)) :
    cb.noting note (cancelled made) = cb.recording (fun edits => note (cancelled edits)) made := by
  induction cb generalizing made with
  | finish => rfl
  | subscribe c o k ih =>
    have hmade : cancelled (made ++ [.subscribe c o]) = cancelled made := by simp [cancelled]
    rw [Callback.noting, Callback.recording]
    simp only [← ih, hmade]
  | unsubscribe c id k ih =>
    have hmade : cancelled (made ++ [Edit.unsubscribe c id]) = cancelled made ++ [(c, id)] := by
      simp [cancelled]
    rw [Callback.noting, Callback.recording]
    simp only [← ih, hmade]

theorem noted_eq (what : δ) (react : ω → ε → Callback ω ε) :
    noted what react = logged (receipt what) react := by
  funext o left
  exact noting_eq (react o left.2)
    (fun cancelled accepted l => (left.1 ++ [⟨what, o, accepted, cancelled⟩], l)) []

theorem mem_cancelled_iff {ds : List (Edit ω)} {c : Channel} {id : Id} :
    (c, id) ∈ cancelled ds ↔ .unsubscribe c id ∈ ds := by
  rw [cancelled, List.mem_filterMap]
  constructor
  · rintro ⟨d, hd, hid⟩
    cases d with
    | keep | subscribe => cases hid
    | unsubscribe c' id' =>
      cases hid
      exact hd
  · exact fun h => ⟨_, h, rfl⟩

theorem mem_changes_iff (what : δ) {vs : List (Visit ω)} {c : Channel} {id : Id} :
    .unsubscribe c id ∈ Visit.changes vs ↔
      ∃ x ∈ vs.map (receipt what), (c, id) ∈ x.cancelled := by
  simp [Visit.changes, receipt, mem_cancelled_iff]

section

variable [DecidableEq ω] {r : Registry ω} (what : δ) (react : ω → ε → Callback ω ε)

theorem deliver_noted (ns : List (Entry ω)) (notes : List (Receipt δ ω)) (left : ε)
    (hr : r.Sound) :
    ∃ rs, deliver (noted what react) ns (notes, left) r =
        ((deliver react ns left r).1, (notes ++ rs, (deliver react ns left r).2.1),
          (deliver react ns left r).2.2) ∧
      rs.map (fun x => (x.what, x.observer)) = ns.map (fun n => (what, n.observer)) ∧
      (deliver react ns left r).1 =
        (ns.zip rs).filterMap (fun x => if x.2.accepted then none else some x.1.id) ∧
      Later (fun c n => ∃ x ∈ rs, (c, n.id) ∈ x.cancelled) r (deliver react ns left r).2.2 := by
  obtain ⟨vs, hrun, hobservers, hfailed, hafter⟩ :=
    deliver_logged react (receipt what) ns notes left r
  refine ⟨vs.map (receipt what), ?_, ?_, ?_, ?_⟩
  · rw [noted_eq]
    exact hrun
  · have htold := congrArg (List.map fun o => (what, o)) hobservers
    rw [List.map_map, List.map_map] at htold
    rw [List.map_map]
    exact htold
  · rw [hfailed, Visit.failed, List.zip_map_right, List.filterMap_map]
    rfl
  · rw [hafter]
    exact (later_foldl_apply hr _).congr fun c n _ => mem_changes_iff what

omit [DecidableEq ω] in
theorem mem_zip_iff {ns : List (Entry ω)} {rs : List (Receipt δ ω)}
    (htold : rs.map (·.observer) = ns.map (·.observer)) (hnodup : (ns.map (·.observer)).Nodup)
    {n : Entry ω} {x : Receipt δ ω} :
    (n, x) ∈ ns.zip rs ↔ n ∈ ns ∧ x ∈ rs ∧ x.observer = n.observer := by
  induction ns generalizing rs with
  | nil => simp
  | cons m ns ih =>
    cases rs with
    | nil => simp at htold
    | cons y rs =>
      rw [List.map_cons, List.map_cons, List.cons.injEq] at htold
      obtain ⟨hfirst, htold⟩ := htold
      rw [List.map_cons, List.nodup_cons] at hnodup
      rw [List.zip_cons_cons, List.mem_cons, ih htold hnodup.2, List.mem_cons, List.mem_cons]
      constructor
      · rintro (heq | ⟨hn, hx, heq⟩)
        · cases heq
          exact ⟨.inl rfl, .inl rfl, hfirst⟩
        · exact ⟨.inr hn, .inr hx, heq⟩
      · rintro ⟨rfl | hn, rfl | hx, heq⟩
        · exact .inl rfl
        · have hmem : n.observer ∈ ns.map (·.observer) := by
            rw [← htold, ← heq]
            exact List.mem_map_of_mem hx
          exact absurd hmem hnodup.1
        · have hmem : m.observer ∈ ns.map (·.observer) := by
            rw [← hfirst, heq]
            exact List.mem_map_of_mem hn
          exact absurd hmem hnodup.1
        · exact .inr ⟨hn, hx, heq⟩

def Fails (rs : List (Receipt δ ω)) (n : Entry ω) : Prop :=
  ∃ x ∈ rs, x.observer = n.observer ∧ x.accepted = false

theorem notify_noted (c : Channel) (notes : List (Receipt δ ω)) (left : ε) (hr : r.Sound) :
    ∃ rs, r.notify (noted what react) c (notes, left) =
        ((r.notify react c left).1, (notes ++ rs, (r.notify react c left).2.1),
          (r.notify react c left).2.2) ∧
      rs.map (fun x => (x.what, x.observer)) = (r.list c).map (fun n => (what, n.observer)) ∧
      Later (fun c' n => (c' = c ∧ Fails rs n) ∨ ∃ x ∈ rs, (c', n.id) ∈ x.cancelled) r
        (r.notify react c left).2.2 ∧
      (r.notify react c left).2.2.Sound := by
  obtain ⟨rs, hrun, htold, hfailed, hlater⟩ :=
    deliver_noted what react (r.list c) notes left hr
  have hobservers : rs.map (·.observer) = (r.list c).map (·.observer) := by
    simpa [Function.comp_def] using congrArg (List.map Prod.snd) htold
  have hmem : ∀ {id : Id}, id ∈ (deliver react (r.list c) left r).1 ↔
      ∃ n ∈ r.list c, n.id = id ∧ Fails rs n := by
    intro id
    rw [hfailed, List.mem_filterMap]
    constructor
    · rintro ⟨⟨n, x⟩, hx, hid⟩
      obtain ⟨hn, hx, heq⟩ := (mem_zip_iff hobservers (hr.observers c)).1 hx
      cases haccepted : x.accepted with
      | true => simp [haccepted] at hid
      | false =>
        rw [haccepted, if_neg Bool.false_ne_true, Option.some_inj] at hid
        exact ⟨n, hn, hid, x, hx, heq, haccepted⟩
    · rintro ⟨n, hn, rfl, x, hx, heq, haccepted⟩
      refine ⟨(n, x), (mem_zip_iff hobservers (hr.observers c)).2 ⟨hn, hx, heq⟩, ?_⟩
      rw [haccepted]
      rfl
  have hsound := sound_deliver react (r.list c) left hr
  have hnotify : r.notify (noted what react) c (notes, left) =
      ((r.notify react c left).1, (notes ++ rs, (r.notify react c left).2.1),
        (r.notify react c left).2.2) := by
    rw [notify, hrun]
    rfl
  refine ⟨rs, hnotify, htold, ?_, hsound.filter c _⟩
  refine (hlater.trans hr (later_filter _ c _)).congr fun c' n hn => ?_
  rw [or_comm, Bool.not_eq_false', List.contains_iff_mem, hmem]
  refine or_congr_left (and_congr_right ?_)
  rintro rfl
  constructor
  · rintro ⟨m, hm, hid, hfails⟩
    exact hr.eq_of_id hm hn hid ▸ hfails
  · exact fun hfails => ⟨n, hn, rfl, hfails⟩

end

end MillGateway.Subscription
