import MillGateway.Proofs.Link.Interlock
import MillGateway.Proofs.Lookup

/-! The book that a simulated controller keeps of completions, from which each is collected by its
handle. Main statements: handles are new, and what a wait finds is told by how the action of the
handle completed, and by whether it has been waited for before. -/

namespace MillGateway.Link

def Call.isBooked : Call → Bool
  | .issue _ | .wait _ _ => true
  | _ => false

namespace Simulator

/-! ### Entries of a book -/

section

variable {h h' : Handle} {c : Completion} {cs : List (Handle × Completion)}

theorem lookup_keep_ne (hne : h' ≠ h) : (keep h c cs).lookup h' = cs.lookup h' := by
  rw [keep, lookup_cons_of_ne hne]
  exact lookup_filter_ne hne

end

/-! ### Handles -/

def grants? (m : Simulator) : Deed → Option Handle
  | .call _ (.issue a) => (m.issue a).1.toOption
  | _ => none

def granted (m : Simulator) : List Deed → List Handle
  | [] => []
  | d :: ds => (m.grants? d).toList ++ (m.does d).granted ds

section

variable {m : Simulator} {ds ds' : List Deed} {h : Handle}

theorem granted_append (m : Simulator) (ds ds' : List Deed) :
    m.granted (ds ++ ds') = m.granted ds ++ (m.after ds).granted ds' := by
  induction ds generalizing m with
  | nil => rfl
  | cons d ds ih =>
    rw [List.cons_append, granted, granted, ih, List.append_assoc]
    rfl

theorem lastHandle_collect (m : Simulator) (h : Handle) :
    (m.collect h).2.lastHandle = m.lastHandle := by
  unfold collect
  split
  · rfl
  · dsimp only
    split <;> rfl

theorem book_answer {c : Call} (hc : c.isBooked = false) (m : Simulator) (next : ChannelId) :
    (m.answer next c).2.completions = m.completions ∧
      (m.answer next c).2.lastHandle = m.lastHandle := by
  cases c with
  | pollStatus | openChannel | shutdown => exact ⟨rfl, rfl⟩
  | pollChannel =>
    show m.pollChannel.2.completions = _ ∧ m.pollChannel.2.lastHandle = _
    unfold pollChannel
    split
    · exact ⟨rfl, rfl⟩
    · split <;> exact ⟨rfl, rfl⟩
  | launch =>
    show m.launch.2.completions = _ ∧ m.launch.2.lastHandle = _
    unfold launch
    split <;> exact ⟨rfl, rfl⟩
  | issue | wait => cases hc

theorem book_meddle (m : Simulator) (x : Meddling) :
    (m.meddle x).completions = m.completions ∧ (m.meddle x).lastHandle = m.lastHandle := by
  cases x <;> exact ⟨rfl, rfl⟩

theorem grants?_cases (m : Simulator) (d : Deed) :
    m.grants? d = none ∧ (m.does d).lastHandle = m.lastHandle ∨
      m.grants? d = some (m.lastHandle + 1) ∧ (m.does d).lastHandle = m.lastHandle + 1 := by
  cases d with
  | meddle x => exact .inl ⟨rfl, (m.book_meddle x).2⟩
  | call next c =>
    cases c with
    | pollStatus | openChannel | pollChannel | launch | shutdown =>
      exact .inl ⟨rfl, (book_answer rfl m next).2⟩
    | wait h limit => exact .inl ⟨rfl, m.lastHandle_collect h⟩
    | issue a =>
      rw [grants?, does, answer]
      cases hrunning : m.running with
      | false =>
        rw [issue_of_stopped hrunning]
        exact .inl ⟨rfl, rfl⟩
      | true =>
        rw [issue_of_running hrunning]
        exact .inr ⟨rfl, rfl⟩

def handleAt (m : Simulator) (k : Nat) : Handle :=
  m.lastHandle + UInt64.ofNat (k + 1)

theorem granted_eq (m : Simulator) (ds : List Deed) :
    m.granted ds = (List.range (m.granted ds).length).map m.handleAt := by
  induction ds generalizing m with
  | nil => rfl
  | cons d ds ih =>
    rw [granted]
    rcases m.grants?_cases d with ⟨hnone, hlast⟩ | ⟨hsome, hlast⟩
    · rw [hnone, Option.toList_none, List.nil_append]
      refine (ih _).trans (List.map_congr_left fun k _ => ?_)
      rw [handleAt, handleAt, hlast]
    · rw [hsome, Option.toList_some, List.singleton_append, List.length_cons,
        List.range_succ_eq_map, List.map_cons, List.map_map]
      refine congrArg (_ :: ·) ((ih _).trans (List.map_congr_left fun k _ => ?_))
      rw [handleAt, hlast, Function.comp_apply, handleAt, Nat.succ_eq_add_one, UInt64.add_assoc,
        Nat.add_comm (k + 1) 1, UInt64.ofNat_add 1]
      rfl

theorem eq_of_handleAt_eq {i j : Nat} (hi : i + 1 < UInt64.size) (hj : j + 1 < UInt64.size)
    (h : m.handleAt i = m.handleAt j) : i = j := by
  have hnumbers := congrArg UInt64.toNat ((UInt64.add_right_inj m.lastHandle).1 h)
  rw [UInt64.toNat_ofNat_of_lt' hi, UInt64.toNat_ofNat_of_lt' hj] at hnumbers
  exact Nat.succ.inj hnumbers

theorem nodup_granted (h : (m.granted ds).length < UInt64.size) : (m.granted ds).Nodup := by
  rw [granted_eq]
  refine List.Nodup.map_on (fun i hi j hj hsame => ?_) List.nodup_range
  have hi := List.mem_range.1 hi
  have hj := List.mem_range.1 hj
  exact eq_of_handleAt_eq (Nat.lt_of_le_of_lt hi h) (Nat.lt_of_le_of_lt hj h) hsame

end

/-! ### What waits find -/

def Deed.waitsFor (h : Handle) : Deed → Bool
  | .call _ (.wait h' _) => h' == h
  | _ => false

/-- What is found under a handle once it has been waited for: nothing that is settled. -/
def leftOf (waited : Bool) (c? : Option Completion) : Option Completion :=
  c?.filter fun c => !(waited && c.isSettled)

section

variable {m : Simulator} {ds : List Deed} {h : Handle}

theorem leftOf_false (c? : Option Completion) : leftOf false c? = c? := by
  cases c? <;> rfl

theorem leftOf_leftOf (waited waited' : Bool) (c? : Option Completion) :
    leftOf waited (leftOf waited' c?) = leftOf (waited' || waited) c? := by
  cases c? with
  | none => rfl
  | some c => cases waited <;> cases waited' <;> cases c <;> rfl

theorem lookup_collect (m : Simulator) (h h' : Handle) :
    (m.collect h).2.completions.lookup h' = leftOf (h == h') (m.completions.lookup h') := by
  by_cases hsame : h = h'
  · subst hsame
    rw [beq_self_eq_true, collect]
    cases hlookup : m.completions.lookup h with
    | none => exact hlookup
    | some c =>
      dsimp only
      split
      next hsettled =>
        rw [lookup_filter_self, leftOf, Option.filter_some, Bool.true_and, hsettled]
        rfl
      next hunsettled =>
        rw [hlookup, leftOf, Option.filter_some, Bool.true_and, Bool.eq_false_iff.2 hunsettled]
        rfl
  · rw [beq_false_of_ne hsame, leftOf_false, collect]
    split
    · rfl
    · dsimp only
      split
      · exact lookup_filter_ne (Ne.symm hsame)
      · rfl

theorem lookup_does {d : Deed} (hnew : m.grants? d ≠ some h) :
    (m.does d).completions.lookup h = leftOf (d.waitsFor h) (m.completions.lookup h) := by
  cases d with
  | meddle x =>
    rw [does, (m.book_meddle x).1]
    exact (leftOf_false _).symm
  | call next c =>
    cases c with
    | pollStatus | openChannel | pollChannel | launch | shutdown =>
      rw [does, (book_answer rfl m next).1]
      exact (leftOf_false _).symm
    | wait h' limit => exact m.lookup_collect h' h
    | issue a =>
      have hwaits : (Deed.call next (.issue a)).waitsFor h = false := rfl
      rw [hwaits, leftOf_false, does, answer]
      cases hrunning : m.running with
      | false => rw [issue_of_stopped hrunning]
      | true =>
        rw [grants?, issue_of_running hrunning] at hnew
        rw [issue_of_running hrunning]
        exact lookup_keep_ne fun hsame => hnew (congrArg some hsame.symm)

theorem lookup_after (hnew : h ∉ m.granted ds) : (m.after ds).completions.lookup h =
    leftOf (ds.any (·.waitsFor h)) (m.completions.lookup h) := by
  induction ds generalizing m with
  | nil => exact (leftOf_false _).symm
  | cons d ds ih =>
    rw [granted, List.mem_append, not_or, Option.mem_toList] at hnew
    have hrest := ih hnew.2
    rw [lookup_does hnew.1, leftOf_leftOf] at hrest
    exact hrest

theorem fst_collect (m : Simulator) (h : Handle) : (m.collect h).1 =
    match m.completions.lookup h with
    | none => .error (.unknownHandle h)
    | some c => .ok c := by
  rw [collect]
  cases m.completions.lookup h <;> rfl

theorem fst_collect_collect {h' : Handle} (hne : h' ≠ h) (m : Simulator) :
    ((m.collect h).2.collect h').1 = (m.collect h').1 := by
  rw [fst_collect, fst_collect, lookup_collect, beq_false_of_ne hne.symm, leftOf_false]

theorem fst_collect_unknown (hm : m.completions = []) (hnew : h ∉ m.granted ds) :
    ((m.after ds).collect h).1 = .error (.unknownHandle h) := by
  rw [fst_collect, lookup_after hnew, hm]
  rfl

theorem eq_of_issue_ok {a : Action} (hissue : (m.issue a).1 = .ok h) :
    h = m.lastHandle + 1 ∧ (m.issue a).2.lastHandle = m.lastHandle + 1 ∧
      (m.issue a).2.completions = keep h (m.nextCompletion a) m.completions := by
  cases hrunning : m.running with
  | false =>
    rw [issue_of_stopped hrunning] at hissue
    cases hissue
  | true =>
    rw [issue_of_running hrunning] at hissue ⊢
    cases hissue
    exact ⟨rfl, rfl, rfl⟩

theorem fst_collect_issued {ds₁ ds₂ : List Deed} {next : ChannelId} {a : Action}
    (hnodup : (m.granted (ds₁ ++ .call next (.issue a) :: ds₂)).Nodup)
    (hissue : ((m.after ds₁).issue a).1 = .ok h) :
    ((m.after (ds₁ ++ .call next (.issue a) :: ds₂)).collect h).1 =
      if ds₂.any (·.waitsFor h) && ((m.after ds₁).nextCompletion a).isSettled then
        .error (.unknownHandle h)
      else .ok ((m.after ds₁).nextCompletion a) := by
  obtain ⟨-, -, hbook⟩ := eq_of_issue_ok hissue
  have hgrants : (m.after ds₁).grants? (.call next (.issue a)) = some h := by
    rw [grants?, hissue]
    rfl
  have hnew : h ∉ ((m.after ds₁).issue a).2.granted ds₂ := by
    rw [granted_append, granted, hgrants] at hnodup
    exact (List.nodup_cons.1 (List.nodup_append.1 hnodup).2.1).1
  have hafter : m.after (ds₁ ++ .call next (.issue a) :: ds₂) =
      ((m.after ds₁).issue a).2.after ds₂ := m.after_append ds₁ _
  rw [hafter, fst_collect, lookup_after hnew, hbook, keep, List.lookup_cons_self, leftOf,
    Option.filter_some]
  cases ds₂.any (·.waitsFor h) && ((m.after ds₁).nextCompletion a).isSettled <;> rfl

end

end Simulator

end MillGateway.Link
