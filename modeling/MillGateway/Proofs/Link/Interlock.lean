import MillGateway.Proofs.Link.Simulator

/-! A simulated controller to which anything is done that can be: it is asked, launched and shut down,
and told how actions are to complete. Main statement: emergency stop, power and task state agree all
along, axes that are homed stay so, what fails changes nothing, and reports agree with themselves. -/

namespace MillGateway.Link.Simulator

open Machine

/-! ### Deeds -/

inductive Meddling where
  | script (cs : List Completion)
  | message (x : Message)
  | setRunning (b : Bool)
  | setFailLaunch (b : Bool)

def meddle (m : Simulator) : Meddling → Simulator
  | .script cs => { m with scripted := m.scripted ++ cs }
  | .message x => { m with messages := m.messages ++ [x] }
  | .setRunning b => { m with running := b }
  | .setFailLaunch b => { m with failLaunch := b }

inductive Deed where
  /-- It is asked, and a channel that it opens gets the number `next`. -/
  | call (next : ChannelId) (c : Call)
  | meddle (x : Meddling)

def does (m : Simulator) : Deed → Simulator
  | .call next c => (m.answer next c).2
  | .meddle x => m.meddle x

def after (m : Simulator) (ds : List Deed) : Simulator :=
  ds.foldl does m

theorem after_append (m : Simulator) (ds ds' : List Deed) :
    m.after (ds ++ ds') = (m.after ds).after ds' :=
  List.foldl_append

variable {m : Simulator} {ds : List Deed}

theorem status_does (m : Simulator) (d : Deed) :
    (m.does d).status = m.status ∨ ∃ a, (m.does d).status = (apply m.status a).1 := by
  cases d with
  | call next c => exact (Answers.later (o := .link c) ⟨next, rfl⟩).status
  | meddle x => cases x <;> exact .inl rfl

theorem status_after {P : Status → Prop} (hP : ∀ s a, P s → P (apply s a).1) (h : P m.status)
    (ds : List Deed) : P (m.after ds).status := by
  induction ds generalizing m with
  | nil => exact h
  | cons d ds ih =>
    refine ih ?_
    rcases m.status_does d with hs | ⟨a, hs⟩
    · rw [hs]
      exact h
    · rw [hs]
      exact hP m.status a h

/-! ### Status -/

/-- Whether the task state tells whether there is an emergency stop, and whether there is power. -/
structure Agrees (s : Status) : Prop where
  estop : s.estop = true ↔ s.taskState = .estop
  enabled : s.enabled = true ↔ s.taskState = .on

theorem agrees_apply (s : Status) (a : Action) (h : Agrees s) : Agrees (apply s a).1 := by
  cases a with
  | state t =>
    rw [apply]
    split
    · exact h
    next hgranted =>
      cases t with
      | estop => exact ⟨by simp [setTaskState], by simp [setTaskState]⟩
      | estopReset => exact ⟨by simp [setTaskState], by simp [setTaskState]⟩
      | off => exact ⟨by simp [setTaskState], by simp [setTaskState]⟩
      | on =>
        -- the emergency stop was not on, or power would have been refused
        have hestop : s.estop = false := by simpa using hgranted
        exact ⟨by simp [setTaskState, hestop], by simp [setTaskState]⟩
  | home axis =>
    rw [apply]
    split
    · exact ⟨h.estop, h.enabled⟩
    · exact h
  | auto c => cases c <;> exact ⟨h.estop, h.enabled⟩
  | mode | jog | mdi | programOpen | abort | resetInterpreter | loadToolTable =>
    exact ⟨h.estop, h.enabled⟩

theorem Agrees.not_enabled {s : Status} (h : Agrees s) (hestop : s.estop = true) :
    s.enabled = false := by
  rw [Bool.eq_false_iff]
  intro henabled
  have hon := h.enabled.1 henabled
  rw [h.estop.1 hestop] at hon
  cases hon

theorem Agrees.report {s : Status} (h : Agrees s) :
    s.report.taskState = "estop" ↔ s.report.estop = "estop" := by
  have hestop := h.estop
  cases hs : s.taskState with
  | estop =>
    rw [hs] at hestop
    simp [Status.report, hs, hestop.2 rfl]
  | estopReset | off | on =>
    have hfalse : s.estop = false := by
      rw [Bool.eq_false_iff, ne_eq, hestop, hs]
      nofun
    simp [Status.report, hs, hfalse]

theorem homed_getElem?_apply {s : Status} {n : Nat} (h : s.homed[n]? = some true) (a : Action) :
    (apply s a).1.homed[n]? = some true := by
  rcases homed_apply s a with hsame | ⟨k, hset⟩
  · rw [hsame, h]
  · rw [hset]
    by_cases hk : k = n
    · subst hk
      obtain ⟨hlt, -⟩ := List.getElem?_eq_some_iff.1 h
      rw [List.getElem?_set_self hlt]
    · rw [List.getElem?_set_ne hk, h]

theorem length_homed_apply (s : Status) (a : Action) :
    (apply s a).1.homed.length = s.homed.length := by
  rcases homed_apply s a with hsame | ⟨k, hset⟩
  · rw [hsame]
  · rw [hset, List.length_set]

theorem apply_of_error {s : Status} {a : Action} (h : (apply s a).2 = .error) :
    (apply s a).1 = s := by
  cases a with
  | state t =>
    rw [apply] at h ⊢
    split at h
    next hrefused => rw [if_pos hrefused]
    next => cases h
  | home axis =>
    rw [apply] at h ⊢
    split at h
    next => cases h
    next hmissing => rw [if_neg hmissing]
  | auto c => cases c <;> cases h
  | mode | jog | mdi | programOpen | abort | resetInterpreter | loadToolTable => cases h

/-! ### Actions -/

def nextCompletion (m : Simulator) (a : Action) : Completion :=
  m.scripted.head?.getD (apply m.status a).2

theorem issue_of_running (h : m.running = true) (a : Action) :
    m.issue a = (.ok (m.lastHandle + 1), { m with
      status := if m.scripted = [] then (apply m.status a).1 else m.status
      scripted := m.scripted.tail
      issued := m.issued ++ [a]
      completions := keep (m.lastHandle + 1) (m.nextCompletion a) m.completions
      lastHandle := m.lastHandle + 1 }) := by
  rw [issue, h, nextCompletion]
  cases m.scripted with
  | nil => rfl
  | cons c cs => rfl

theorem issue_of_stopped (h : m.running = false) (a : Action) :
    m.issue a = (.error (.notRunning m.name), m) := by
  rw [issue, h]
  rfl

theorem status_issue_of_error {a : Action} (h : m.nextCompletion a = .error) :
    (m.issue a).2.status = m.status := by
  cases hrunning : m.running with
  | false => rw [issue_of_stopped hrunning]
  | true =>
    rw [issue_of_running hrunning]
    dsimp only
    split
    next hscripted =>
      rw [nextCompletion, hscripted] at h
      exact apply_of_error h
    next => rfl

theorem eq_of_issue_error {a : Action} {e : Error} {m' : Simulator}
    (h : m.issue a = (.error e, m')) : m.running = false ∧ m' = m := by
  cases hrunning : m.running with
  | false =>
    rw [issue_of_stopped hrunning] at h
    exact ⟨rfl, (Prod.mk.inj h).2.symm⟩
  | true =>
    rw [issue_of_running hrunning] at h
    cases h

theorem agrees_new (name : String) (axes : Nat) : Agrees (new name axes).status :=
  ⟨⟨fun _ => rfl, fun _ => rfl⟩, ⟨nofun, nofun⟩⟩

/-- Whatever has been done to a new machine: there is an emergency stop exactly in that task state,
and power exactly in the state `on`, so never both; there are as many axes as at first, and those that
are homed stay so whatever is done further; an action that fails leaves the status as it is, and one
that is refused, which happens exactly while the machine is stopped, leaves everything as it is; and a
report names the emergency stop in both places or in neither. -/
theorem interlocked (name : String) (axes : Nat) (ds : List Deed) :
    let m := (new name axes).after ds
    (m.status.estop = true ↔ m.status.taskState = .estop) ∧
    (m.status.enabled = true ↔ m.status.taskState = .on) ∧
    (m.status.estop = true → m.status.enabled = false) ∧
    m.status.homed.length = axes ∧
    (∀ ds' (n : Nat), m.status.homed[n]? = some true → (m.after ds').status.homed[n]? = some true) ∧
    (∀ a, (m.scripted = [] → (apply m.status a).2 = .error → (m.issue a).2.status = m.status) ∧
      (m.nextCompletion a = .error → (m.issue a).2.status = m.status)) ∧
    (∀ a, m.running = false → m.issue a = (.error (.notRunning m.name), m)) ∧
    (∀ a e m', m.issue a = (.error e, m') → m.running = false ∧ m' = m) ∧
    (m.status.report.taskState = "estop" ↔ m.status.report.estop = "estop") ∧
    ∀ s, m.pollStatus = .ok s → (s.report.taskState = "estop" ↔ s.report.estop = "estop") := by
  intro m
  have hagrees : Agrees m.status := status_after agrees_apply (agrees_new name axes) ds
  have hlength : m.status.homed.length = axes :=
    status_after (P := fun s => s.homed.length = axes)
      (fun s a h => (length_homed_apply s a).trans h) List.length_replicate ds
  refine ⟨hagrees.estop, hagrees.enabled, hagrees.not_enabled, hlength, fun ds' n hn => ?_,
    fun a => ⟨fun hscripted herror => ?_, status_issue_of_error⟩, fun a h => issue_of_stopped h a,
    fun a e m' h => eq_of_issue_error h, hagrees.report, fun s hs => ?_⟩
  · exact status_after (P := fun s => s.homed[n]? = some true)
      (fun _ a h => homed_getElem?_apply h a) hn ds'
  · refine status_issue_of_error ?_
    rw [nextCompletion, hscripted]
    exact herror
  · rw [pollStatus] at hs
    split at hs
    · cases hs
      exact hagrees.report
    · cases hs

theorem interlocked_refused :
    let m := (new "mill" 2).after [.call 0 .launch, .call 0 (.issue (.home 1)),
      .meddle (.script [.error]), .call 0 (.issue (.state .estopReset))]
    m.status.estop = true ∧ m.status.enabled = false ∧
      (m.issue (.state .on)).2.status = m.status ∧
      (m.after [.call 0 .shutdown]).status.homed[1]? = some true ∧
      m.status.report.taskState = "estop" ∧ m.status.report.estop = "estop" := by
  intro m
  obtain ⟨hestop, -, hpower, -, hhomed, hfailed, -, -, hreport, -⟩ :=
    interlocked "mill" 2 [.call 0 .launch, .call 0 (.issue (.home 1)),
      .meddle (.script [.error]), .call 0 (.issue (.state .estopReset))]
  have htold : m.status.report.estop = "estop" := rfl
  exact ⟨hestop.2 rfl, hpower rfl, (hfailed (.state .on)).1 rfl rfl,
    hhomed [.call 0 .shutdown] 1 rfl, hreport.2 htold, htold⟩

end MillGateway.Link.Simulator
