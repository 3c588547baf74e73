import MillGateway.Console.Session
import MillGateway.Proofs.Schedule.Rounds

/-! Sessions from one line to the next. Main statements: whoever has had an answer finds the session
ready for the next line, and a line that writes no request is answered at once and leaves the session
as it was for those behind it. -/

namespace MillGateway

namespace Schedule

/-- Whether a new task can be run in the foreground: none is left there from before. -/
structure AtPrompt (s : Schedule α ω ε) : Prop where
  front : ∀ t ∈ s.tasks, t.inFront = false
  numbered : ∀ t ∈ s.tasks, t.id < s.nextTask
  woken : s.shared.woken = []
  results : s.results = []

variable {s : Schedule α ω ε}

section

variable [DecidableEq ω]

theorem turn_done (hs : s.AtPrompt) (a : α) :
    (s.add true none (.ready (.done a))).2.turn s.nextTask =
      { s with nextTask := s.nextTask + 1, results := [(s.nextTask, a)] } := by
  have hnew : ∀ t ∈ s.tasks, t.id ≠ s.nextTask := fun t ht => Nat.ne_of_lt (hs.numbered t ht)
  have hfind : (s.add true none (.ready (.done a))).2.task? s.nextTask =
      some ⟨s.nextTask, true, none, .ready (.done a), 0⟩ := by
    have hnone : s.tasks.find? (·.id == s.nextTask) = none := by
      rw [List.find?_eq_none]
      exact fun t ht => by simpa using hnew t ht
    simp [task?, add, hnone]
  have hfilter : (s.tasks ++ [(⟨s.nextTask, true, none, .ready (.done a), 0⟩ : Task α)]).filter
      (·.id != s.nextTask) = s.tasks := by
    have hsame : s.tasks.filter (·.id != s.nextTask) = s.tasks := by
      rw [List.filter_eq_self]
      exact fun t ht => by simpa using hnew t ht
    simp [hsame]
  rw [turn, hfind]
  simp only [carryOn, Job.advance, if_true]
  rw [wake_of_none]
  · simp only [settle, add, hfilter, hs.results, List.nil_append]
  · exact hs.woken

theorem runOne?_done (hs : s.AtPrompt) (a : α) :
    s.runOne? (.done a) = (some a, { s with nextTask := s.nextTask + 1 }) := by
  have hquiet : (s.tasks.any (·.inFront)) = false := by
    rw [List.any_eq_false]
    intro t ht
    simp [hs.front t ht]
  have hstop : ∀ n (s' : Schedule α ω ε), s'.tasks = s.tasks →
      s'.runFor (fun s => s.tasks.any (·.inFront)) n = s' := by
    intro n s' hs'
    cases n with
    | zero => rfl
    | succ n =>
      rw [runFor, hs', hquiet]
      rfl
  simp only [runOne?, runInFront, List.foldl_cons, List.foldl_nil, List.nil_append]
  have hadd : (s.add true none (.ready (.done a))).1 = s.nextTask := rfl
  rw [hadd, turn_done hs, run, hstop]
  · simp [collect, hs.results]
  · rfl

end

/-! ### After a task of the foreground -/

def Task.Fits (i : TaskId) (s : Schedule α ω ε) (t : Task α) : Prop :=
  (t.inFront = true → t.id = i) ∧ t.id < s.nextTask ∧ ∀ x ∈ s.results, t.id ≠ x.1

/-- Whether a schedule has nobody but `i` in the foreground, and none of its tasks has a result. -/
structure Serving (i : TaskId) (s : Schedule α ω ε) : Prop where
  woken : s.shared.woken = []
  tasks : ∀ t ∈ s.tasks, t.Fits i s

namespace Serving

variable {i : TaskId} {s' : Schedule α ω ε} {t : Task α}

theorem alike (h : Serving i s) (hlike : Alike s s') : Serving i s' where
  woken := by
    rw [hlike.shared]
    exact h.woken
  tasks := by
    unfold Task.Fits
    rw [hlike.tasks, hlike.nextTask, hlike.results]
    exact h.tasks

theorem setTask (h : Serving i s) (ht : t.Fits i s) : Serving i (s.setTask t) where
  woken := h.woken
  tasks t' ht' := by
    rcases mem_setTask ht' with rfl | ⟨hmem, -⟩
    · exact ht
    · exact h.tasks t' hmem

theorem wake (h : ∀ t ∈ s.tasks, t.Fits i s) : Serving i s.wake where
  woken := by rw [shared_wake]
  tasks t ht := by
    rcases mem_wake ht with ht | ⟨t', ht', k, -, -, rfl⟩
    · exact h t ht
    · exact h t' ht'

theorem settle (h : Serving i s) (ht : t.Fits i s) (p : Pause Delay α) :
    Serving i (s.settle t p) := by
  cases p with
  | finished a =>
    cases hrepeats : t.repeats? with
    | none =>
      rw [Schedule.settle, hrepeats]
      refine ⟨h.woken, fun t' ht' => ?_⟩
      obtain ⟨hmem, hne⟩ := List.mem_filter.1 ht'
      obtain ⟨hfront, hnumber, hresults⟩ := h.tasks t' hmem
      refine ⟨hfront, hnumber, fun x hx => ?_⟩
      rcases List.mem_append.1 hx with hx | hx
      · exact hresults x hx
      · rw [List.mem_singleton.1 hx]
        simpa using hne
    | some x =>
      exact (h.setTask (t := { t with stand := .ticking, since := s.nextWait }) ht).alike
        (alike_settle_finished hrepeats a)
  | blocked l k => exact h.setTask (t := { t with stand := .blocked k }) ht
  | waiting o d k =>
    exact (h.setTask (t := { t with stand := .waiting o d k, since := s.nextWait }) ht).alike
      (alike_settle_waiting o d k)
  | spent j =>
    exact (h.setTask (t := { t with stand := .ready j }) ht).alike (alike_settle_spent j)

variable [DecidableEq ω]

theorem carryOn (h : Serving i s) (ht : t.Fits i s) (j : Job α) (left : Nat) :
    Serving i (s.carryOn t j left) := by
  unfold Schedule.carryOn
  generalize j.advance s.floor t.id left s.shared = x
  obtain ⟨p, left', sh⟩ := x
  dsimp only
  split
  · exact settle (wake (s := { s with left := left', shared := sh }) h.tasks) ht p
  · exact settle (wake (s := { s with shared := sh }) h.tasks) ht p

theorem turn (h : Serving i s) (id : TaskId) : Serving i (s.turn id) := by
  unfold Schedule.turn
  cases hfind : s.task? id with
  | none => exact h
  | some t =>
    have ht := h.tasks t (mem_of_task? hfind).1
    dsimp only
    generalize (if t.inFront then s.left else Job.turnLength) = left
    cases t.stand with
    | ready j => exact h.carryOn ht j left
    | blocked k => exact h
    | waiting o d k =>
      have hworld : ∀ w, Serving i (s.setWorld w) := fun w => ⟨h.woken, h.tasks⟩
      dsimp only
      rcases s.world.resume o d with ⟨a | d', w⟩
      · exact (hworld w).carryOn ht (k a) (left - 1)
      · exact (hworld w).settle ht _
    | ticking =>
      dsimp only
      cases t.repeats? with
      | none => exact h
      | some x =>
        obtain ⟨ticker, j⟩ := x
        exact h.carryOn (t := { t with repeats? := some (ticker.tick s.now, j), stand := .ticking })
          ht j (left - 1)
    | ending => exact wake fun t' ht' => h.tasks t' (List.mem_filter.1 ht').1

theorem kept (i : TaskId) : Kept (Serving (α := α) (ω := ω) (ε := ε) i) where
  alike hlike h := h.alike hlike
  turn id h := h.turn id
  passes _ h := ⟨h.woken, h.tasks⟩

end Serving

namespace AtPrompt

theorem serving (hs : s.AtPrompt) (j : Job α) :
    Serving s.nextTask (s.add true none (.ready j)).2 where
  woken := hs.woken
  tasks t ht := by
    have hresults : ∀ x ∈ s.results, t.id ≠ x.1 := by
      rw [hs.results]
      exact List.forall_mem_nil _
    rcases List.mem_append.1 ht with ht | ht
    · refine ⟨fun hfront => ?_, Nat.lt_succ_of_lt (hs.numbered t ht), hresults⟩
      rw [hs.front t ht] at hfront
      cases hfront
    · rw [List.mem_singleton.1 ht] at hresults ⊢
      exact ⟨fun _ => rfl, Nat.lt_succ_self _, hresults⟩

theorem startRepeating (hs : s.AtPrompt) (period : Nat) (j : Job α) :
    (s.startRepeating period j).2.AtPrompt where
  front t ht := by
    rcases List.mem_append.1 ht with ht | ht
    · exact hs.front t ht
    · rw [List.mem_singleton.1 ht]
  numbered t ht := by
    rcases List.mem_append.1 ht with ht | ht
    · exact Nat.lt_succ_of_lt (hs.numbered t ht)
    · rw [List.mem_singleton.1 ht]
      exact Nat.lt_succ_self _
  woken := hs.woken
  results := hs.results

variable [DecidableEq ω]

theorem runOne? (hs : s.AtPrompt) {j : Job α} (hended : (s.runOne? j).1.isSome = true) :
    (s.runOne? j).2.AtPrompt := by
  have hserving : Serving s.nextTask (((s.add true none (.ready j)).2.turn s.nextTask).run
      fun s => s.tasks.any (·.inFront)) :=
    (Serving.kept _).runFor _ _ ((hs.serving j).turn _)
  simp only [Schedule.runOne?, runInFront, List.foldl_cons, List.foldl_nil, List.nil_append]
    at hended ⊢
  have hadd : (s.add true none (.ready j)).1 = s.nextTask := rfl
  rw [hadd] at hended ⊢
  generalize ((s.add true none (.ready j)).2.turn s.nextTask).run _ = s' at hended hserving
  refine ⟨fun t ht => ?_, fun t ht => (hserving.tasks t ht).2.1, hserving.woken, rfl⟩
  obtain ⟨hfront, -, hresults⟩ := hserving.tasks t ht
  cases hlookup : s'.results.lookup s.nextTask with
  | none =>
    simp [collect, hlookup] at hended
  | some a =>
    obtain ⟨l, l', hs', -⟩ := List.lookup_eq_some_iff.1 hlookup
    have hne := hresults (s.nextTask, a) (by simp [hs'])
    exact Bool.eq_false_iff.2 fun h => hne (hfront h)

end AtPrompt

end Schedule

namespace Console

def Malformed (line : String) : Prop :=
  ∃ text e, content? line = some text ∧ Request.read text = .error e

namespace Session

def afterIdleTasks (s : Session) (n : Nat) : Session :=
  { s with schedule := { s.schedule with nextTask := s.schedule.nextTask + n } }

variable {s : Session}

theorem atPrompt_afterIdleTasks (hs : s.schedule.AtPrompt) (n : Nat) :
    (s.afterIdleTasks n).schedule.AtPrompt where
  front := hs.front
  numbered t ht := Nat.lt_add_right n (hs.numbered t ht)
  woken := hs.woken
  results := hs.results

theorem atPrompt_idle (gate : Link.Gate) (files : FileTree) :
    (idle gate files : Schedule α Empty Unit).AtPrompt where
  front := List.forall_mem_nil _
  numbered := List.forall_mem_nil _
  woken := rfl
  results := rfl

theorem atPrompt_ofPlan {p : Plan} {files : FileTree}
    (hopened : ((idle { machine := p.simulator } files).runOne?
      (do p.opening; return none : Job (Option Reply))).1.isSome = true) :
    (ofPlan p files).schedule.AtPrompt :=
  (((atPrompt_idle _ files).runOne? hopened).startRepeating _ _).startRepeating _ _

theorem atPrompt_ofPlan_of_not_autostart {p : Plan} (files : FileTree)
    (h : p.settings.controller.autostart = false) : (ofPlan p files).schedule.AtPrompt := by
  refine atPrompt_ofPlan ?_
  have hopening : (do p.opening; return none : Job (Option Reply)) = .done none := by
    rw [Plan.opening, h]
    rfl
  rw [hopening, Schedule.runOne?_done (atPrompt_idle _ files)]
  rfl

theorem atPrompt_receive (hs : s.schedule.AtPrompt) {line : String}
    (h : content? line = none ∨ (s.receive line).1.isSome = true) :
    (s.receive line).2.schedule.AtPrompt := by
  unfold receive at h ⊢
  cases hline : content? line with
  | none => exact hs
  | some text =>
    rw [hline] at h
    dsimp only at h ⊢
    refine hs.runOne? ?_
    obtain h | hreply := h
    · cases h
    · cases hended : (s.schedule.runOne? (some <$> answer s.setup text)).1 with
      | none => rw [hended] at hreply; cases hreply
      | some r? => rfl

def behind (s : Session) : List String → Session
  | [] => s
  | line :: lines => (s.receive line).2.behind lines

/-- Whether each of these lines is blank or has its reply before the next one comes. -/
def Answers (s : Session) : List String → Prop
  | [] => True
  | line :: lines => (content? line = none ∨ (s.receive line).1.isSome = true) ∧
      (s.receive line).2.Answers lines

theorem atPrompt_behind (hs : s.schedule.AtPrompt) {lines : List String} (h : s.Answers lines) :
    (s.behind lines).schedule.AtPrompt := by
  induction lines generalizing s with
  | nil => exact hs
  | cons line lines ih => exact ih (atPrompt_receive hs h.1) h.2

theorem replies_append (s : Session) (lines lines' : List String) :
    s.replies (lines ++ lines') = s.replies lines ++ (s.behind lines).replies lines' := by
  induction lines generalizing s with
  | nil => rfl
  | cons line lines ih =>
    rw [List.cons_append, replies, replies, behind]
    dsimp only
    rw [ih, List.append_assoc]

theorem receive_malformed (hs : s.schedule.AtPrompt) {line : String} (h : Malformed line) :
    ∃ e, s.receive line = (some (.of (.malformed e)), s.afterIdleTasks 1) := by
  obtain ⟨text, e, hline, hread⟩ := h
  have hanswer : some <$> answer s.setup text = Job.done (some (Reply.of (.malformed e))) := by
    rw [answer, hread]
    rfl
  refine ⟨e, ?_⟩
  unfold receive
  simp only [hline, hanswer, Schedule.runOne?_done hs]
  rfl

/-- However many lines write no request, each is answered, and those behind them are processed as if
they had come first. -/
theorem replies_malformed (hs : s.schedule.AtPrompt) {bad : List String}
    (hbad : ∀ line ∈ bad, Malformed line) (lines : List String) :
    ∃ rs, rs.length = bad.length ∧ (∀ r ∈ rs, Reply.code r = -1) ∧
      s.replies (bad ++ lines) = rs ++ (s.afterIdleTasks bad.length).replies lines := by
  induction bad generalizing s with
  | nil =>
    have hsame : s.afterIdleTasks 0 = s := rfl
    refine ⟨[], rfl, List.forall_mem_nil _, ?_⟩
    rw [List.length_nil, hsame, List.nil_append, List.nil_append]
  | cons line bad ih =>
    obtain ⟨e, he⟩ := receive_malformed hs (hbad line List.mem_cons_self)
    obtain ⟨rs, hlength, hcode, hreplies⟩ := ih (atPrompt_afterIdleTasks hs 1)
      fun l hl => hbad l (List.mem_cons_of_mem _ hl)
    refine ⟨.of (.malformed e) :: rs, congrArg (· + 1) hlength, ?_, ?_⟩
    · intro r hr
      rcases List.mem_cons.1 hr with rfl | hr
      · rfl
      · exact hcode r hr
    · have hnext : (s.afterIdleTasks 1).afterIdleTasks bad.length =
          s.afterIdleTasks (bad.length + 1) := by
        simp only [afterIdleTasks, Nat.add_assoc, Nat.add_comm 1]
      rw [List.cons_append, replies, he]
      dsimp only
      rw [hreplies, hnext, List.length_cons, Option.toList_some, List.cons_append,
        List.nil_append, List.cons_append]

/-- So it is wherever they stand among lines that are answered. -/
theorem replies_malformed_among (hs : s.schedule.AtPrompt) {good bad : List String}
    (hgood : s.Answers good) (hbad : ∀ line ∈ bad, Malformed line) (lines : List String) :
    ∃ rs, rs.length = bad.length ∧ (∀ r ∈ rs, Reply.code r = -1) ∧
      s.replies (good ++ (bad ++ lines)) =
        s.replies good ++ (rs ++ ((s.behind good).afterIdleTasks bad.length).replies lines) := by
  obtain ⟨rs, hlength, hcode, hreplies⟩ :=
    replies_malformed (atPrompt_behind hs hgood) hbad lines
  exact ⟨rs, hlength, hcode, by rw [replies_append, hreplies]⟩

end Session

end Console

end MillGateway
