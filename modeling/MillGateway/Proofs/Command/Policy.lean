import MillGateway.Proofs.Command.Attempts
import MillGateway.Proofs.Job.Timed

/-! What a single action comes to. Main statement: the reply tells whether the action was done within
its limit, has failed within it, or neither, and comes within the limit, whatever the link does. -/

namespace MillGateway

namespace Link

def Failed (x : Except Error Completion) : Prop :=
  x = .ok .error ∨ ∃ e, x = .error e

theorem failed_error (e : Error) : Failed (.error e) :=
  .inr ⟨e, rfl⟩

theorem failed_ok_iff {c : Completion} : Failed (.ok c) ↔ c = .error := by
  simp [Failed]

structure Looked (x : Except Error Completion) (v : ResultView) : Prop where
  ok : v = ⟨"OK", 0⟩ ↔ ¬ Failed x
  failed : v = ⟨"command error", -2⟩ ↔ Failed x

namespace Behaviour

variable {L : Behaviour} {made : List Call} {h : Handle} {limit d : Nat}
  {x : Except Error Completion} {P : Except Error Completion → Prop}

/-- Whether the link answers a wait that comes after such calls like this, and in time. -/
def InTime (L : Behaviour) (made : List Call) (h : Handle) (limit : Nat)
    (P : Except Error Completion → Prop) : Prop :=
  ∃ d ≤ limit, ∃ x, L made (.wait h limit) = some (d, x) ∧ P x

structure Awaited (L : Behaviour) (made : List Call) (h : Handle) (limit : Nat)
    (v : ResultView) : Prop where
  ok : v = ⟨"OK", 0⟩ ↔ L.InTime made h limit (· = .ok .done)
  failed : v = ⟨"command error", -2⟩ ↔ L.InTime made h limit Failed
  timedOut : v = ⟨"command timed out", -1⟩ ↔
    ¬ L.InTime made h limit (· = .ok .done) ∧ ¬ L.InTime made h limit Failed

theorem inTime_iff (hL : L made (.wait h limit) = some (d, x)) (hd : d ≤ limit) :
    L.InTime made h limit P ↔ P x := by
  constructor
  · rintro ⟨d', -, x', hL', hx'⟩
    cases hL.symm.trans hL'
    exact hx'
  · exact fun hx => ⟨d, hd, x, hL, hx⟩

theorem not_inTime (hlate : ∀ d x, L made (.wait h limit) = some (d, x) → limit ≤ d)
    (hlimit : ∀ x, L made (.wait h limit) ≠ some (limit, x)) : ¬ L.InTime made h limit P := by
  rintro ⟨d, hd, x, hL, -⟩
  obtain rfl := Nat.le_antisymm hd (hlate d x hL)
  exact hlimit x hL

end Behaviour

end Link

open Link

namespace TimedExchange

def looks (xs : List TimedExchange) : List Bool :=
  Exchange.looks (xs.map (·.exchange))

theorem looks_append (xs ys : List TimedExchange) : looks (xs ++ ys) = looks xs ++ looks ys := by
  rw [looks, List.map_append]
  exact List.filterMap_append

end TimedExchange

namespace Job

open TimedExchange

variable {L : Link.Behaviour} {made : List Call} {start stop : Nat}

theorem looked_immediateOutcome (x : Except Error Completion) :
    Looked x (immediateOutcome x).view := by
  cases x with
  | error e =>
    have hok : ¬ Outcome.commandError.view = ⟨"OK", 0⟩ := by decide
    exact ⟨iff_of_false hok (not_not.2 (failed_error e)), iff_of_true rfl (failed_error e)⟩
  | ok c =>
    have hok : (immediateOutcome (.ok c)).view = ⟨"OK", 0⟩ ↔ ¬ c = .error := by
      cases c <;> decide
    have hfailed : (immediateOutcome (.ok c)).view = ⟨"command error", -2⟩ ↔ c = .error := by
      cases c <;> decide
    exact ⟨hok.trans (not_congr failed_ok_iff).symm, hfailed.trans failed_ok_iff.symm⟩

theorem view_awaitedOutcome (x : Except Error Completion) :
    ((awaitedOutcome (some x)).view = ⟨"OK", 0⟩ ↔ x = .ok .done) ∧
    ((awaitedOutcome (some x)).view = ⟨"command error", -2⟩ ↔ Failed x) ∧
    ((awaitedOutcome (some x)).view = ⟨"command timed out", -1⟩ ↔
      ¬ x = .ok .done ∧ ¬ Failed x) := by
  cases x with
  | error e =>
    have hok : ¬ Outcome.commandError.view = ⟨"OK", 0⟩ := by decide
    have htimedOut : ¬ Outcome.commandError.view = ⟨"command timed out", -1⟩ := by decide
    have hfailed := failed_error e
    exact ⟨iff_of_false hok (by simp), iff_of_true rfl hfailed,
      iff_of_false htimedOut fun h => h.2 hfailed⟩
  | ok c =>
    simp only [failed_ok_iff, Except.ok.injEq]
    cases c <;> decide

theorem awaited_awaitedOutcome {h : Handle} {limit : Nat} {x? : Option (Except Error Completion)}
    (hfits : L.Fits made start (.outside (.waitWithin h limit)) x? stop)
    (hlimit : ∀ x, L made (.wait h limit) ≠ some (limit, x)) :
    L.Awaited made h limit (awaitedOutcome x?).view := by
  cases x? with
  | some x =>
    obtain ⟨d, hd, hL, -⟩ := hfits
    obtain ⟨hok, hfailed, htimedOut⟩ := view_awaitedOutcome x
    constructor
    · rw [Behaviour.inTime_iff hL hd, hok]
    · rw [Behaviour.inTime_iff hL hd, hfailed]
    · rw [Behaviour.inTime_iff hL hd, Behaviour.inTime_iff hL hd, htimedOut]
  | none =>
    have hnone (P : Except Error Completion → Prop) : ¬ L.InTime made h limit P :=
      Behaviour.not_inTime hfits.1 hlimit
    exact ⟨iff_of_false (by decide) (hnone _), iff_of_false (by decide) (hnone _),
      iff_of_true rfl ⟨hnone _, hnone _⟩⟩

def awaitEnd (h : Handle) (limit : Nat) : Job Outcome :=
  if limit = 0 then do return immediateOutcome (← link (.wait h 0))
  else do return awaitedOutcome (← outside (.waitWithin h limit))

def issueAndAwait (a : Action) (limit : Nat) : Job Outcome := do
  match ← link (.issue a) with
  | .error e => return .linkRefused e
  | .ok h => awaitEnd h limit

theorem execute_eq (a : Action) (limit : Nat) : execute a limit =
    isAlive.bind fun alive => if alive then issueAndAwait a limit else .done .notRunning := by
  show isAlive.bind _ = _
  congr 1
  funext alive
  cases alive <;> rfl

section Runs

variable {a : Action} {h : Handle} {limit : Nat} {xs : List TimedExchange} {o : Outcome}

theorem runs_look {alive : Bool} (hrun : Runs L made start isAlive xs stop (.done alive)) :
    looks xs = [alive] ∧ calls xs = [] := by
  obtain ⟨c, rfl, hxs⟩ := reaches_isAlive hrun.reaches
  rw [looks, calls_eq, hxs]
  exact ⟨rfl, rfl⟩

theorem runs_awaitEnd (hrun : Runs L made start (awaitEnd h limit) xs stop (.done o)) :
    looks xs = [] ∧ calls xs = [.wait h limit] ∧
      (limit = 0 → ∃ d y, L made (.wait h 0) = some (d, y) ∧ Looked y o.view) ∧
      (0 < limit → stop ≤ start + limit ∧
        ((∀ y, L made (.wait h limit) ≠ some (limit, y)) → L.Awaited made h limit o.view)) := by
  rw [awaitEnd] at hrun
  split at hrun
  next hlimit =>
    obtain ⟨y, answered, xs, rfl, ⟨d, hL, -⟩, hrest⟩ := Runs.ask_cases hrun
    obtain ⟨rfl, -, hdone⟩ := hrest.done_cases
    cases hdone
    refine ⟨rfl, by rw [hlimit]; rfl, fun _ => ⟨d, y, hL, looked_immediateOutcome y⟩, fun hpos => ?_⟩
    exact absurd hlimit (Nat.pos_iff_ne_zero.1 hpos)
  next hlimit =>
    obtain ⟨x?, answered, xs, rfl, hfits, hrest⟩ := Runs.ask_cases hrun
    obtain ⟨rfl, rfl, hdone⟩ := hrest.done_cases
    cases hdone
    refine ⟨rfl, rfl, fun h0 => absurd h0 hlimit, fun _ => ⟨hfits.le_limit, ?_⟩⟩
    exact awaited_awaitedOutcome hfits

theorem runs_issueAndAwait
    (hrun : Runs L made start (issueAndAwait a limit) xs stop (.done o)) :
    looks xs = [] ∧ ∃ d x, L made (.issue a) = some (d, x) ∧
      (∀ e, x = .error e → calls xs = [.issue a] ∧ o.view = ⟨e.message, -2⟩) ∧
      ∀ h, x = .ok h → calls xs = [.issue a, .wait h limit] ∧
        (limit = 0 → ∃ d y, L (made ++ [.issue a]) (.wait h 0) = some (d, y) ∧ Looked y o.view) ∧
        (0 < limit →
          (∃ x ∈ xs, x.exchange.1 = .outside (.link (.issue a)) ∧ stop ≤ x.answered + limit) ∧
          ((∀ y, L (made ++ [.issue a]) (.wait h limit) ≠ some (limit, y)) →
            L.Awaited (made ++ [.issue a]) h limit o.view)) := by
  obtain ⟨x, answered, xs, rfl, ⟨d, hL, rfl⟩, hrest⟩ := Runs.ask_cases hrun
  cases x with
  | error e =>
    obtain ⟨rfl, -, hdone⟩ := Runs.done_cases hrest
    cases hdone
    refine ⟨rfl, d, _, hL, fun e' he => ?_, nofun⟩
    cases he
    exact ⟨rfl, rfl⟩
  | ok h =>
    obtain ⟨hlooks, hcalls, hlook, hawait⟩ := runs_awaitEnd hrest
    refine ⟨hlooks, d, _, hL, nofun, fun h' hh => ?_⟩
    cases hh
    refine ⟨congrArg (Call.issue a :: ·) hcalls, hlook, fun hpos => ?_⟩
    obtain ⟨hstop, htold⟩ := hawait hpos
    exact ⟨⟨_, List.mem_cons_self, rfl, hstop⟩, htold⟩

theorem runs_unanswered {c : Call} {k : Request.Answer (.outside (.link c)) → Job Outcome}
    (hrun : Runs L [] start (execute a limit) xs stop (.ask (.outside (.link c)) k)) :
    calls xs = [] ∧ c = .issue a ∨ limit = 0 ∧ calls xs = [.issue a] ∧ ∃ h, c = .wait h 0 := by
  rw [execute_eq] at hrun
  rcases Runs.first_cases hrun with ⟨-, hask⟩ | ⟨_, _, xs, rfl, -, hrun⟩
  · cases hask
  rcases Runs.first_cases hrun with ⟨-, hask⟩ | ⟨cache, _, xs, rfl, -, hrun⟩
  · cases hask
  rcases Runs.first_cases hrun with ⟨-, hask⟩ | ⟨_, _, xs, rfl, -, hrun⟩
  · cases hask
  -- the look at the cache is over
  cases halive : cache.alive with
  | false =>
    simp only [halive] at hrun
    cases (Runs.done_cases hrun).2.2
  | true =>
    simp only [halive] at hrun
    rcases Runs.first_cases hrun with ⟨rfl, hask⟩ | ⟨x, _, xs, rfl, -, hrun⟩
    · cases hask
      exact .inl ⟨rfl, rfl⟩
    · cases x with
      | error e => cases (Runs.done_cases hrun).2.2
      | ok h =>
        change Runs L _ _ (awaitEnd h limit) xs stop _ at hrun
        rw [awaitEnd] at hrun
        split at hrun
        next hlimit =>
          rcases Runs.first_cases hrun with ⟨rfl, hask⟩ | ⟨_, _, xs, rfl, -, hrun⟩
          · cases hask
            exact .inr ⟨hlimit, rfl, h, rfl⟩
          · cases hrun.done_cases.2.2
        next =>
          rcases Runs.first_cases hrun with ⟨-, hask⟩ | ⟨_, _, xs, rfl, -, hrun⟩
          · cases hask
          · cases hrun.done_cases.2.2

end Runs

/-- A run that ends has looked at the cache once. If it found the controller down, nothing was called.
Otherwise the action was issued once: if the link refused it, the reply is the link's, and if it did
not, there was one wait, which with a limit was over in time. And every run comes to its end, unless
the link leaves the action, or a wait without limit, unanswered. -/
theorem execute_policy (L : Link.Behaviour) (a : Action) (limit start : Nat) :
    (∀ xs stop o, Runs L [] start (execute a limit) xs stop (.done o) →
      ∃ alive, looks xs = [alive] ∧
        (alive = false → calls xs = [] ∧ o.view = ⟨"not running", -2⟩) ∧
        (alive = true → ∃ d x, L [] (.issue a) = some (d, x) ∧
          (∀ e, x = .error e → calls xs = [.issue a] ∧ o.view = ⟨e.message, -2⟩) ∧
          (∀ h, x = .ok h → calls xs = [.issue a, .wait h limit] ∧
            (limit = 0 → ∃ d y, L [.issue a] (.wait h 0) = some (d, y) ∧ Looked y o.view) ∧
            (0 < limit →
              (∃ x ∈ xs, x.exchange.1 = .outside (.link (.issue a)) ∧
                stop ≤ x.answered + limit) ∧
              ((∀ y, L [.issue a] (.wait h limit) ≠ some (limit, y)) →
                L.Awaited [.issue a] h limit o.view))))) ∧
    ∀ xs now j, Runs L [] start (execute a limit) xs now j →
      ∃ ys stop, (∃ o, Runs L [] start (execute a limit) (xs ++ ys) stop (.done o)) ∨
        ∃ c k, Runs L [] start (execute a limit) (xs ++ ys) stop (.ask (.outside (.link c)) k) ∧
          L (calls (xs ++ ys)) c = none ∧ (calls (xs ++ ys) = [] ∧ c = .issue a ∨
            limit = 0 ∧ calls (xs ++ ys) = [.issue a] ∧ ∃ h, c = .wait h 0) := by
  refine ⟨fun xs stop o hrun => ?_, fun xs now j hrun => ?_⟩
  · rw [execute_eq] at hrun
    obtain ⟨us, now, alive, vs, rfl, hlook, hrest⟩ := hrun.bind_cases
    obtain ⟨hlooks, hcalls⟩ := runs_look hlook
    rw [hcalls, List.append_nil] at hrest
    cases alive with
    | false =>
      obtain ⟨rfl, rfl, hdone⟩ := Runs.done_cases hrest
      cases hdone
      refine ⟨false, by simpa using hlooks, fun _ => ⟨by simpa using hcalls, rfl⟩, nofun⟩
    | true =>
      obtain ⟨hnone, d, x, hL, hrefused, hissued⟩ := runs_issueAndAwait hrest
      have hall : calls (us ++ vs) = calls vs := by rw [calls_append, hcalls, List.nil_append]
      have hlooks' : looks (us ++ vs) = [true] := by
        rw [looks_append, hlooks, hnone, List.append_nil]
      rw [hall]
      refine ⟨true, hlooks', nofun, fun _ => ⟨d, x, hL, hrefused, fun h hx => ?_⟩⟩
      obtain ⟨hwait, hzero, hpos⟩ := hissued h hx
      refine ⟨hwait, hzero, fun hlimit => ?_⟩
      obtain ⟨⟨y, hy, hys⟩, htold⟩ := hpos hlimit
      exact ⟨⟨y, List.mem_append_right _ hy, hys⟩, htold⟩
  · obtain ⟨ys, stop, hend | ⟨c, k, hstuck, hnone⟩⟩ := hrun.exists_end
    · exact ⟨ys, stop, .inl hend⟩
    · exact ⟨ys, stop, .inr ⟨c, k, hstuck, hnone, runs_unanswered hstuck⟩⟩

def silent : Link.Behaviour
  | _, .issue _ => some (5, .ok 7)
  | _, _ => none

/-- An abort at time 0 that is given up at time 55. -/
def silentRun : List TimedExchange := [
  ⟨⟨.acquire .cache, ()⟩, 0, 0⟩,
  ⟨⟨.inside .cache, ({ alive := true } : Cache)⟩, 0, 0⟩,
  ⟨⟨.release .cache, ()⟩, 0, 0⟩,
  ⟨⟨.outside (.link (.issue .abort)), .ok 7⟩, 0, 5⟩,
  ⟨⟨.outside (.waitWithin 7 50), none⟩, 5, 55⟩]

theorem runs_silent : Runs silent [] 0 (execute .abort 50) silentRun 55 (.done .timedOut) := by
  refine .cons (Nat.le_refl 0) (.cons rfl (.cons rfl (.cons ⟨5, rfl, rfl⟩ (.cons ?_ ?_))))
  · exact ⟨fun d x h => absurd h (Option.some_ne_none _).symm, rfl⟩
  · exact .refl _ _ _

theorem execute_policy_silent :
    Runs silent [] 0 (execute .abort 50) silentRun 55 (.done .timedOut) ∧
    calls silentRun = [.issue .abort, .wait 7 50] ∧
    silent.Awaited [.issue .abort] 7 50 Outcome.timedOut.view ∧
    ∃ x ∈ silentRun, x.exchange.1 = .outside (.link (.issue .abort)) ∧ 55 ≤ x.answered + 50 := by
  obtain ⟨alive, hlook, -, hissued⟩ := (execute_policy silent .abort 50 0).1 _ _ _ runs_silent
  have halive : true = alive := (List.cons.inj hlook).1
  obtain ⟨d, x, hL, -, htaken⟩ := hissued halive.symm
  cases hL
  obtain ⟨hcalls, -, hend⟩ := htaken 7 rfl
  obtain ⟨hstop, htold⟩ := hend (by decide)
  exact ⟨runs_silent, hcalls, htold fun y h => absurd h (Option.some_ne_none _).symm, hstop⟩

end Job

end MillGateway
