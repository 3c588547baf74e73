import MillGateway.Console.Session
import MillGateway.Proofs.Alone.Calls
import MillGateway.Proofs.Command.Returning
import MillGateway.Proofs.Crowd.Play
import MillGateway.Proofs.File.Access
import MillGateway.Proofs.Link.Bookkeeping

/-! Actions that tasks side by side issue and wait for at a simulated controller. Main statement: a
wait finds how the action of its handle completed, once if it is settled, and when all tasks have come
to their ends, the completions that are left are those that had not settled. -/

namespace MillGateway

open Link (Simulator Handle Completion)

/-! ### Answers and the book -/

namespace Link.Simulator

def Books (m : Simulator) : (o : Outside) → o.Answer → Simulator → Prop
  | .link (.issue a), x, m' => m.issue a = (x, m') ∨ (∃ e, x = .error e) ∧ m' = m
  | .link (.wait h _), _, m' => m' = (m.collect h).2
  | .waitWithin h _, _, m' => m' = (m.collect h).2
  | _, _, m' => m'.completions = m.completions ∧ m'.lastHandle = m.lastHandle

/-- A book in which handles of `m₀` stand, the first `n` of which have been given out: what is settled
is owed to somebody, and `k` completions are not settled. -/
structure Tally (m₀ : Simulator) (owed : Handle → Prop) (n k : Nat) (m : Simulator) : Prop where
  last : m.lastHandle = m₀.lastHandle + UInt64.ofNat n
  keys : (m.completions.map Prod.fst).Nodup
  known : ∀ p ∈ m.completions, ∃ j < n, p.1 = m₀.handleAt j
  settled : ∀ p ∈ m.completions, p.2.isSettled = true → owed p.1
  unsettled : m.completions.countP (fun p => !p.2.isSettled) = k

section

variable {m₀ m m' : Simulator} {owed owed' : Handle → Prop} {n k : Nat}

theorem Tally.congr (h : Tally m₀ owed n k m) (howed : ∀ x, owed x → owed' x)
    (hcompletions : m'.completions = m.completions) (hlast : m'.lastHandle = m.lastHandle) :
    Tally m₀ owed' n k m' where
  last := hlast.trans h.last
  keys := hcompletions ▸ h.keys
  known := hcompletions ▸ h.known
  settled p hp hsettled := howed _ (h.settled p (hcompletions ▸ hp) hsettled)
  unsettled := hcompletions ▸ h.unsettled

theorem Tally.issue (h : Tally m₀ owed n k m) (hn : n + 1 < UInt64.size) {a : Link.Action}
    {x : Handle} (hissue : m.issue a = (.ok x, m')) :
    Tally m₀ (fun y => y = x ∨ owed y) (n + 1)
      (k + if (m.nextCompletion a).isSettled then 0 else 1) m' := by
  obtain ⟨hx, hlast, hbook⟩ := eq_of_issue_ok (congrArg Prod.fst hissue)
  rw [hissue] at hlast hbook
  have hnext : m.lastHandle + 1 = m₀.handleAt n := by
    rw [h.last, handleAt, UInt64.ofNat_add n 1, UInt64.add_assoc]
    rfl
  -- the handle is a new one, so nothing is replaced
  have hnew : ∀ p ∈ m.completions, p.1 ≠ x := by
    intro p hp hsame
    obtain ⟨j, hj, hpj⟩ := h.known p hp
    have hjn : j = n := eq_of_handleAt_eq (by omega) hn <| calc
      m₀.handleAt j = x := hpj.symm.trans hsame
      _ = m₀.handleAt n := hx.trans hnext
    omega
  have hentered : m'.completions = (x, m.nextCompletion a) :: m.completions := by
    rw [hbook, keep, List.filter_eq_self.2 fun p hp => by simpa using hnew p hp]
  refine ⟨hlast.trans hnext, ?_, fun p hp => ?_, fun p hp hsettled => ?_, ?_⟩
  · rw [hentered, List.map_cons, List.nodup_cons]
    refine ⟨fun hmem => ?_, h.keys⟩
    obtain ⟨p, hp, hsame⟩ := List.mem_map.1 hmem
    exact hnew p hp hsame
  · rw [hentered] at hp
    rcases List.mem_cons.1 hp with rfl | hp
    · exact ⟨n, Nat.lt_succ_self n, hx.trans hnext⟩
    · obtain ⟨j, hj, hpj⟩ := h.known p hp
      exact ⟨j, Nat.lt_succ_of_lt hj, hpj⟩
  · rw [hentered] at hp
    rcases List.mem_cons.1 hp with rfl | hp
    · exact .inl rfl
    · exact .inr (h.settled p hp hsettled)
  · rw [hentered, List.countP_cons, h.unsettled]
    cases (m.nextCompletion a).isSettled <;> rfl

theorem Tally.collect (h : Tally m₀ owed n k m) (x : Handle) :
    Tally m₀ (fun y => y ≠ x ∧ owed y) n k (m.collect x).2 := by
  rw [Simulator.collect]
  cases hlookup : m.completions.lookup x with
  | none =>
    refine ⟨h.last, h.keys, h.known, fun p hp hsettled => ⟨?_, h.settled p hp hsettled⟩, h.unsettled⟩
    have hne := List.lookup_eq_none_iff.1 hlookup p hp
    exact (bne_iff_ne.1 hne).symm
  | some c =>
    dsimp only
    split
    next hsettled =>
      refine ⟨h.last, h.keys.sublist (List.filter_sublist.map _), fun p hp => ?_, fun p hp hp' => ?_,
        ?_⟩
      · exact h.known p (List.mem_filter.1 hp).1
      · obtain ⟨hp, hne⟩ := List.mem_filter.1 hp
        exact ⟨bne_iff_ne.1 hne, h.settled p hp hp'⟩
      · rw [List.countP_filter, ← h.unsettled]
        refine List.countP_congr fun p hp => ?_
        -- what is taken out was settled
        by_cases hpx : p.1 = x
        · simp [eq_of_lookup h.keys hlookup hp hpx, hsettled]
        · simp [hpx]
    next hunsettled =>
      refine ⟨h.last, h.keys, h.known, fun p hp hsettled => ⟨?_, h.settled p hp hsettled⟩,
        h.unsettled⟩
      rintro hpx
      rw [eq_of_lookup h.keys hlookup hp hpx] at hsettled
      exact hunsettled hsettled

end

end Link.Simulator

namespace Schedule.World

variable {w : World}

theorem book_answer_link {c : Link.Call} (hc : c.isBooked = false) (w : World) :
    (w.answer (.link c)).2.gate.machine.completions = w.gate.machine.completions ∧
      (w.answer (.link c)).2.gate.machine.lastHandle = w.gate.machine.lastHandle ∧
        (w.answer (.link c)).2.gate.queue .wait = w.gate.queue .wait := by
  have hpoint : c.point ≠ .wait := by
    intro hwait
    cases c with
    | wait => cases hc
    | _ => cases hwait
  have hsettles := settles_answer hpoint w
  rcases hsettles.machine with ⟨next, hanswer⟩ | ⟨-, hsame⟩
  · obtain ⟨hcompletions, hlast⟩ := Simulator.book_answer hc w.gate.machine next
    rw [hanswer] at hcompletions hlast
    exact ⟨hcompletions, hlast, hsettles.waits⟩
  · rw [hsame]
    exact ⟨rfl, rfl, hsettles.waits⟩

theorem books_answer (hw : w.gate.queue .wait = []) (o : Outside) :
    w.gate.machine.Books o (w.answer o).1 (w.answer o).2.gate.machine ∧
      (w.answer o).2.gate.queue .wait = [] := by
  cases o with
  | link c =>
    cases hc : c.isBooked with
    | false =>
      obtain ⟨hcompletions, hlast, hwaits⟩ := book_answer_link hc w
      refine ⟨?_, hwaits.trans hw⟩
      cases c with
      | wait | issue => cases hc
      | _ => exact ⟨hcompletions, hlast⟩
    | true =>
      cases c with
      | wait h limit =>
        rw [gate_answer_wait hw]
        exact ⟨rfl, hw⟩
      | issue a =>
        have hsettles := settles_answer (c := .issue a) nofun w
        refine ⟨?_, hsettles.waits.trans hw⟩
        rcases hsettles.machine with ⟨next, hanswer⟩ | ⟨⟨text, herror⟩, hsame⟩
        · exact .inl hanswer
        · exact .inr ⟨⟨_, herror⟩, hsame⟩
      | _ => cases hc
  | waitWithin h limit =>
    rw [gate_answer_waitWithin hw]
    exact ⟨rfl, hw⟩
  | sleep | clock | localTime | readText | writeText | appendText =>
    rw [gate_answer rfl]
    exact ⟨⟨rfl, rfl⟩, hw⟩

end Schedule.World

/-! ### Tasks that wait for what they issue -/

def Request.isBooked : Request → Bool
  | .outside (.link c) => c.isBooked
  | .outside (.waitWithin _ _) => true
  | _ => false

namespace Job

inductive Executes : {α : Type} → Job α → Prop
  | pure {α : Type} (a : α) : Executes (Pure.pure a : Job α)
  | bind {α β : Type} {j : Job α} {k : α → Job β} (hj : Executes j) (hk : ∀ a, Executes (k a)) :
      Executes (j >>= k)
  | execute (a : Link.Action) (limit : Nat) : Executes (execute a limit)
  | other {α : Type} {j : Job α} (h : j.Asks fun r => r.isBooked = false) : Executes j

end Job

namespace Booking

def Owing (ph : Option Handle) : (r : Request) → r.Answer → Option Handle → Prop
  | .outside (.link (.issue _)), x, ph' => ph = none ∧ ph' = Except.toOption x
  | .outside (.link (.wait h _)), _, ph' => ph = some h ∧ ph' = none
  | .outside (.waitWithin h _), _, ph' => ph = some h ∧ ph' = none
  | _, _, ph' => ph' = ph

def Clear (ph : Option Handle) (_ : α) : Prop :=
  ph = none

section

variable {ph ph' : Option Handle}

theorem owing_of_not_booked {r : Request} (hr : r.isBooked = false) (a : r.Answer) :
    Owing ph r a ph' ↔ ph' = ph := by
  cases r with
  | acquire | release | inside => exact Iff.rfl
  | outside o =>
    cases o with
    | link c => cases c <;> first | exact Iff.rfl | cases hr
    | waitWithin => cases hr
    | _ => exact Iff.rfl

theorem spares_clear : Protocol.Spares Owing (· = none) fun r => r.isBooked = false := by
  rintro _ r a rfl hr
  exact ⟨none, (owing_of_not_booked hr a).2 rfl, rfl⟩

theorem returns_execute (a : Link.Action) (limit : Nat) :
    (Job.execute a limit).Returns Owing (· = none) := by
  have hlook : Job.isAlive.Returns Owing (· = none) :=
    spares_clear.returns ⟨rfl, fun _ => ⟨rfl, fun _ => ⟨rfl, fun _ => trivial⟩⟩⟩
  refine hlook.bind fun alive => ?_
  rintro _ rfl
  cases alive with
  | false => rfl
  | true =>
    refine fun x => ⟨_, ⟨rfl, rfl⟩, ?_⟩
    cases x with
    | error e => rfl
    | ok h =>
      by_cases hlimit : limit = 0
      · subst hlimit
        exact fun _ => ⟨none, ⟨rfl, rfl⟩, rfl⟩
      · simp only [hlimit]
        exact fun _ => ⟨none, ⟨rfl, rfl⟩, rfl⟩

theorem returns_of_executes {j : Job α} (hj : j.Executes) : j.Returns Owing (· = none) := by
  induction hj with
  | pure a => exact Job.returns_pure a
  | bind hj hk ihj ihk => exact ihj.bind ihk
  | execute a limit => exact returns_execute a limit
  | other h => exact spares_clear.returns h

end

/-! ### Counting -/

def issuedBy? : (o : Outside) → o.Answer → Option Link.Action
  | .link (.issue a), x => if Except.isOk x then some a else none
  | _, _ => none

def leaves (m : Simulator) (o : Outside) (a : o.Answer) : Bool :=
  (issuedBy? o a).any fun action => !(m.nextCompletion action).isSettled

section

variable {m₀ m m' : Simulator} {ph : TaskId → Option Handle} {n k : Nat} {i : TaskId}
  {q : Option Handle} {o : Outside} {a : o.Answer}

def Owed (ph : TaskId → Option Handle) (x : Handle) : Prop :=
  ∃ i, ph i = some x

theorem Owed.update {x : Handle} (h : Owed ph x) (hi : ph i ≠ some x) :
    Owed (Function.update ph i q) x := by
  obtain ⟨i', hi'⟩ := h
  have hne : i' ≠ i := fun hsame => hi (hsame ▸ hi')
  exact ⟨i', (Function.update_of_ne hne ..).trans hi'⟩

theorem tally_of_issue (h : Simulator.Tally m₀ (Owed ph) n k m) {action : Link.Action} {x : Handle}
    (hissue : m.issue action = (.ok x, m')) (hi : ph i = none) (hn : n + 1 < UInt64.size) :
    Simulator.Tally m₀ (Owed (Function.update ph i (some x))) (n + 1)
      (k + if leaves m (.link (.issue action)) (.ok x) then 1 else 0) m' := by
  have hleaves : (if leaves m (.link (.issue action)) (.ok x) then 1 else 0) =
      if (m.nextCompletion action).isSettled then 0 else 1 := by
    show (if (!(m.nextCompletion action).isSettled) = true then 1 else 0) = _
    cases (m.nextCompletion action).isSettled <;> rfl
  rw [hleaves]
  refine (h.issue hn hissue).congr (fun y hy => ?_) rfl rfl
  rcases hy with rfl | hy
  · exact ⟨i, Function.update_self ..⟩
  · exact hy.update (by rw [hi]; nofun)

theorem tally_of_collect (h : Simulator.Tally m₀ (Owed ph) n k m) {x : Handle} (hi : ph i = some x) :
    Simulator.Tally m₀ (Owed (Function.update ph i none)) n k (m.collect x).2 := by
  refine (h.collect x).congr (fun y hy => hy.2.update ?_) rfl rfl
  rw [hi]
  exact fun hsame => hy.1 (Option.some.inj hsame).symm

theorem tally_of_books (h : Simulator.Tally m₀ (Owed ph) n k m) (hbooks : m.Books o a m')
    (howing : Owing (ph i) (.outside o) a q)
    (hn : n + (if (issuedBy? o a).isSome then 1 else 0) < UInt64.size) :
    Simulator.Tally m₀ (Owed (Function.update ph i q))
      (n + if (issuedBy? o a).isSome then 1 else 0) (k + if leaves m o a then 1 else 0) m' := by
  -- nobody comes to wait for anything else unless a handle is given out
  have hother (hq : q = ph i) (hnone : issuedBy? o a = none)
      (hcompletions : m'.completions = m.completions) (hlast : m'.lastHandle = m.lastHandle) :
      Simulator.Tally m₀ (Owed (Function.update ph i q))
        (n + if (issuedBy? o a).isSome then 1 else 0) (k + if leaves m o a then 1 else 0) m' := by
    rw [leaves, hnone, hq, Function.update_eq_self]
    exact h.congr (fun _ hx => hx) hcompletions hlast
  cases o with
  | link c =>
    cases c with
    | issue action =>
      obtain ⟨hi, rfl⟩ := howing
      cases a with
      | error e =>
        have hsame : m' = m := by
          rcases hbooks with hissue | ⟨-, hsame⟩
          · exact (Simulator.eq_of_issue_error hissue).2
          · exact hsame
        subst hsame
        exact hother hi.symm rfl rfl rfl
      | ok x =>
        have hissue : m.issue action = (.ok x, m') := by
          rcases hbooks with hissue | ⟨⟨e, hfailed⟩, -⟩
          · exact hissue
          · cases hfailed
        exact tally_of_issue h hissue hi hn
    | wait x limit =>
      obtain ⟨hi, rfl⟩ := howing
      obtain rfl : m' = (m.collect x).2 := hbooks
      exact tally_of_collect h hi
    | pollStatus | openChannel | pollChannel | launch | shutdown =>
      exact hother howing rfl hbooks.1 hbooks.2
  | waitWithin x limit =>
    obtain ⟨hi, rfl⟩ := howing
    obtain rfl : m' = (m.collect x).2 := hbooks
    exact tally_of_collect h hi
  | sleep | clock | localTime | readText | writeText | appendText =>
    exact hother howing rfl hbooks.1 hbooks.2

end

end Booking

/-! ### Side by side -/

namespace Schedule

inductive Disturbance where
  | meddle (x : Simulator.Meddling)
  | faults (p : Link.Gate.Point) (fs : List (Option Link.Gate.Fault))

/-- Tasks with the simulated controller, which may be meddled with, and whose calls may be held up or
fail, unless they are waits. -/
def disturbed (jobs : TaskId → Option (Job α)) (mayDrop : TaskId → Bool)
    (observers : Observers ω ε) : Crowd.Rules α World Disturbance ω ε where
  jobs := jobs
  mayDrop := mayDrop
  observers := observers
  answer o _ w := some (w.answer o)
  befall d x :=
    match d with
    | .meddle y => some (x.1, x.2.withMachine (x.2.gate.machine.meddle y))
    | .faults p fs =>
      if p = .wait then none else some (x.1, { x.2 with gate := x.2.gate.addFaults p fs })

end Schedule

namespace Booking

open Crowd Schedule

def issued? : Crowd.Event χ → Option Link.Action
  | .heard _ o _ a => issuedBy? o a
  | _ => none

def enters (x : Move α World χ ω ε) : Bool :=
  (issued? x.event).isSome

def remains (x : Move α World χ ω ε) : Bool :=
  (issued? x.event).any fun a => !(x.before.world.gate.machine.nextCompletion a).isSettled

section

variable [DecidableEq ω] {jobs : TaskId → Option (Job α)} {mayDrop : TaskId → Bool}
  {observers : Observers ω ε} {s₀ s s' : Crowd α World ω ε} {e : Crowd.Event Disturbance}
  {ms : List (Move α World Disturbance ω ε)} {ph ph' : TaskId → Option Handle} {m₀ : Simulator}

structure Kept (m₀ : Simulator) (ms : List (Move α World Disturbance ω ε)) (s : Crowd α World ω ε)
    (ph : TaskId → Option Handle) : Prop where
  tally : Simulator.Tally m₀ (Owed ph) (ms.countP enters) (ms.countP remains)
    s.world.gate.machine
  waits : s.world.gate.queue .wait = []

omit [DecidableEq ω] in
theorem Kept.of_book (h : Kept m₀ ms s ph) (hnone : issued? e = none)
    (hcompletions : s'.world.gate.machine.completions = s.world.gate.machine.completions)
    (hlast : s'.world.gate.machine.lastHandle = s.world.gate.machine.lastHandle)
    (hwaits : s'.world.gate.queue .wait = s.world.gate.queue .wait) :
    Kept m₀ (ms ++ [⟨s, e, s'⟩]) s' ph := by
  refine ⟨?_, hwaits.trans h.waits⟩
  rw [List.countP_append, List.countP_append, List.countP_singleton, List.countP_singleton,
    enters, remains, hnone]
  exact h.tally.congr (fun _ hx => hx) hcompletions hlast

theorem Kept.unanswered (h : Kept m₀ ms s ph)
    (hstep : Step (disturbed jobs mayDrop observers) s e s') (he : e.answered? = none) :
    Kept m₀ (ms ++ [⟨s, e, s'⟩]) s' ph := by
  cases hstep with
  | took | woke | gave | looked | heard => cases he
  | started | queued | asked | dropped => exact h.of_book rfl rfl rfl rfl
  | @befell c r w hbefell =>
    cases c with
    | meddle x =>
      cases hbefell
      obtain ⟨hcompletions, hlast⟩ := s.world.gate.machine.book_meddle x
      exact h.of_book rfl hcompletions hlast rfl
    | faults p fs =>
      by_cases hp : p = .wait
      · simp [disturbed, hp] at hbefell
      · simp only [disturbed, if_neg hp] at hbefell
        cases hbefell
        exact h.of_book rfl rfl rfl (if_neg (Ne.symm hp))

theorem Kept.answered (h : Kept m₀ ms s ph)
    (hstep : Step (disturbed jobs mayDrop observers) s e s') {i : TaskId} {r : Request}
    {a : r.Answer} (he : e.answered? = some (i, ⟨r, a⟩)) {q : Option Handle}
    (howing : Owing (ph i) r a q)
    (hfew : List.countP enters (ms ++ [(⟨s, e, s'⟩ : Move α World Disturbance ω ε)]) < UInt64.size) :
    Kept m₀ (ms ++ [⟨s, e, s'⟩]) s' (Function.update ph i q) := by
  rw [List.countP_append, List.countP_singleton] at hfew
  -- what happens inside the gateway is not entered in the book
  have hinside (hnone : issued? e = none) (hr : r.isBooked = false) (hworld : s'.world = s.world) :
      Kept m₀ (ms ++ [⟨s, e, s'⟩]) s' (Function.update ph i q) := by
    rw [(owing_of_not_booked hr a).1 howing, Function.update_eq_self]
    exact h.of_book hnone (by rw [hworld]) (by rw [hworld]) (by rw [hworld])
  cases hstep with
  | started | queued | asked | dropped | befell => cases he
  | took | woke | gave | looked =>
    cases he
    exact hinside rfl rfl rfl
  | @heard _ o k c a w hi ha =>
    cases he
    obtain ⟨hbooks, hwaits⟩ := World.books_answer h.waits o
    have hanswer : s.world.answer o = (a, w) := Option.some.inj ha
    rw [hanswer] at hbooks hwaits
    refine ⟨?_, hwaits⟩
    rw [List.countP_append, List.countP_append, List.countP_singleton, List.countP_singleton]
    exact tally_of_books h.tally hbooks howing hfew

theorem kept_of_trail (hjobs : ∀ i j, jobs i = some j → j.Executes) (hs₀ : s₀.Fresh)
    (hbook : s₀.world.gate.machine.completions = []) (hwaits : s₀.world.gate.queue .wait = [])
    (h : Trail (disturbed jobs mayDrop observers) s₀ ms s)
    (hfew : ms.countP enters < UInt64.size) :
    ∃ ph, Follows Owing Clear (fun _ => none) s ph ∧ Kept s₀.world.gate.machine ms s ph := by
  induction h with
  | nil =>
    refine ⟨fun _ => none, hs₀.follows, ⟨(UInt64.add_zero _).symm, ?_, ?_, ?_, ?_⟩, hwaits⟩
    · simp [hbook]
    · simp [hbook]
    · simp [hbook]
    · simp [hbook]
  | @snoc ms s e s' h hstep ih =>
    have hbefore : ms.countP enters < UInt64.size := by
      rw [List.countP_append] at hfew
      omega
    obtain ⟨ph, hfollows, hkept⟩ := ih hbefore
    obtain ⟨ph', hadv, hfollows'⟩ :=
      hfollows.step (fun i j hj => returns_of_executes (hjobs i j hj) _ rfl) hstep
    refine ⟨ph', hfollows', ?_⟩
    cases he : e.answered? with
    | none =>
      rw [hadv.unanswered he]
      exact hkept.unanswered hstep he
    | some x =>
      obtain ⟨i, r, a⟩ := x
      obtain ⟨q, howing, rfl⟩ := hadv.answered he
      exact hkept.answered hstep he howing hfew

omit [DecidableEq ω] in
theorem not_owed_of_ended (hfollows : Follows Owing Clear (fun _ => none) s ph)
    (hended : ∀ i p, s.tasks i = some p → ∃ a, p.job? = some (.done a)) (x : Handle) :
    ¬ Owed ph x := by
  rintro ⟨i, hi⟩
  cases hp : s.tasks i with
  | none =>
    rw [hfollows.start i hp] at hi
    cases hi
  | some p =>
    obtain ⟨a, ha⟩ := hended i p hp
    have hclear : ph i = none := hfollows.keeps i _ ((jobAt_of_task hp).trans ha)
    rw [hclear] at hi
    cases hi

/-- Whatever is done to a controller with nothing in its book, as long as its numbers last: every handle
that it gives out is a new one; a wait for a handle that it has not given out finds nothing; and a wait
for one that it has finds how the action completed, once if that is settled, and always if it is not.
What is found under a handle does not change with waits for others. So when tasks side by side that do
nothing with the controller but execute actions have come to their ends, there are as many completions
left as actions that were issued and had not settled, if no wait was hindered. -/
theorem completions_collected :
    (∀ (m₀ : Simulator) (ds : List Simulator.Deed), m₀.completions = [] →
      (m₀.granted ds).length < UInt64.size →
        (m₀.granted ds).Nodup ∧
        (∀ h, h ∉ m₀.granted ds → ∀ next limit,
          ((m₀.after ds).answer next (.wait h limit)).1 = .error (.unknownHandle h)) ∧
        ∀ ds₁ next a ds₂ h, ds = ds₁ ++ .call next (.issue a) :: ds₂ →
          ((m₀.after ds₁).issue a).1 = .ok h → ∀ next' limit,
            ((m₀.after ds).answer next' (.wait h limit)).1 =
              if ds₂.any (·.waitsFor h) && ((m₀.after ds₁).nextCompletion a).isSettled then
                .error (.unknownHandle h)
              else .ok ((m₀.after ds₁).nextCompletion a)) ∧
    (∀ (m : Simulator) next next' h h' limit limit', h' ≠ h →
      ((m.answer next (.wait h limit)).2.answer next' (.wait h' limit')).1 =
        (m.answer next' (.wait h' limit')).1) ∧
    ((∀ i j, jobs i = some j → j.Executes) → s₀.Fresh →
      s₀.world.gate.machine.completions = [] → s₀.world.gate.queue .wait = [] →
      Trail (disturbed jobs mayDrop observers) s₀ ms s → ms.countP enters < UInt64.size →
      (∀ i p, s.tasks i = some p → ∃ a, p.job? = some (.done a)) →
        s.world.gate.machine.completions.length = ms.countP remains) := by
  refine ⟨fun m₀ ds hbook hfew => ⟨Simulator.nodup_granted hfew, fun h hnew _ _ => ?_, ?_⟩,
    fun m _ _ h h' _ _ hne => Simulator.fst_collect_collect hne m, ?_⟩
  · exact Simulator.fst_collect_unknown hbook hnew
  · rintro ds₁ next a ds₂ h rfl hissue - -
    exact Simulator.fst_collect_issued (Simulator.nodup_granted hfew) hissue
  · intro hjobs hs₀ hbook hwaits htrail hfew hended
    obtain ⟨ph, hfollows, hkept⟩ := kept_of_trail hjobs hs₀ hbook hwaits htrail hfew
    have hunsettled : ∀ p ∈ s.world.gate.machine.completions, (!p.2.isSettled) = true := by
      intro p hp
      rw [Bool.not_eq_true']
      by_contra hsettled
      have howed := hkept.tally.settled p hp (by simpa using hsettled)
      exact not_owed_of_ended hfollows hended p.1 howed
    rw [← hkept.tally.unsettled, List.countP_eq_length.2 hunsettled]

end

def runningMill : Simulator :=
  { Simulator.new "mill" 1 with running := true }

def twoTasks : TaskId → Option (Job Outcome)
  | 0 => some (Job.execute .abort 0 >>= fun _ => Job.execute (.mode .auto) Timing.programMode)
  | 1 => some (Job.execute (.state .on) 0)
  | _ => none

def millRules : Rules Outcome World Disturbance Empty Unit :=
  disturbed twoTasks (fun _ => false) .nobody

def aliveMill : Crowd Outcome World Empty Unit where
  gateway := { cache := ⟨true, none⟩, left := () }
  world := { gate := { machine := runningMill } }

def meanwhile : List (Choice Disturbance) :=
  let go (i : TaskId) : Choice Disturbance := .go i (.faults .wait [])
  [.befall (.meddle (.script [.executing])), .start 0, .start 1] ++ List.replicate 5 (go 0) ++
    List.replicate 7 (go 1) ++ List.replicate 9 (go 0)

theorem executes_twoTasks {i : TaskId} {j : Job Outcome} (h : twoTasks i = some j) :
    j.Executes := by
  match i with
  | 0 =>
    obtain rfl := Option.some.inj h
    exact .bind (.execute ..) fun _ => .execute ..
  | 1 =>
    obtain rfl := Option.some.inj h
    exact .execute ..
  | _ + 2 => cases h

theorem completions_collected_meanwhile :
    (∃ ms s, Trail millRules aliveMill ms s ∧ ms.countP enters = 3 ∧
      s.world.gate.machine.completions.length = 1) ∧
    let issue (a : Link.Action) : Simulator.Deed := .call 0 (.issue a)
    let wait (h : Handle) : Simulator.Deed := .call 0 (.wait h 5)
    let m := runningMill.after [issue .abort, wait 1, issue (.state .on)]
    (m.answer 0 (.wait 1 0)).1 = .error (.unknownHandle 1) ∧
      (m.answer 0 (.wait 2 0)).1 = .ok .error := by
  have collected (s) (ms : List (Move Outcome World Disturbance Empty Unit)) :=
    @completions_collected _ _ _ _ twoTasks (fun _ => false) .nobody aliveMill s ms
  refine ⟨?_, ?_⟩
  · have hcomputed : (trace? millRules meanwhile aliveMill).map (fun x =>
        (x.1.countP enters, x.1.countP remains,
          [0, 1].all fun i => ((x.2.jobAt i).bind Job.result?).isSome)) = some (3, 1, true) := by
      decide +kernel
    obtain ⟨⟨ms, s⟩, htrace, hcounts⟩ := Option.map_eq_some_iff.1 hcomputed
    simp only [Prod.mk.injEq, List.all_cons, List.all_nil, Bool.and_true, Bool.and_eq_true,
      Option.isSome_iff_exists] at hcounts
    obtain ⟨henters, hremains, ⟨a₀, ha₀⟩, a₁, ha₁⟩ := hcounts
    have htrail : Trail millRules aliveMill ms s := trail_of_trace? .nil htrace
    have hended : ∀ i p, s.tasks i = some p → ∃ a, p.job? = some (.done a) := by
      intro i p hp
      obtain ⟨j, hj⟩ := htrail.run.job_of_task ⟨rfl, rfl⟩ hp
      have done {a : Outcome} (ha : (s.jobAt i).bind Job.result? = some a) :
          p.job? = some (.done a) := by
        obtain ⟨j, hj, hresult⟩ := Option.bind_eq_some_iff.1 ha
        rw [← Job.result?_eq_some_iff.1 hresult, ← hj, jobAt_of_task hp]
      match i with
      | 0 => exact ⟨a₀, done ha₀⟩
      | 1 => exact ⟨a₁, done ha₁⟩
      | _ + 2 => cases hj
    have hleft := (collected s ms).2.2 (fun _ _ => executes_twoTasks) ⟨rfl, rfl⟩ rfl rfl htrail
      (by rw [henters]; decide) hended
    exact ⟨ms, s, htrail, henters, hleft.trans hremains⟩
  · intro issue wait m
    obtain ⟨-, -, hwaits⟩ := (collected aliveMill []).1 runningMill
      [issue .abort, wait 1, issue (.state .on)] rfl (by decide)
    exact ⟨hwaits [] 0 .abort [wait 1, issue (.state .on)] 1 rfl rfl 0 0,
      hwaits [issue .abort, wait 1] 0 (.state .on) [] 2 rfl rfl 0 0⟩

end Booking

end MillGateway
