import MillGateway.Proofs.Crowd.Turns
import MillGateway.Proofs.Poll.Protocol

/-! The lock of the cache. Whoever takes it gives it back in the same turn. -/

namespace MillGateway

open Crowd Job

namespace Glance

/-- Whether a task holds the lock, or has given it back. -/
inductive Turn : Protocol Bool
  | take {a} : Turn false (.acquire .cache) a true
  | give {a} : Turn true (.release .cache) a false
  | other {b r a} (hr : r.isCacheLock = false) (hb : b = true → r.isPrompt = true) : Turn b r a b

def Ends (b : Bool) (_ : α) : Prop :=
  b = false

theorem unbroken : Unbroken Turn (Ends (α := α)) (· = true) where
  prompt := by
    intro b r a b' h hin
    cases h with
    | take => cases hin
    | give => rfl
    | other _ hb => exact hb hin
  post := by
    rintro b a rfl
    nofun

theorem opens : Opens Turn .cache (· = true) where
  take := by
    intro b a b' h
    cases h with
    | take => rfl
    | other hr => cases hr
  keep := by
    intro b r a b' h hin
    cases h with
    | take => exact .inl rfl
    | give => exact .inr rfl
    | other => exact .inl hin

/-! ### Whatever the gateway does -/

theorem spares_free : Turn.Spares (· = false) fun r => r.isCacheLock = false := by
  rintro _ r a rfl hr
  exact ⟨_, .other hr nofun, rfl⟩

theorem returns_inside (x : Inside) (f : x.Answer → α) :
    (locked .cache (inside x >>= fun a => pure (f a))).Returns Turn (· = false) :=
  Keeps.returns fun _ =>
    ⟨_, .take, fun _ => ⟨_, .other rfl fun _ => rfl, fun _ => ⟨_, .give, rfl⟩⟩⟩

theorem returns_locked {l : Lock} (hl : l ≠ .cache) {j : Job α} (hj : j.Returns Turn (· = false)) :
    (locked l j).Returns Turn (· = false) := by
  have hlock : (Request.acquire l).isCacheLock = false ∧
      (Request.release l).isCacheLock = false := by
    cases l <;> first | exact ⟨rfl, rfl⟩ | exact absurd rfl hl
  have hrest := hj.bind fun a =>
    spares_free.returns (j := .ask (.release l) fun _ => .done a) ⟨hlock.2, fun _ => trivial⟩
  rintro _ rfl _
  exact ⟨false, .other hlock.1 nofun, hrest _ rfl⟩

theorem returns_pollStatus : pollStatus.Returns Turn (· = false) := by
  refine returns_locked (l := .polling) nofun (Keeps.returns fun x => ⟨_, .other rfl nofun, ?_⟩)
  cases x with
  | ok s =>
    refine fun _ => ⟨_, .take, fun b => ⟨_, .other rfl fun _ => rfl, fun _ => ⟨_, .give, ?_⟩⟩⟩
    exact fun n => ⟨_, .other rfl nofun, rfl⟩
  | error e =>
    exact fun _ => ⟨_, .take, fun b => ⟨_, .other rfl fun _ => rfl, fun _ => ⟨_, .give, rfl⟩⟩⟩

theorem isCacheLock_of_isChannel {r : Request} (h : r.isChannel = true ∨ r.isReading = true) :
    r.isCacheLock = false := by
  cases r with
  | acquire l | release l =>
    cases l <;> first | rfl | (rcases h with h | h <;> cases h)
  | inside | outside => rfl

theorem isCacheLock_of_isFile {r : Request} (h : r.isFile = true) : r.isCacheLock = false := by
  cases r with
  | outside => rfl
  | _ => cases h

theorem partsReturn : PartsReturn Turn (· = false) fun _ => True where
  poll := returns_pollStatus
  alive := returns_inside .cache Cache.alive
  snapshot := returns_inside .cache Cache.snapshot
  reset := spares_free.returns (asks_resetChannel.mono fun _ hr => isCacheLock_of_isChannel (.inl hr))
  execute _ limit := by
    refine returns_execute (returns_inside .cache Cache.alive) (spares_free.mono ?_) limit
    rintro r (rfl | ⟨o, -, rfl⟩) <;> rfl
  switch _ _ := spares_free.returns ⟨rfl, fun _ => trivial⟩
  plain _ := spares_free.returns ⟨rfl, fun _ => trivial⟩
  edit hj :=
    returns_locked (l := .editing) nofun (spares_free.returns (hj.mono fun _ => isCacheLock_of_isFile))

theorem keeps_answer (e : Poll.Errand) : e.answer.Keeps Turn Ends false := by
  refine Poll.Errand.returns_of_parts partsReturn (fun _ => ?_) _ rfl
  refine returns_pollErrors partsReturn.alive
    (spares_free.returns (asks_takeMessage.mono fun _ => isCacheLock_of_isChannel))
    (spares_free.mono fun r hr => ?_)
  cases r with
  | acquire | release => cases hr
  | inside | outside => rfl

/-! ### Whatever tasks do side by side -/

section

variable [DecidableEq ω] {R : Rules Poll.Errand.Result σ χ ω ε}
  {s₀ s : Crowd Poll.Errand.Result σ ω ε} {ms : List (Move Poll.Errand.Result σ χ ω ε)}

theorem brief_of_trail (hjobs : ∀ i j, R.jobs i = some j → ∃ e : Poll.Errand, j = e.answer)
    (hs₀ : s₀.Fresh) (h : Trail R s₀ ms s) (hturns : InTurns ms) :
    ∃ ph, Follows Turn Ends (fun _ => false) s ph ∧ Brief .cache (· = true) s ph := by
  induction h with
  | nil => exact ⟨fun _ => false, hs₀.follows, hs₀.brief⟩
  | snoc h hstep ih =>
    obtain ⟨hbefore, hkeeping⟩ := inTurns_snoc_iff.1 hturns
    obtain ⟨ph, hfollows, hbrief⟩ := ih hbefore
    have hkeeps : ∀ i j, R.jobs i = some j → j.Keeps Turn Ends false := by
      intro i j hj
      obtain ⟨e, rfl⟩ := hjobs i j hj
      exact keeps_answer e
    obtain ⟨ph', hadv, hfollows'⟩ := hfollows.step hkeeps hstep
    exact ⟨ph', hfollows', hbrief.step opens unbroken hfollows hkeeping hstep hadv⟩

theorem free_of_trail (hjobs : ∀ i j, R.jobs i = some j → ∃ e : Poll.Errand, j = e.answer)
    (hs₀ : s₀.Fresh) (h : Trail R s₀ ms s) (hturns : InTurns ms)
    (hyields : ∀ i p, s.tasks i = some p → p.yields = true) :
    (s.locks .cache).holder = none := by
  obtain ⟨ph, hfollows, hbrief⟩ := brief_of_trail hjobs hs₀ h hturns
  cases hholder : (s.locks .cache).holder with
  | none => rfl
  | some i =>
    obtain ⟨p, hp, hno⟩ := hbrief.yields_of_held unbroken hfollows hholder
    rw [hyields i p hp] at hno
    cases hno

theorem exchanges_of_first {ms' : List (Move Poll.Errand.Result σ χ ω ε)}
    {x : Move Poll.Errand.Result σ χ ω ε} {i : TaskId} {k : Cache → Job Poll.Errand.Result}
    (hjobs : ∀ i j, R.jobs i = some j → ∃ e : Poll.Errand, j = e.answer) (hs₀ : s₀.Fresh)
    (h : Trail R s₀ (ms ++ x :: ms') s) (hturns : InTurns (ms ++ x :: ms'))
    (hj : R.jobs i = some (.ask (.acquire .cache) fun _ => .ask (.inside .cache) k))
    (hx : x.event.mover? = some i) (hfirst : ∀ y ∈ ms, y.event.mover? ≠ some i) :
    exchanges i (events (ms ++ x :: ms')) = [⟨.acquire .cache, ()⟩] ∨
      ∃ t, exchanges i (events (ms ++ x :: ms')) =
        ⟨.acquire .cache, ()⟩ :: ⟨.inside .cache, x.before.gateway.cache⟩ :: t := by
  obtain ⟨j, hj', hplace⟩ := h.ready_of_first (congrFun hs₀.tasks i) hx hfirst
  obtain ⟨hbefore, hstep, hafter⟩ := h.at_move
  obtain ⟨hturns, hturn⟩ := inTurns_append_iff.1 hturns
  obtain ⟨hkeeping, hturns'⟩ := List.forall_mem_cons.1 hturn
  obtain rfl := Option.some.inj (hj.symm.trans hj')
  have hnone : exchanges i (events ms) = [] := by
    refine exchanges_eq_nil fun e he => ?_
    obtain ⟨y, hy, rfl⟩ := List.mem_map.1 he
    exact hfirst y hy
  -- the lock of the cache is free, since nobody is in the middle of a turn
  have hfree : (x.before.locks .cache).holder = none := by
    refine free_of_trail hjobs hs₀ hbefore hturns fun i' p hp => ?_
    cases hyields : p.yields with
    | true => rfl
    | false =>
      have hi' := hkeeping i' p hp hyields
      rw [hx] at hi'
      rw [← Option.some.inj hi', hplace] at hp
      cases hp
      cases hyields
  rw [events_append, exchanges_append, hnone, List.nil_append]
  obtain ⟨htook, hgateway, hplace'⟩ := hstep.of_acquire hx hplace hfree
  cases ms' with
  | nil => exact .inl (by simp [events, exchanges, htook, Event.exchange?, Event.answered?])
  | cons y ms' =>
    right
    obtain ⟨hy, hnext, -⟩ := hafter.cons_cases
    have hkeeping' := (List.forall_mem_cons.1 hturns').1
    rw [hy] at hkeeping'
    have hlooked := hnext.of_inside (hkeeping' i _ hplace' rfl) hplace'
    refine ⟨exchanges i (events ms'), ?_⟩
    simp [events, exchanges, htook, hlooked, hgateway, Event.exchange?, Event.answered?,
      Gateway.answer]

end

end Glance

end MillGateway
