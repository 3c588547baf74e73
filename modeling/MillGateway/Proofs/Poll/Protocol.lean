import MillGateway.Proofs.Command.Returning

/-! How a status poll goes: the lock, the controller, the cache, the observers. Whatever the gateway
does keeps to it. -/

namespace MillGateway

open Crowd Job Machine

def Request.mayWait : Request → Bool
  | .acquire _ | .outside _ => true
  | .release _ | .inside _ => false

namespace Poll

/-- How far a task is with a poll. An outcome is the status, or none if the controller is down. A
status that is in the cache has still to be delivered. -/
inductive Phase where
  | idle
  | holding
  | heard (o : Option Status)
  | stored (s : Status)
  | settled (o : Option Status)

def Phase.entered? : Phase → Option (Option Status)
  | .stored s => some (some s)
  | .settled o => some o
  | .idle | .holding | .heard _ => none

/-- The outcome that was heard goes into the cache, a status from there to the observers, and nothing
can hold up what follows. -/
inductive Turn : Protocol Phase
  | take {a} : Turn .idle (.acquire .polling) a .holding
  | hear {a} : Turn .holding (.outside (.link .pollStatus)) a (.heard a.toOption)
  | store {s b} : Turn (.heard (some s)) (.inside (.store s)) b (.stored s)
  | announce {s n} : Turn (.stored s) (.inside (.announceStatus s)) n (.settled (some s))
  | markDown {b} : Turn (.heard none) (.inside .markDown) b (.settled none)
  | give {o a} : Turn (.settled o) (.release .polling) a .idle
  | other {ph r a} (hr : r.isPolling = false) (hph : ph.entered? = none ∨ r.mayWait = false) :
      Turn ph r a ph

def Ends (ph : Phase) (_ : α) : Prop :=
  ph = .idle

theorem guards_polling : Guards Turn .polling (· ≠ .idle) where
  enter
    | .take, _ => .inr rfl
    | .hear, _ => .inl nofun
    | .store, _ => .inl nofun
    | .announce, _ => .inl nofun
    | .markDown, _ => .inl nofun
    | .give, hin => absurd rfl hin
    | .other _ _, hin => .inl hin
  leave := by
    intro ph a ph' h
    cases h with
    | give => exact ⟨nofun, fun h => h rfl⟩
    | other hr => cases hr

/-! ### In the middle of a poll -/

theorem ne_idle_of_entered {p : Phase} {o : Option Status} (h : p.entered? = some o) :
    p ≠ .idle := by
  rintro rfl
  cases h

theorem midway_of_entered {j : Job α} {p : Phase} {o : Option Status} (hp : p.entered? = some o)
    (hj : j.Keeps Turn Ends p) :
    (∃ l k, j = .ask (.release l) k) ∨ ∃ x k, j = .ask (.inside x) k := by
  cases j with
  | done a => exact absurd hj (ne_idle_of_entered hp)
  | ask r k =>
    obtain ⟨a⟩ := r.nonempty_answer
    obtain ⟨ph', hturn, -⟩ := hj a
    cases r with
    | release l => exact .inl ⟨l, k, rfl⟩
    | inside x => exact .inr ⟨x, k, rfl⟩
    | acquire l =>
      cases hturn with
      | take => cases hp
      | other hr hph => simp [hp, Request.mayWait] at hph
    | outside o =>
      cases hturn with
      | hear => cases hp
      | other hr hph => simp [hp, Request.mayWait] at hph

section

variable {start ph : TaskId → Phase} {s : Crowd α σ ω ε} {i : TaskId}

theorem midway_of_follows (h : Follows Turn Ends start s ph) {p : Place α}
    (hp : s.tasks i = some p) (hjob : ∃ j, s.jobAt i = some j) {o : Option Status}
    (hi : (ph i).entered? = some o) : p.isSuspended = false ∧ p.isMidway = true := by
  obtain ⟨j, hj⟩ := hjob
  have hkeeps := h.keeps i j hj
  rw [jobAt_of_task hp] at hj
  rcases midway_of_entered hi hkeeps with ⟨l, k, rfl⟩ | ⟨x, k, rfl⟩
  · cases p with
    | ready j =>
      cases hj
      exact ⟨rfl, rfl⟩
    | queued | away | dropped => cases hj
  · cases p with
    | ready j =>
      cases hj
      exact ⟨rfl, rfl⟩
    | queued | away | dropped => cases hj

theorem holding_of_follows (h : Follows Turn Ends start s ph) {k}
    (hi : s.tasks i = some (.away (.link .pollStatus) k)) : ph i = .holding := by
  obtain ⟨ph', hturn, -⟩ := h.keeps i _ (jobAt_of_task hi) (.error .channelClosed)
  generalize hp : ph i = p at hturn
  cases hturn with
  | hear => rfl
  | other hr => cases hr

end

/-! ### Whatever the gateway does -/

theorem keeps_pollStatus : pollStatus.Keeps Turn Ends .idle := by
  refine fun _ => ⟨.holding, .take, fun x => ⟨_, .hear, ?_⟩⟩
  cases x with
  | error e =>
    refine fun _ => ⟨_, .other rfl (.inl rfl), fun b => ⟨_, .markDown, ?_⟩⟩
    exact fun _ => ⟨_, .other rfl (.inr rfl), fun _ => ⟨_, .give, rfl⟩⟩
  | ok s =>
    refine fun _ => ⟨_, .other rfl (.inl rfl), fun b => ⟨_, .store, ?_⟩⟩
    refine fun _ => ⟨_, .other rfl (.inr rfl), fun n => ⟨_, .announce, ?_⟩⟩
    exact fun _ => ⟨_, .give, rfl⟩

theorem spares_idle : Turn.Spares (· = .idle) fun r => r.isPolling = false := by
  rintro _ r a rfl hr
  exact ⟨_, .other hr (.inl rfl), rfl⟩

theorem not_isPolling_of_isOrdinary {r : Request} (h : r.isOrdinary = true) :
    r.isPolling = false :=
  (Request.isOrdinary_iff.1 h).1

theorem not_isPolling_of_isSwitch {r : Request} (h : r.isSwitch = true) : r.isPolling = false := by
  cases r with
  | outside o =>
    cases o with
    | link c => cases c <;> first | rfl | cases h
    | _ => rfl
  | _ => cases h

theorem not_isPolling_of_isReading {r : Request} (h : r.isReading = true) :
    r.isPolling = false := by
  cases r with
  | outside o =>
    cases o with
    | link c => cases c <;> first | rfl | cases h
    | _ => rfl
  | inside x => cases x <;> first | rfl | cases h
  | _ => cases h

theorem partsReturn : PartsReturn Turn (· = .idle) fun _ => True := by
  refine partsReturn_of_ordinary (spares_idle.mono fun _ => not_isPolling_of_isOrdinary)
    keeps_pollStatus.returns (fun {a} _ limit => ?_) (spares_idle.mono ?_)
  · refine spares_idle.returns ((asks_execute a limit).mono ?_)
    rintro r (hr | rfl)
    · exact not_isPolling_of_isOrdinary hr
    · rfl
  · rintro _ ⟨c, hc, -, rfl⟩
    exact not_isPolling_of_isSwitch hc

inductive Errand where
  | command (s : Setup) (name : String) (args : Json)
  | pollStatus
  | pollErrors
  | resetChannel

def Errand.job : Errand → Job Unit
  | .command s name args => discard (handleCommand s name args)
  | .pollStatus => discard Job.pollStatus
  | .pollErrors => discard Job.pollErrors
  | .resetChannel => Job.resetChannel

inductive Errand.Result where
  | reply (r : Reply)
  | status (s? : Option Status)
  | event (e? : Option MillGateway.Event)
  | done

def Errand.answer : Errand → Job Errand.Result
  | .command s name args => .reply <$> handleCommand s name args
  | .pollStatus => .status <$> Job.pollStatus
  | .pollErrors => .event <$> Job.pollErrors
  | .resetChannel => (fun _ => .done) <$> Job.resetChannel

def Errand.MayCall (e : Errand) (c : Link.Call) : Prop :=
  ∃ s name args o, e = .command s name args ∧ orderOf? name args = some o ∧ o.MayCall s c

theorem asks_answer (e : Errand) :
    e.answer.Asks fun r => r.isOrdinary = true ∨ r.isPolling = true ∨
      (e = .pollErrors ∧ r.isReading = true) ∨
      ∃ c, e.MayCall c ∧ r = .outside (.link c) := by
  cases e with
  | command s name args =>
    refine Asks.bind ((composed_handleCommand s name args).asks.mono ?_) fun _ => trivial
    rintro r (hr | hr | ⟨c, ⟨o, ho, hc⟩, rfl⟩)
    · exact .inl hr
    · exact .inr (.inl hr)
    · exact .inr (.inr (.inr ⟨c, ⟨s, name, args, o, rfl, ho, hc⟩, rfl⟩))
  | pollStatus =>
    exact Asks.bind (asks_pollStatus.mono fun _ h => h.imp_right .inl) fun _ => trivial
  | pollErrors =>
    refine Asks.bind (asks_pollErrors.mono ?_) fun _ => trivial
    exact fun _ h => h.imp_right fun h => .inr (.inl ⟨rfl, h⟩)
  | resetChannel =>
    refine Asks.bind (asks_resetChannel.mono fun _ hr => ?_) fun _ => trivial
    exact .inl (Request.isOrdinary_of_isChannel hr)

section

variable {N : Protocol φ} {rest : φ → Prop} {e : Errand}

theorem Errand.returns (hcommand : ∀ s name args, (handleCommand s name args).Returns N rest)
    (hpoll : Job.pollStatus.Returns N rest) (hreset : Job.resetChannel.Returns N rest)
    (herrors : e = .pollErrors → Job.pollErrors.Returns N rest) : e.answer.Returns N rest := by
  cases e with
  | command s name args => exact (hcommand s name args).map
  | pollStatus => exact hpoll.map
  | pollErrors => exact (herrors rfl).map
  | resetChannel => exact hreset.map

theorem Errand.returns_of_parts (h : PartsReturn N rest fun _ => True)
    (herrors : e = .pollErrors → Job.pollErrors.Returns N rest) : e.answer.Returns N rest :=
  Errand.returns h.handleCommand h.poll h.reset herrors

end

theorem keeps_answer (e : Errand) : e.answer.Keeps Turn Ends .idle := by
  refine Errand.returns_of_parts partsReturn (fun _ => ?_) _ rfl
  refine spares_idle.returns (asks_pollErrors.mono ?_)
  rintro r (hr | hr)
  · exact not_isPolling_of_isOrdinary hr
  · exact not_isPolling_of_isReading hr

theorem job_eq (e : Errand) : e.job = e.answer.bind fun _ => .done () := by
  have hmap : ∀ {β : Type} (j : Job β) (f : β → Errand.Result),
      discard j = (f <$> j).bind fun _ => .done () :=
    fun j f => (Job.bind_assoc j (fun b => .done (f b)) fun _ => .done ()).symm
  cases e with
  | command | pollStatus | pollErrors => exact hmap _ _
  | resetChannel =>
    exact (Job.bind_done Job.resetChannel).symm.trans (hmap Job.resetChannel fun _ => .done)

theorem keeps_errand (e : Errand) : e.job.Keeps Turn Ends .idle := by
  rw [job_eq]
  exact (keeps_answer e).bind fun _ _ h => h

theorem exists_errand {R : Rules Errand.Result σ χ ω ε} {errands : TaskId → Option Errand}
    (hjobs : ∀ i, R.jobs i = (errands i).map Errand.answer) (i : TaskId)
    (j : Job Errand.Result) (hj : R.jobs i = some j) : ∃ e : Errand, j = e.answer := by
  rw [hjobs] at hj
  obtain ⟨e, -, rfl⟩ := Option.map_eq_some_iff.1 hj
  exact ⟨e, rfl⟩

end Poll

end MillGateway
