import MillGateway.Job.Basic
import MillGateway.Link.Simulator

/-! What becomes of a simulated controller that is asked for something. Main statements: only a launch
and a shutdown change whether it runs, and axes that are homed stay so. -/

namespace MillGateway

open Machine

def Outside.isHandling : Outside → Bool
  | .link (.issue _) | .link (.wait _ _) | .link .launch | .link .shutdown | .waitWithin _ _ => true
  | _ => false

namespace Link.Simulator

variable {m m' : Simulator} {o : Outside} {a : o.Answer}

/-! ### Actions -/

theorem done_or_error (s : Status) (a : Action) : (apply s a).2 = .done ∨ (apply s a).2 = .error := by
  cases a with
  | state t =>
    rw [apply]
    split
    · exact .inr rfl
    · exact .inl rfl
  | home axis =>
    rw [apply]
    split
    · exact .inl rfl
    · exact .inr rfl
  | auto c => cases c <;> exact .inl rfl
  | mode | jog | mdi | programOpen | abort | resetInterpreter | loadToolTable => exact .inl rfl

theorem isSettled_apply (s : Status) (a : Action) : (apply s a).2.isSettled = true := by
  rcases done_or_error s a with h | h
  · rw [h]
    rfl
  · rw [h]
    rfl

theorem exists_issue (hrunning : m.running = true) (hscripted : m.scripted = []) (a : Action) :
    ∃ h m', m.issue a = (.ok h, m') ∧ m'.completions.lookup h = some (apply m.status a).2 ∧
      m'.status = (apply m.status a).1 ∧ m'.running = true ∧ m'.scripted = [] := by
  let h := m.lastHandle + 1
  refine ⟨h, { m with
    status := (apply m.status a).1
    scripted := []
    issued := m.issued ++ [a]
    completions := keep h (apply m.status a).2 m.completions
    lastHandle := h }, ?_, List.lookup_cons_self, rfl, hrunning, rfl⟩
  rw [issue, hrunning, hscripted]
  rfl

theorem collect_of_lookup {h : Handle} {c : Completion} (hlookup : m.completions.lookup h = some c)
    (hsettled : c.isSettled = true) :
    m.collect h = (.ok c, { m with completions := m.completions.filter (·.1 != h) }) := by
  rw [collect, hlookup]
  dsimp only
  rw [if_pos hsettled]

theorem apply_home_of_lt {s : Status} {axis : UInt32} (h : axis.toNat < s.homed.length) :
    apply s (.home axis) = ({ s with homed := s.homed.set axis.toNat true }, .done) :=
  if_pos h

theorem apply_home_of_not_lt {s : Status} {axis : UInt32} (h : ¬ axis.toNat < s.homed.length) :
    apply s (.home axis) = (s, .error) :=
  if_neg h

theorem homed_apply (s : Status) (a : Action) :
    (apply s a).1.homed = s.homed ∨ ∃ n, (apply s a).1.homed = s.homed.set n true := by
  cases a with
  | state t =>
    rw [apply]
    split
    · exact .inl rfl
    · cases t <;> exact .inl rfl
  | home axis =>
    rw [apply]
    split
    · exact .inr ⟨_, rfl⟩
    · exact .inl rfl
  | auto c => cases c <;> exact .inl rfl
  | mode | jog | mdi | programOpen | abort | resetInterpreter | loadToolTable => exact .inl rfl

/-! ### Answers -/

/-- Waits for an action. One that has not come to its end uses up the limit, and is given up. -/
def waitWithin (m : Simulator) (h : Handle) (limit : Nat) :
    Option (Except Error Completion) × Simulator :=
  (if delay (.wait h limit) (m.collect h).1 = 0 then some (m.collect h).1 else none, (m.collect h).2)

theorem waitWithin_of_lookup {h : Handle} {c : Completion}
    (hlookup : m.completions.lookup h = some c) (hsettled : c.isSettled = true) (limit : Nat) :
    m.waitWithin h limit =
      (some (.ok c), { m with completions := m.completions.filter (·.1 != h) }) := by
  rw [waitWithin, collect_of_lookup hlookup hsettled]
  exact congrArg (·, _) (if_pos (if_pos hsettled))

def Answers (m : Simulator) : (o : Outside) → o.Answer → Simulator → Prop
  | .link c, a, m' => ∃ next, m.answer next c = (a, m')
  | .waitWithin h limit, a, m' => m.waitWithin h limit = (a, m')
  | _, _, m' => m' = m

/-- Whether a controller may have come from another by answers. -/
structure Later (m m' : Simulator) : Prop where
  status : m'.status = m.status ∨ ∃ a, m'.status = (apply m.status a).1
  scripted : m'.scripted <:+ m.scripted
  messages : m'.messages <:+ m.messages

theorem Later.refl (m : Simulator) : m.Later m :=
  ⟨.inl rfl, List.suffix_refl _, List.suffix_refl _⟩

theorem later_issue (m : Simulator) (a : Action) : m.Later (m.issue a).2 := by
  unfold issue
  split
  · exact .refl m
  · cases hs : m.scripted with
    | nil => exact ⟨.inr ⟨a, rfl⟩, List.nil_suffix, List.suffix_refl _⟩
    | cons c cs =>
      refine ⟨.inl rfl, ?_, List.suffix_refl _⟩
      rw [hs]
      exact List.suffix_cons c cs

theorem later_collect (m : Simulator) (h : Handle) : m.Later (m.collect h).2 := by
  unfold collect
  split
  · exact .refl m
  · dsimp only
    split
    · exact ⟨.inl rfl, List.suffix_refl _, List.suffix_refl _⟩
    · exact .refl m

theorem later_pollChannel (m : Simulator) : m.Later m.pollChannel.2 := by
  unfold pollChannel
  split
  · exact .refl m
  · split
    · exact .refl m
    next x xs hm => exact ⟨.inl rfl, List.suffix_refl _, hm ▸ List.suffix_cons x xs⟩

theorem later_launch (m : Simulator) : m.Later m.launch.2 := by
  unfold launch
  split
  · exact .refl m
  · exact ⟨.inl rfl, List.suffix_refl _, List.suffix_refl _⟩

theorem Answers.later (h : m.Answers o a m') : m.Later m' := by
  cases o with
  | link c =>
    obtain ⟨next, h⟩ := h
    obtain rfl : (m.answer next c).2 = m' := congrArg Prod.snd h
    cases c with
    | pollStatus | openChannel => exact .refl m
    | pollChannel => exact m.later_pollChannel
    | issue => exact m.later_issue _
    | wait => exact m.later_collect _
    | launch => exact m.later_launch
    | shutdown => exact ⟨.inl rfl, List.suffix_refl _, List.suffix_refl _⟩
  | waitWithin handle limit =>
    obtain rfl : (m.waitWithin handle limit).2 = m' := congrArg Prod.snd h
    exact m.later_collect handle
  | sleep | clock | localTime | readText | writeText | appendText =>
    obtain rfl : m' = m := h
    exact .refl m'

theorem running_issue (m : Simulator) (a : Action) : (m.issue a).2.running = m.running := by
  unfold issue
  split <;> rfl

theorem running_collect (m : Simulator) (h : Handle) : (m.collect h).2.running = m.running := by
  unfold collect
  split
  · rfl
  · dsimp only
    split <;> rfl

theorem running_pollChannel (m : Simulator) : m.pollChannel.2.running = m.running := by
  unfold pollChannel
  split
  · rfl
  · split <;> rfl

theorem Answers.running_eq (h : m.Answers o a m') (hlaunch : o ≠ .link .launch)
    (hshutdown : o ≠ .link .shutdown) : m'.running = m.running := by
  cases o with
  | link c =>
    obtain ⟨next, h⟩ := h
    obtain rfl : (m.answer next c).2 = m' := congrArg Prod.snd h
    cases c with
    | pollStatus | openChannel => rfl
    | pollChannel => exact m.running_pollChannel
    | issue => exact m.running_issue _
    | wait => exact m.running_collect _
    | launch => exact absurd rfl hlaunch
    | shutdown => exact absurd rfl hshutdown
  | waitWithin handle limit =>
    obtain rfl : (m.waitWithin handle limit).2 = m' := congrArg Prod.snd h
    exact m.running_collect handle
  | sleep | clock | localTime | readText | writeText | appendText => exact congrArg running h

theorem Answers.eq_of_launch_error {e : Error} (h : m.Answers (.link .launch) (.error e) m') :
    m' = m := by
  obtain ⟨next, h⟩ := h
  change m.launch = _ at h
  unfold launch at h
  split at h
  · exact (Prod.mk.inj h).2.symm
  · cases h

theorem Answers.pollStatus_eq {x : Except Error Status} (h : m.Answers (.link .pollStatus) x m') :
    x.toOption = (if m.running then some m.status else none) ∧ m' = m := by
  obtain ⟨next, h⟩ := h
  obtain ⟨rfl, rfl⟩ := Prod.mk.inj h
  refine ⟨?_, rfl⟩
  unfold pollStatus
  cases m.running <;> rfl

/-! ### What stays -/

structure Untold (m : Simulator) : Prop where
  scripted : m.scripted = []
  messages : m.messages = []

theorem untold_new (name : String) (axes : Nat) : (new name axes).Untold :=
  ⟨rfl, rfl⟩

theorem Later.untold (h : m.Later m') (hm : m.Untold) : m'.Untold :=
  ⟨List.suffix_nil.1 (hm.scripted ▸ h.scripted), List.suffix_nil.1 (hm.messages ▸ h.messages)⟩

theorem Later.homed_cases (h : m.Later m') :
    m'.status.homed = m.status.homed ∨ ∃ n, m'.status.homed = m.status.homed.set n true := by
  rcases h.status with hs | ⟨a, hs⟩
  · exact .inl (congrArg Status.homed hs)
  · rw [hs]
    exact homed_apply m.status a

theorem Later.length_homed (h : m.Later m') :
    m'.status.homed.length = m.status.homed.length := by
  rcases h.homed_cases with hs | ⟨n, hs⟩
  · rw [hs]
  · rw [hs, List.length_set]

theorem Later.allHomed (h : m.Later m') (hm : m.status.allHomed = true) :
    m'.status.allHomed = true := by
  have hmem : ∀ b ∈ m.status.homed, b = true := by simpa [Status.allHomed] using hm
  suffices ∀ b ∈ m'.status.homed, b = true by simpa [Status.allHomed] using this
  intro b hb
  rcases h.homed_cases with hs | ⟨n, hs⟩
  · exact hmem b (hs ▸ hb)
  · rw [hs] at hb
    rcases List.mem_or_eq_of_mem_set hb with hb | rfl
    · exact hmem b hb
    · rfl

theorem Answers.eq_of_look (h : m.Answers o a m') (ho : o.isHandling = false) (hm : m.Untold) :
    m' = m := by
  cases o with
  | link c =>
    obtain ⟨next, h⟩ := h
    cases c with
    | pollStatus | openChannel => exact (Prod.mk.inj h).2.symm
    | pollChannel =>
      change m.pollChannel = _ at h
      unfold pollChannel at h
      rw [hm.messages] at h
      split at h <;> exact (Prod.mk.inj h).2.symm
    | issue | wait | launch | shutdown => cases ho
  | waitWithin => cases ho
  | sleep | clock | localTime | readText | writeText | appendText => exact h

end Link.Simulator

end MillGateway
