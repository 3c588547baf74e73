import Mathlib.Data.List.Chain
import MillGateway.Proofs.Poll.Protocol

/-! How the error channel is opened, read and given up: whoever does any of it holds the lock of
the channel, and looks for an open channel before it opens one. Whatever the gateway does keeps to
it. -/

namespace MillGateway

open Crowd Job Link
open Poll (Errand)

def Request.onChannel : Request → Bool
  | .acquire .channel | .release .channel => true
  | .inside .channel | .inside (.setChannel _) => true
  | .outside (.link .openChannel) | .outside (.link (.pollChannel _)) => true
  | _ => false

def Request.setting? : Request → Option (Option ChannelId)
  | .inside (.setChannel c?) => some c?
  | _ => none

theorem Request.setting?_of_not_onChannel {r : Request} (hr : r.onChannel = false) :
    r.setting? = none := by
  cases r with
  | inside x => cases x <;> first | rfl | cases hr
  | _ => rfl

def Poll.Errand.isReader : Errand → Bool
  | .pollErrors => true
  | .command _ _ _ | .pollStatus | .resetChannel => false

namespace Opening

/-- How far a task is on the channel. In `opened` the channel that it has opened is not kept yet, in
`failed` the one that has failed is still kept, and from `cleared` on none is. -/
inductive Stage where
  | apart
  | holding
  | found (c? : Option ChannelId)
  | opened (c : ChannelId)
  | failed
  | over
  | cleared

structure Phase where
  reads : Bool
  stage : Stage

def afterOpen : Except Link.Error ChannelId → Stage
  | .ok c => .opened c
  | .error _ => .over

def afterPoll : Except Link.Error (Option Message) → Stage
  | .ok _ => .over
  | .error _ => .failed

inductive Turn : Protocol Phase
  | take {b a} : Turn ⟨b, .apart⟩ (.acquire .channel) a ⟨b, .holding⟩
  | look {c?} : Turn ⟨true, .holding⟩ (.inside .channel) c? ⟨true, .found c?⟩
  | opens {x} : Turn ⟨true, .found none⟩ (.outside (.link .openChannel)) x ⟨true, afterOpen x⟩
  | store {c a} : Turn ⟨true, .opened c⟩ (.inside (.setChannel (some c))) a ⟨true, .found (some c)⟩
  | poll {c x} :
      Turn ⟨true, .found (some c)⟩ (.outside (.link (.pollChannel c))) x ⟨true, afterPoll x⟩
  | giveUp {a} : Turn ⟨true, .failed⟩ (.inside (.setChannel none)) a ⟨true, .cleared⟩
  | reset {a} : Turn ⟨false, .holding⟩ (.inside (.setChannel none)) a ⟨false, .cleared⟩
  | give {b st a} (h : st = .over ∨ st = .cleared) :
      Turn ⟨b, st⟩ (.release .channel) a ⟨b, .apart⟩
  | other {b r a} (hr : r.onChannel = false) : Turn ⟨b, .apart⟩ r a ⟨b, .apart⟩

def Inside (ph : Phase) : Prop :=
  ph.stage ≠ .apart

def Ends (ph : Phase) (_ : α) : Prop :=
  ph.stage = .apart

theorem guards_channel : Guards Turn .channel Inside where
  enter
    | .take, _ => .inr rfl
    | .look, _ => .inl nofun
    | .opens, _ => .inl nofun
    | .store, _ => .inl nofun
    | .poll, _ => .inl nofun
    | .giveUp, _ => .inl nofun
    | .reset, _ => .inl nofun
    | .give _, hin => absurd rfl hin
    | .other _, hin => .inl hin
  leave := by
    intro ph a ph' h
    cases h with
    | give hst => rcases hst with rfl | rfl <;> exact ⟨nofun, fun h => h rfl⟩
    | other hr => cases hr

theorem Turn.reads_eq {p q : Phase} {r : Request} {a : r.Answer} (h : Turn p r a q) :
    q.reads = p.reads := by
  cases h <;> rfl

/-! ### Whatever the gateway does -/

theorem not_onChannel_of_isPlain {o : Outside} (h : o.isPlain = true) :
    (Request.outside o).onChannel = false := by
  cases o with
  | link c => cases c <;> first | rfl | cases h
  | _ => rfl

theorem not_onChannel_of_isSwitch {c : Call} (h : c.isSwitch = true) :
    (Request.outside (.link c)).onChannel = false := by
  cases c <;> first | rfl | cases h

theorem not_onChannel_of_isFile {r : Request} (h : r.isFile = true) : r.onChannel = false := by
  cases r with
  | outside o => cases o <;> first | rfl | cases h
  | _ => cases h

section

variable {b : Bool}

theorem spares : Turn.Spares (· = ⟨b, .apart⟩) fun r => r.onChannel = false := by
  rintro _ r a rfl hr
  exact ⟨_, .other hr, rfl⟩

theorem returns_isAlive : isAlive.Returns Turn (· = ⟨b, .apart⟩) :=
  spares.returns (Asks.locked rfl rfl ⟨rfl, fun _ => trivial⟩)

theorem returns_pollStatus : pollStatus.Returns Turn (· = ⟨b, .apart⟩) :=
  spares.returns (asks_pollStatus_of ⟨rfl, rfl⟩ ⟨rfl, rfl⟩ rfl (fun _ => ⟨rfl, rfl⟩) rfl)

end

theorem keeps_resetChannel :
    resetChannel.Keeps Turn (fun ph _ => ph = ⟨false, .apart⟩) ⟨false, .apart⟩ :=
  fun _ => ⟨_, .take, fun _ => ⟨_, .reset, fun _ => ⟨_, .give (.inr rfl), rfl⟩⟩⟩

theorem partsReturn : PartsReturn Turn (· = ⟨false, .apart⟩) fun _ => True where
  poll := returns_pollStatus
  alive := returns_isAlive
  snapshot := spares.returns (Asks.locked rfl rfl ⟨rfl, fun _ => trivial⟩)
  reset := keeps_resetChannel.returns
  execute _ limit := by
    refine returns_execute returns_isAlive (spares.mono ?_) limit
    rintro r (rfl | ⟨o, ho, rfl⟩)
    · rfl
    · exact not_onChannel_of_isPlain ho
  switch hc _ := spares.returns ⟨not_onChannel_of_isSwitch hc, fun _ => trivial⟩
  plain ho := spares.returns ⟨not_onChannel_of_isPlain ho, fun _ => trivial⟩
  edit hj := spares.returns (Asks.locked rfl rfl (hj.mono fun _ => not_onChannel_of_isFile))

def Ready (ph : Phase) : Option ChannelId → Prop
  | some c => ph = ⟨true, .found (some c)⟩
  | none => ph = ⟨true, .over⟩

theorem keeps_openedChannel : openedChannel.Keeps Turn Ready ⟨true, .holding⟩ := by
  refine fun c? => ⟨_, .look, ?_⟩
  cases c? with
  | some c => rfl
  | none =>
    refine fun x => ⟨_, .opens, ?_⟩
    cases x with
    | ok c => exact fun _ => ⟨_, .store, rfl⟩
    | error e => rfl

def Leaves (ph : Phase) (_ : Option Message) : Prop :=
  ph = ⟨true, .over⟩ ∨ ph = ⟨true, .cleared⟩

theorem keeps_takeMessage :
    takeMessage.Keeps Turn (fun ph _ => ph = ⟨true, .apart⟩) ⟨true, .apart⟩ := by
  refine fun _ => ⟨_, .take, ?_⟩
  refine (keeps_openedChannel.bind ?_ :
    Keeps Turn Leaves (openedChannel.bind _) ⟨true, .holding⟩).bind ?_
  · intro ph c? hph
    cases c? with
    | none => exact .inl hph
    | some c =>
      cases hph
      refine fun x => ⟨_, .poll, ?_⟩
      cases x with
      | ok m? => exact .inl rfl
      | error e => exact fun _ => ⟨_, .giveUp, .inr rfl⟩
  · rintro _ m? (rfl | rfl)
    · exact fun _ => ⟨_, .give (.inl rfl), rfl⟩
    · exact fun _ => ⟨_, .give (.inr rfl), rfl⟩

theorem not_onChannel_of_isReport {r : Request} (h : r.isReport = true) : r.onChannel = false := by
  cases r with
  | inside x => cases x <;> first | rfl | cases h
  | outside o => cases o <;> first | rfl | cases h
  | acquire | release => cases h

theorem returns_answer (e : Errand) : e.answer.Returns Turn (· = ⟨e.isReader, .apart⟩) := by
  cases e with
  | command | pollStatus | resetChannel => exact Errand.returns_of_parts partsReturn nofun
  | pollErrors =>
    exact (returns_pollErrors returns_isAlive keeps_takeMessage.returns
      (spares.mono fun _ => not_onChannel_of_isReport)).map

theorem keeps_answer (e : Errand) : e.answer.Keeps Turn Ends ⟨e.isReader, .apart⟩ :=
  (returns_answer e _ rfl).mono fun _ _ hph => congrArg Phase.stage hph

/-! ### Ways into a phase -/

theorem looked_of_path {b : Bool} {t : List Exchange}
    (h : Turn.Path ⟨b, .apart⟩ t ⟨true, .found none⟩) :
    t.getLast? = some ⟨.inside .channel, none⟩ := by
  generalize hq : (⟨true, .found none⟩ : Phase) = q at h
  cases h with
  | nil => cases hq
  | snoc _ hturn =>
    cases hturn with
    | look =>
      cases hq
      exact List.getLast?_concat
    | @opens x => cases x <;> cases hq
    | @poll c x => cases x <;> cases hq
    | _ => cases hq

theorem cleared_of_path {b : Bool} {t : List Exchange} {q : Phase}
    (h : Turn.Path ⟨b, .apart⟩ (t ++ [⟨.inside (.setChannel none), ()⟩]) q) :
    q.stage = .cleared := by
  generalize hu : t ++ [⟨.inside (.setChannel none), ()⟩] = u at h
  cases h with
  | nil => simp at hu
  | snoc _ hturn =>
    obtain ⟨-, hx⟩ := List.append_inj' hu rfl
    cases hx
    cases hturn with
    | giveUp | reset => rfl
    | other hr => cases hr

def Resets (t : List Exchange) : Prop :=
  ∃ t', t = t' ++ [⟨.inside (.setChannel none), ()⟩] ++ [⟨.release .channel, ()⟩]

theorem Resets.after {t : List Exchange} (h : Resets t) (t₀ : List Exchange) :
    Resets (t₀ ++ t) := by
  obtain ⟨t', rfl⟩ := h
  exact ⟨t₀ ++ t', by simp⟩

theorem concludes_resetChannel : resetChannel.Concludes fun t _ => Resets t :=
  fun _ _ _ => ⟨[⟨.acquire .channel, ()⟩], rfl⟩

theorem concludes_startCnc (s : Setup) :
    (Handle.startCnc s).Concludes fun t r => r = .of .ok → Resets t := by
  unfold Handle.startCnc
  refine (ComesTo.any _).concludes.bind fun t s? _ => ?_
  split
  · exact fun hr => by cases hr
  · refine (ComesTo.any _).concludes.bind fun t' launched _ => ?_
    split
    · exact fun hr => by cases hr
    · refine (ComesTo.any _).concludes.bind fun t₁ now _ => ?_
      refine (ComesTo.any _).concludes.bind fun t₂ answered _ => ?_
      split
      · refine concludes_resetChannel.bind fun t₃ _ ht₃ _ => ?_
        rw [List.append_nil]
        exact (((ht₃.after t₂).after t₁).after t').after t
      · exact fun hr => by cases hr

def GivesUp (e : Errand) (res : Errand.Result) : Prop :=
  e = .resetChannel ∨
    (∃ setup args, e = .command setup "start_cnc" args) ∧ res = .reply (.of .ok)

theorem resets_of_reaches {e : Errand} {res : Errand.Result} {t : List Exchange}
    (h : e.answer.Reaches t (.done res)) (he : GivesUp e res) : Resets t := by
  rcases he with rfl | ⟨⟨setup, args, rfl⟩, rfl⟩
  · have hends : Errand.resetChannel.answer.Concludes fun t _ => Resets t := by
      refine concludes_resetChannel.bind fun t _ ht => ?_
      exact concludes_done (q := fun t _ => Resets t) ht
    exact h.concludes hends
  · have hends : (Errand.command setup "start_cnc" args).answer.Concludes
        fun t res => res = .reply (.of .ok) → Resets t := by
      refine (concludes_startCnc setup).bind fun t r ht hr => ?_
      rw [List.append_nil]
      exact ht (Errand.Result.reply.inj hr)
    exact h.concludes hends rfl

/-! ### What changes on the way -/

inductive Change where
  | opened (c : ChannelId)
  | failed
  | reset
  deriving DecidableEq

def Change.isOpening : Change → Bool
  | .opened _ => true
  | .failed | .reset => false

def changeOf (reads : Bool) : (r : Request) → r.Answer → Option Change
  | .outside (.link .openChannel), .ok c => some (.opened c)
  | .outside (.link (.pollChannel _)), .error _ => some .failed
  | .inside (.setChannel none), _ => if reads then none else some .reset
  | _, _ => none

theorem changeOf_of_not_onChannel {r : Request} (hr : r.onChannel = false) (b : Bool)
    (a : r.Answer) : changeOf b r a = none := by
  cases r with
  | outside o =>
    cases o with
    | link c => cases c <;> first | rfl | cases hr
    | _ => rfl
  | inside x => cases x <;> first | rfl | cases hr
  | _ => rfl

/-- The channel that was opened last, if nothing has come of it since. -/
def standing (cs : List Change) : Option ChannelId :=
  match cs.getLast? with
  | some (.opened c) => some c
  | some .failed | some .reset | none => none

theorem standing_snoc (cs : List Change) (x : Change) :
    standing (cs ++ [x]) = match x with | .opened c => some c | .failed | .reset => none := by
  rw [standing, List.getLast?_concat]
  cases x <;> rfl

theorem standing_eq_some_iff {cs : List Change} {c : ChannelId} :
    standing cs = some c ↔ cs.getLast? = some (.opened c) := by
  unfold standing
  split <;> simp_all

/-- What a task at this stage knows: the channel that the gateway keeps, and the one that stands. -/
def Stage.Agrees (kept stands : Option ChannelId) : Stage → Prop
  | .apart | .holding | .over => kept = stands
  | .found c? => kept = c? ∧ stands = c?
  | .opened c => kept = none ∧ stands = some c
  | .failed => stands = none
  | .cleared => kept = none ∧ stands = none

def seen? : (r : Request) → r.Answer → Option (Option ChannelId)
  | .inside .channel, c? => some c?
  | _, _ => none

theorem Turn.agrees {p q : Phase} {r : Request} {a : r.Answer} {kept : Option ChannelId}
    {cs : List Change} (h : Turn p r a q) (hseen : ∀ c?, seen? r a = some c? → c? = kept)
    (hp : p.stage.Agrees kept (standing cs)) :
    q.stage.Agrees (r.setting?.getD kept) (standing (cs ++ (changeOf p.reads r a).toList)) := by
  have hnil : standing (cs ++ []) = standing cs := by rw [List.append_nil]
  cases h with
  | take => exact hp.trans hnil.symm
  | look =>
    have hc := hseen _ rfl
    exact ⟨hc.symm, hnil.trans (hp.symm.trans hc.symm)⟩
  | @opens x =>
    cases x with
    | ok c => exact ⟨hp.1, standing_snoc cs (.opened c)⟩
    | error e => exact hp.1.trans (hp.2.symm.trans hnil.symm)
  | store => exact ⟨rfl, hnil.trans hp.2⟩
  | @poll c x =>
    cases x with
    | ok m? => exact hp.1.trans (hp.2.symm.trans hnil.symm)
    | error e => exact standing_snoc cs .failed
  | giveUp => exact ⟨rfl, hnil.trans hp⟩
  | reset => exact ⟨rfl, standing_snoc cs .reset⟩
  | give hst =>
    rcases hst with rfl | rfl
    · exact hp.trans hnil.symm
    · exact hp.1.trans (hp.2.symm.trans hnil.symm)
  | other hr =>
    rw [changeOf_of_not_onChannel hr, Request.setting?_of_not_onChannel hr, Option.toList_none,
      hnil]
    exact hp

theorem Turn.standing_of_opening {p q : Phase} {r : Request} {a : r.Answer}
    {kept stands : Option ChannelId} {c : ChannelId} (h : Turn p r a q)
    (hp : p.stage.Agrees kept stands) (hc : changeOf p.reads r a = some (.opened c)) :
    stands = none := by
  cases h with
  | opens => exact hp.2
  | @poll c x => cases x <;> cases hc
  | other hr =>
    rw [changeOf_of_not_onChannel hr] at hc
    cases hc
  | _ => cases hc

/-- Whether of two changes in a row one at most is an opening. -/
def Spaced (cs : List Change) : Prop :=
  cs.IsChain fun x y => ¬ (x.isOpening = true ∧ y.isOpening = true)

theorem Spaced.snoc {cs : List Change} {x : Change} (h : Spaced cs)
    (hx : ∀ c, x = .opened c → standing cs = none) : Spaced (cs ++ [x]) := by
  refine List.isChain_append.2 ⟨h, .singleton x, fun y hy z hz => ?_⟩
  obtain rfl : x = z := Option.some.inj hz
  rintro ⟨hyo, hxo⟩
  cases x with
  | opened c =>
    have hnone := hx c rfl
    cases y with
    | opened c' =>
      rw [standing_eq_some_iff.2 hy] at hnone
      cases hnone
    | failed | reset => cases hyo
  | failed | reset => cases hxo

theorem Spaced.count_le {cs : List Change} (h : Spaced cs) :
    cs.countP Change.isOpening ≤ 1 + cs.count .failed + cs.count .reset := by
  have hfirst (cs : List Change) : cs.head?.toList.countP Change.isOpening ≤ 1 :=
    Nat.le_trans List.countP_le_length (by cases cs.head? <;> simp)
  -- only an opening that comes first is one more
  suffices cs.countP Change.isOpening ≤
      cs.count .failed + cs.count .reset + cs.head?.toList.countP Change.isOpening by
    have hone := hfirst cs
    omega
  induction cs with
  | nil => exact Nat.zero_le _
  | cons x cs ih =>
    obtain ⟨hnext, hrest⟩ := List.isChain_cons.1 h
    have hcs := ih hrest
    have hone := hfirst cs
    cases x with
    | opened c =>
      have hzero : cs.head?.toList.countP Change.isOpening = 0 := by
        refine List.countP_eq_zero.2 fun y hy => ?_
        simpa [Change.isOpening] using hnext y (Option.mem_toList.1 hy)
      simp [List.countP_cons, Change.isOpening]
      omega
    | failed | reset =>
      simp [Change.isOpening]
      omega

end Opening

end MillGateway
