import MillGateway.Proofs.Console.Lines
import MillGateway.Proofs.Crowd.Play
import MillGateway.Proofs.Crowd.Trail
import MillGateway.Proofs.File.Access
import MillGateway.Proofs.Poll.Protocol
import MillGateway.Proofs.Text.Words

/-! Requests that are refused before anything is done about them. Main statement: they are answered
with a negative code, and leave the gateway and the world outside as they are. -/

namespace MillGateway

open Machine

/-! ### What is refused -/

def Order.usesTable : Order → Bool
  | .toolsData | .addTool _ | .deleteTools _ | .updateTools _ => true
  | _ => false

inductive Order.Refused (s : Setup) : Order → Prop
  | blank {command : String} (h : ∀ c ∈ command.toList, Text.isBlank c = true) :
      Refused s (.runMdi command)
  | mode : Refused s (.setTaskMode .unknown)
  | program {name content : String} (h : Path.isPlainName name = false) :
      Refused s (.loadGcode name content)
  | noTable {o : Order} (ho : o.usesTable = true) (hs : s.toolTable? = none) : Refused s o
  | tool {r : Tool.Record} {e : Tool.Error} (h : r.validate = .error e) : Refused s (.addTool r)
  | tools {rs : List Tool.Record} {e : Tool.Error} (h : Tool.validateAll [] rs = .error e) :
      Refused s (.updateTools rs)

/-- Why a request is refused; `down` tells that the controller is. -/
inductive Rejection (s : Setup) (down : Prop) (name : String) (args : Json) : Prop
  | unknown (h : ∀ c : Command, c.name ≠ name)
  | down {c : Command} (hc : c.name = name) (hlink : c.requiresLink = true) (h : down)
  | arguments {c : Command} {e : ShapeError} (hc : c.name = name)
      (h : Order.read c (argsOrEmpty args) = .error e)
  | order {o : Order} (h : orderOf? name args = some o) (ho : o.Refused s)

theorem Tool.Error.code_neg (e : Tool.Error) : e.code < 0 := by
  cases e <;> simp [code]

namespace Handle

theorem withToolTable_of_none {s : Setup} (hs : s.toolTable? = none) (f : Path → Job Reply) :
    withToolTable s f = .done (.of .noToolTable) := by
  rw [withToolTable, hs]
  rfl

theorem withToolTable_of_error {s : Setup} {e : Tool.Error} {f : Path → Job Reply}
    (hf : ∀ table, f table = .done (.of (.toolTable e))) :
    ∃ r, withToolTable s f = .done r ∧ r.code < 0 := by
  rw [withToolTable]
  cases s.toolTable? with
  | none => exact ⟨_, rfl, show Outcome.code .noToolTable < 0 by decide⟩
  | some table => exact ⟨_, hf table, e.code_neg⟩

end Handle

theorem Order.Refused.order_eq {s : Setup} {o : Order} (h : o.Refused s) :
    ∃ r, Handle.order s o = .done r ∧ r.code < 0 := by
  cases h with
  | @blank command h =>
    refine ⟨.of .emptyCommand, ?_, show Outcome.code .emptyCommand < 0 by decide⟩
    change Handle.runMdi command = _
    unfold Handle.runMdi
    rw [Text.trim_eq_nil_iff.2 h]
    rfl
  | mode => exact ⟨.of .noSuchMode, rfl, show Outcome.code .noSuchMode < 0 by decide⟩
  | @program name content h =>
    refine ⟨.of (.badProgramName name), ?_, show (-1 : Int32) < 0 by decide⟩
    change Handle.loadGcode s name content = _
    unfold Handle.loadGcode
    rw [h]
    rfl
  | noTable ho hs =>
    refine ⟨.of .noToolTable, ?_, show Outcome.code .noToolTable < 0 by decide⟩
    cases o with
    | toolsData | addTool | deleteTools | updateTools => exact Handle.withToolTable_of_none hs _
    | _ => cases ho
  | @tool r e h =>
    apply Handle.withToolTable_of_error
    intro table
    rw [Tool.Store.add, h]
    rfl
  | @tools rs e h =>
    apply Handle.withToolTable_of_error
    intro table
    rw [Tool.Store.update, h]
    rfl

/-! ### What refusing takes -/

namespace Request

def isLook : Request → Bool
  | .acquire .cache | .inside .cache | .release .cache => true
  | _ => false

end Request

open Job

section

variable {s : Setup} {down : Prop} {name : String} {args : Json}

theorem carryOut_of_orderOf? {o : Order} (h : orderOf? name args = some o) (ho : o.Refused s) :
    ∃ c, Command.ofName? name = some c ∧ ∃ r, Handle.carryOut s c args = .done r ∧ r.code < 0 := by
  obtain ⟨c, hc, hread⟩ := orderOf?_eq_some h
  refine ⟨c, hc, ?_⟩
  rw [Handle.carryOut, hread]
  exact ho.order_eq

theorem Rejection.handleCommand_eq (h : Rejection s down name args) :
    (∃ r, handleCommand s name args = .done r ∧ r.code < 0) ∨
      ∃ k, handleCommand s name args = isAlive.bind k ∧
        ∀ alive, (down → alive = false) → ∃ r, k alive = .done r ∧ r.code < 0 := by
  -- a command that passes the look at the controller is refused afterwards
  have hpassed : ∀ {c : Command}, Command.ofName? name = some c →
      (¬ (c.requiresLink = true ∧ down) →
        ∃ r, Handle.carryOut s c args = .done r ∧ r.code < 0) →
      (∃ r, handleCommand s name args = .done r ∧ r.code < 0) ∨
        ∃ k, handleCommand s name args = isAlive.bind k ∧
          ∀ alive, (down → alive = false) → ∃ r, k alive = .done r ∧ r.code < 0 := by
    intro c hc hcarry
    rw [handleCommand_of_name hc]
    cases hlink : c.requiresLink with
    | false => exact .inl (hcarry fun h => by simp [hlink] at h)
    | true =>
      refine .inr ⟨_, rfl, fun alive halive => ?_⟩
      cases alive with
      | false => exact ⟨_, rfl, show Outcome.code .notRunning < 0 by decide⟩
      | true => exact hcarry fun h => nomatch halive h.2
  cases h with
  | unknown h =>
    have hnone : Command.ofName? name = none := by
      rw [Command.ofName?, List.find?_eq_none]
      exact fun c _ => by simpa using h c
    refine .inl ⟨.of .unsupported, ?_, show Outcome.code .unsupported < 0 by decide⟩
    rw [handleCommand, hnone]
    rfl
  | down hc hlink h =>
    subst hc
    exact hpassed (Command.ofName?_name _) fun hnot => absurd ⟨hlink, h⟩ hnot
  | arguments hc h =>
    subst hc
    refine hpassed (Command.ofName?_name _) fun _ => ?_
    rw [Handle.carryOut, h]
    exact ⟨_, rfl, show (-1 : Int32) < 0 by decide⟩
  | order h ho =>
    obtain ⟨c, hc, hcarry⟩ := carryOut_of_orderOf? h ho
    exact hpassed hc fun _ => hcarry

def Sees (down : Prop) (x : Exchange) : Prop :=
  ∀ c, x = ⟨.inside .cache, c⟩ → down → c.alive = false

theorem Rejection.confined (h : Rejection s down name args) :
    (handleCommand s name args).Confined (·.isLook = true) (Sees down) (·.code < 0) := by
  rcases h.handleCommand_eq with ⟨r, hr, hcode⟩ | ⟨k, hk, hdone⟩
  · rw [hr]
    exact hcode
  · have hlook : isAlive.Confined (·.isLook = true) (Sees down)
        fun alive => down → alive = false :=
      ⟨rfl, fun _ _ => ⟨rfl, fun c hc => ⟨rfl, fun _ _ => hc c rfl⟩⟩⟩
    rw [hk]
    refine hlook.bind fun alive halive => ?_
    obtain ⟨r, hr, hcode⟩ := hdone alive halive
    rw [hr]
    exact hcode

end

/-! ### Beside other tasks -/

namespace Crowd

theorem eq_looked_of_exchange? {i : TaskId} {e : Event χ} {x : Inside} {a : x.Answer}
    (h : e.exchange? i = some ⟨.inside x, a⟩) : e = .looked i x a := by
  obtain ⟨⟨i', y⟩, he, hy⟩ := Option.bind_eq_some_iff.1 h
  dsimp only at hy
  split at hy
  next hi =>
    cases hi
    cases hy
    cases e <;> cases he
    rfl
  next => cases hy

variable [DecidableEq ω] {R : Rules α σ χ ω ε} {s₀ s s' : Crowd α σ ω ε} {i : TaskId}
  {ms : List (Move α σ χ ω ε)} {j₀ : Job α}

theorem Step.eq_of_looked_cache {c : Cache} (h : Step R s (.looked i .cache c) s') :
    c = s.gateway.cache := by
  cases h with
  | looked => rfl

theorem Step.same_of_look {e : Event χ} (h : Step R s e s') (he : e.mover? = some i)
    (hlook : ∀ r k, s.jobAt i = some (.ask r k) → r.isLook = true) :
    s'.gateway = s.gateway ∧ s'.world = s.world := by
  cases h with
  | started | dropped | befell => cases he
  | took | queued | woke | gave => exact ⟨rfl, rfl⟩
  | @looked _ x k hi =>
    cases he
    have hr := hlook _ _ (jobAt_of_task hi)
    cases x with
    | cache => exact ⟨rfl, rfl⟩
    | _ => cases hr
  | asked hi | heard hi =>
    cases he
    have hr := hlook _ _ (jobAt_of_task hi)
    cases hr

theorem Trail.of_confined {K : Exchange → Prop} {p : α → Prop} (hj₀ : R.jobs i = some j₀)
    (hs₀ : s₀.Fresh) (hconf : j₀.Confined (·.isLook = true) K p) (h : Trail R s₀ ms s)
    (hK : ∀ x ∈ exchanges i (events ms), K x) :
    (∀ x ∈ ms, x.event.mover? = some i →
      x.after.gateway = x.before.gateway ∧ x.after.world = x.before.world) ∧
    asked i (events ms) = [] ∧ ∀ a, s.jobAt i = some (.done a) → p a := by
  have hstands := h.run.stands hj₀ (congrFun hs₀.tasks i)
  refine ⟨fun x hx hmover => ?_, ?_, fun a ha => ?_⟩
  · obtain ⟨ms₁, ms₂, rfl⟩ := List.append_of_mem hx
    obtain ⟨hbefore, hstep, -⟩ := h.at_move
    refine hstep.same_of_look hmover fun r k hr => ?_
    have hreach := (hbefore.run.stands hj₀ (congrFun hs₀.tasks i)).reaches hr
    have hsub : ∀ y ∈ exchanges i (events ms₁), K y := by
      intro y hy
      apply hK
      rw [events_append, exchanges, List.filterMap_append]
      exact List.mem_append_left _ hy
    exact (hreach.confined hconf hsub).1.1
  · cases hp : s.tasks i with
    | none =>
      rw [hp] at hstands
      exact hstands.eq_nil_of_absent.2
    | some q =>
      obtain ⟨q, j, hq, hreach, hasked⟩ := hstands.exists_place (by simp [hp])
      obtain ⟨hj, hlooks⟩ := hreach.confined hconf hK
      have hnone : Exchange.outsides (exchanges i (events ms)) = [] := by
        rw [Exchange.outsides, List.filterMap_eq_nil_iff]
        rintro ⟨r, b⟩ hx
        have hr := hlooks _ hx
        cases r with
        | outside => cases hr
        | _ => rfl
      rw [hasked, hnone]
      cases q with
      | away o k =>
        cases hq
        cases hj.1
      | _ => rfl
  · exact ((hstands.reaches ha).confined hconf hK).1

end Crowd

/-! ### In a turn -/

theorem Locks.set_eq_self (ls : Locks) (l : Lock) : ls.set l (ls l) = ls := by
  funext l'
  rw [Locks.set]
  split
  · next h => rw [h]
  · rfl

theorem Locks.set_set (ls : Locks) (l : Lock) (a b : LockState) :
    (ls.set l a).set l b = ls.set l b := by
  funext l'
  simp only [Locks.set]
  split <;> rfl

theorem advance_isAlive [DecidableEq ω] (floor : Floor σ δ ω ε) (me : TaskId) (left : Nat)
    (sh : Shared σ ω ε) (hfree : sh.locks .cache = {}) (k : Bool → Job α) :
    (isAlive.bind k).advance floor me (left + 1) sh =
      (k sh.gateway.cache.alive).advance floor me left sh := by
  have hacquire : sh.locks.acquire .cache me = (true, sh.locks.set .cache ⟨some me, []⟩) := by
    rw [Locks.acquire, hfree]
  have hrelease : (sh.locks.set .cache ⟨some me, []⟩).release .cache = (none, sh.locks) := by
    have hback : (sh.locks.set .cache ⟨some me, []⟩).set .cache {} = sh.locks := by
      rw [Locks.set_set, ← hfree, Locks.set_eq_self]
    rw [Locks.release, hback]
    rfl
  change (Job.ask (.acquire .cache) fun _ => Job.ask (.inside .cache) fun c =>
    Job.ask (.release .cache) fun _ => k c.alive).advance floor me (left + 1) sh = _
  simp only [Job.advance, hacquire, hrelease, if_true, Gateway.answer, Option.toList_none,
    List.append_nil]

theorem Rejection.advance_eq [DecidableEq ω] {s : Setup} {name : String} {args : Json}
    (floor : Floor σ δ ω ε) (me : TaskId) (left : Nat) (sh : Shared σ ω ε)
    (hfree : sh.locks .cache = {})
    (h : Rejection s (sh.gateway.cache.alive = false) name args) :
    ∃ r left', (handleCommand s name args).advance floor me (left + 1) sh =
      (.finished r, left', sh) ∧ r.code < 0 := by
  rcases h.handleCommand_eq with ⟨r, hr, hcode⟩ | ⟨k, hk, hdone⟩
  · rw [hr]
    exact ⟨r, left + 1, rfl, hcode⟩
  · obtain ⟨r, hr, hcode⟩ := hdone _ id
    rw [hk, advance_isAlive floor me left sh hfree, hr]
    exact ⟨r, left, rfl, hcode⟩

open Crowd Poll Console

section

variable [DecidableEq ω] {R : Rules Errand.Result σ χ ω ε} {errands : TaskId → Option Errand}
  {s₀ s : Crowd Errand.Result σ ω ε} {ms : List (Move Errand.Result σ χ ω ε)} {i : TaskId}
  {setup : Setup} {name : String} {args : Json}

/-- A request that is refused asks nothing of the controller or the files, and leaves the cache, the
observers, the number of the next event and the world outside as they are, whatever runs beside it;
its reply has a negative code. Alone it is answered in its first turn. A line that writes no request
is answered too, and those behind it are processed as if it had not been there. -/
theorem rejections_without_effect (hjobs : ∀ i, R.jobs i = (errands i).map Errand.answer)
    (hs₀ : s₀.Fresh) (h : Trail R s₀ ms s) (hi : errands i = some (.command setup name args))
    (hrej : Rejection setup (∀ x ∈ ms, ∀ c, x.event = .looked i .cache c →
      x.before.gateway.cache.alive = false) name args) :
    ((∀ x ∈ ms, x.event.mover? = some i →
        x.after.gateway = x.before.gateway ∧ x.after.world = x.before.world) ∧
      asked i (events ms) = [] ∧
      ∀ res, s.jobAt i = some (.done res) → ∃ r, res = .reply r ∧ r.code < 0) ∧
    (∀ (δ : Type) (floor : Floor σ δ ω ε) (me : TaskId) (left : Nat) (sh : Shared σ ω ε),
      sh.locks .cache = {} → Rejection setup (sh.gateway.cache.alive = false) name args →
        ∃ r left', (handleCommand setup name args).advance floor me (left + 1) sh =
          (.finished r, left', sh) ∧ r.code < 0) ∧
    ∀ (session : Session) (bad lines : List String), session.schedule.AtPrompt →
      (∀ line ∈ bad, Malformed line) →
        ∃ rs, rs.length = bad.length ∧ (∀ r ∈ rs, Reply.code r = -1) ∧
          session.replies (bad ++ lines) =
            rs ++ (session.afterIdleTasks bad.length).replies lines := by
  have hj₀ : R.jobs i = some (Errand.command setup name args).answer := by rw [hjobs, hi]; rfl
  have hconf : (Errand.command setup name args).answer.Confined (·.isLook = true) _
      fun res => ∃ r, res = .reply r ∧ r.code < 0 :=
    hrej.confined.bind fun r hr => ⟨r, rfl, hr⟩
  refine ⟨h.of_confined hj₀ hs₀ hconf ?_, fun δ floor me left sh hfree hrej => ?_,
    fun session bad lines hs hbad => Session.replies_malformed hs hbad lines⟩
  · rintro x hx c rfl hdown
    obtain ⟨e, he, hx⟩ := List.mem_filterMap.1 hx
    obtain ⟨y, hy, rfl⟩ := List.mem_map.1 he
    have hlooked := eq_looked_of_exchange? hx
    have hstep := h.step_of_mem hy
    rw [hlooked] at hstep
    rw [hstep.eq_of_looked_cache]
    exact hdown y hy c hlooked
  · exact hrej.advance_eq floor me left sh hfree

end

def outsider : Errand :=
  .command default "load_gcode" (.obj [("name", .str "../x"), ("content", .str "")])

def outsiders : Rules Errand.Result Unit Unit Empty Unit where
  jobs _ := some outsider.answer
  mayDrop _ := true
  observers := .nobody
  answer _ _ _ := none
  befall _ _ := none

theorem malformed_nonsense : Malformed "nonsense" := by
  have hline : content? "nonsense" = some "nonsense" := by decide +kernel
  have hread : (Request.read "nonsense").toOption.isSome = false := by decide +kernel
  cases h : Request.read "nonsense" with
  | ok r =>
    rw [h] at hread
    cases hread
  | error e => exact ⟨_, e, hline, h⟩

def startLine : String :=
  "\x7b\"command\": \"start_cnc\"\x7d"

/-- While the controller is up, the name of the program is what the request is refused for. Behind two
lines that write no request the controller is started, and then found running. -/
theorem rejections_without_effect_outside :
    ∃ es s, Run outsiders { gateway := { cache := ⟨true, none⟩, left := () }, world := () } es s ∧
      asked 0 es = [] ∧ (∃ r, s.jobAt 0 = some (.done (.reply r)) ∧ r.code < 0) ∧
      ∃ rs rs', rs.length = 2 ∧ (∀ r ∈ rs, Reply.code r = -1) ∧ rs'.map Reply.code = [0, -1] ∧
        (⟨default, Session.idle default {}⟩ : Session).replies (["nonsense", "nonsense"] ++
          [startLine, startLine]) = rs ++ rs' := by
  have hend : (play? outsiders [.start 0, .go 0 (), .go 0 (), .go 0 ()]
      ([], { gateway := { cache := ⟨true, none⟩, left := () }, world := () })).map
        (fun x => ((x.2.jobAt 0).bind Job.result?).isSome) = some true := by decide +kernel
  obtain ⟨⟨es, s⟩, hplay, hend⟩ := Option.map_eq_some_iff.1 hend
  have hrun := run_of_play? .nil hplay
  obtain ⟨ms, hms, rfl⟩ := hrun.exists_trail
  have hrefused : (Order.loadGcode "../x" "").Refused default := .program (by decide +kernel)
  have hjobs : ∀ i : TaskId, outsiders.jobs i = (some outsider).map Errand.answer := fun _ => rfl
  obtain ⟨⟨-, hasked, hreply⟩, -, hlines⟩ :=
    rejections_without_effect hjobs ⟨rfl, rfl⟩ hms rfl (.order rfl hrefused)
  obtain ⟨rs, hlength, hcode, hreplies⟩ := hlines ⟨default, Session.idle default {}⟩
    ["nonsense", "nonsense"] [startLine, startLine] (Session.atPrompt_idle default {})
    (by simp [malformed_nonsense])
  refine ⟨events ms, s, hrun, hasked, ?_, rs, _, hlength, hcode, by decide +kernel, hreplies⟩
  obtain ⟨res, hres⟩ := Option.isSome_iff_exists.1 hend
  obtain ⟨j, hjob, hj⟩ := Option.bind_eq_some_iff.1 hres
  obtain rfl := Job.result?_eq_some_iff.1 hj
  obtain ⟨r, rfl, hr⟩ := hreply res hjob
  exact ⟨r, hjob, hr⟩

end MillGateway
