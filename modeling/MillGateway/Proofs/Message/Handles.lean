import MillGateway.Console.Session
import MillGateway.Proofs.Crowd.Play
import MillGateway.Proofs.Crowd.Section
import MillGateway.Proofs.Message.Channel

/-! The channels that are opened, read and given up while tasks come on side by side. Main
statement: the gateway opens a channel only when it keeps none, reads none but the one that was
opened last, and that one only until it fails or is given up. -/

namespace MillGateway

open Crowd Job Link
open Poll (Errand)

namespace Opening

def readsAt (errands : TaskId → Option Errand) (i : TaskId) : Bool :=
  ((errands i).map Errand.isReader).getD false

def startOf (errands : TaskId → Option Errand) (i : TaskId) : Phase :=
  ⟨readsAt errands i, .apart⟩

def change? (errands : TaskId → Option Errand) (e : Crowd.Event χ) : Option Change :=
  e.answered?.bind fun x => changeOf (readsAt errands x.1) x.2.1 x.2.2

def changes (errands : TaskId → Option Errand) (es : List (Crowd.Event χ)) : List Change :=
  es.filterMap (change? errands)

theorem changes_append (errands : TaskId → Option Errand) (es es' : List (Crowd.Event χ)) :
    changes errands (es ++ es') = changes errands es ++ changes errands es' :=
  List.filterMap_append

theorem changes_snoc (errands : TaskId → Option Errand) (es : List (Crowd.Event χ))
    (e : Crowd.Event χ) :
    changes errands (es ++ [e]) = changes errands es ++ (change? errands e).toList :=
  filterMap_snoc _ es e

theorem change?_of_answered {errands : TaskId → Option Errand} {e : Crowd.Event χ} {i : TaskId}
    {r : Request} {a : r.Answer} (he : e.answered? = some (i, ⟨r, a⟩)) :
    change? errands e = changeOf (readsAt errands i) r a := by
  rw [change?, he]
  rfl

section

variable [DecidableEq ω] {R : Rules Errand.Result σ χ ω ε} {s₀ s s' : Crowd Errand.Result σ ω ε}
  {e : Crowd.Event χ} {es : List (Crowd.Event χ)} {ms ms' : List (Move Errand.Result σ χ ω ε)}
  {errands : TaskId → Option Errand} {i : TaskId} {ph ph' : TaskId → Phase}

/-! ### What a step does to the channel -/

omit [DecidableEq ω] in
theorem keeps_of_errands (hjobs : ∀ i, R.jobs i = (errands i).map Errand.answer) (i : TaskId)
    (j : Job Errand.Result) (hj : R.jobs i = some j) : j.Keeps Turn Ends (startOf errands i) := by
  rw [hjobs] at hj
  obtain ⟨e, he, rfl⟩ := Option.map_eq_some_iff.1 hj
  rw [startOf, readsAt, he]
  exact keeps_answer e

theorem channel_of_unanswered (h : Step R s e s') (he : e.answered? = none) :
    s'.gateway.channel = s.gateway.channel := by
  cases h with
  | took | woke | gave | looked | heard => cases he
  | started | queued | asked | dropped | befell => rfl

theorem channel_of_answered {r : Request} {a : r.Answer} (h : Step R s e s')
    (he : e.answered? = some (i, ⟨r, a⟩)) :
    s'.gateway.channel = r.setting?.getD s.gateway.channel ∧
      ∀ c?, seen? r a = some c? → c? = s.gateway.channel := by
  cases h with
  | started | queued | asked | dropped | befell => cases he
  | took | woke | gave =>
    cases he
    exact ⟨rfl, nofun⟩
  | @heard i o k c a w hi ha =>
    cases he
    exact ⟨rfl, nofun⟩
  | @looked i x k hi =>
    cases he
    cases x with
    | channel =>
      refine ⟨rfl, fun c? hc => ?_⟩
      exact (Option.some.inj hc).symm
    | _ => exact ⟨rfl, nofun⟩

theorem suspended_cases {p : Place α} (h : p.isSuspended = true) :
    (∃ l k, p.job? = some (.ask (.acquire l) k)) ∨ ∃ o k, p.job? = some (.ask (.outside o) k) := by
  cases p with
  | ready j =>
    cases j with
    | done a => cases h
    | ask r k =>
      cases r with
      | acquire l => exact .inl ⟨l, k, rfl⟩
      | outside o => exact .inr ⟨o, k, rfl⟩
      | release | inside => cases h
  | queued l k => exact .inl ⟨l, k, rfl⟩
  | away o k => exact .inr ⟨o, k, rfl⟩
  | dropped => cases h

theorem found_of_dropped (hfollows : Follows Turn Ends (startOf errands) s ph)
    (h : Step R s (.dropped i) s') (hin : Inside (ph i)) : ∃ c?, (ph i).stage = .found c? := by
  cases h with
  | @dropped i p hi hp hmay =>
    generalize hph : ph i = q at hin
    rcases suspended_cases hp with ⟨l, k, hjob⟩ | ⟨o, k, hjob⟩
    · obtain ⟨_, hturn, -⟩ := hfollows.keeps i _ ((jobAt_of_task hi).trans hjob) ()
      rw [hph] at hturn
      cases hturn with
      | take | other => exact absurd rfl hin
    · obtain ⟨a⟩ := (Request.outside o).nonempty_answer
      obtain ⟨_, hturn, -⟩ := hfollows.keeps i _ ((jobAt_of_task hi).trans hjob) a
      rw [hph] at hturn
      cases hturn with
      | opens | poll => exact ⟨_, rfl⟩
      | other => exact absurd rfl hin

/-! ### The channel that is kept -/

/-- How the tasks stand, which channel the gateway keeps, and what has happened to the channel. -/
structure Kept (errands : TaskId → Option Errand) (s : Crowd Errand.Result σ ω ε)
    (ph : TaskId → Phase) (es : List (Crowd.Event χ)) : Prop where
  follows : Follows Turn Ends (startOf errands) s ph
  excludes : Excludes .channel Inside s ph
  paths : ∀ i, Protocol.Path Turn (startOf errands i) (exchanges i es) (ph i)
  agrees : ∀ i, Within Inside s ph i →
    (ph i).stage.Agrees s.gateway.channel (standing (changes errands es))
  free : (∀ i, ¬ Within Inside s ph i) → s.gateway.channel = standing (changes errands es)
  spaced : Spaced (changes errands es)

omit [DecidableEq ω] in
theorem Kept.reads_eq (h : Kept errands s ph es) (i : TaskId) :
    (ph i).reads = readsAt errands i := by
  have hreads {p q : Phase} {t : List Exchange} (hpath : Protocol.Path Turn p t q) :
      q.reads = p.reads := by
    induction hpath with
    | nil => rfl
    | snoc _ hturn ih => exact hturn.reads_eq.trans ih
  exact hreads (h.paths i)

theorem paths_snoc (hpaths : ∀ i, Protocol.Path Turn (startOf errands i) (exchanges i es) (ph i))
    (hadv : Advances Turn e ph ph') (i : TaskId) :
    Protocol.Path Turn (startOf errands i) (exchanges i (es ++ [e])) (ph' i) := by
  have hsnoc : exchanges i (es ++ [e]) = exchanges i es ++ (e.exchange? i).toList :=
    filterMap_snoc _ es e
  rw [hsnoc]
  cases he : e.answered? with
  | none =>
    rw [hadv.unanswered he, Event.exchange?_of_unanswered he, Option.toList_none, List.append_nil]
    exact hpaths i
  | some x =>
    obtain ⟨i', r, a⟩ := x
    obtain ⟨q, hq, rfl⟩ := hadv.answered he
    rw [Event.exchange?_of_answered he]
    by_cases hi : i' = i
    · subst hi
      rw [if_pos rfl, Function.update_self]
      exact (hpaths i').snoc hq
    · rw [if_neg hi, Option.toList_none, List.append_nil, Function.update_of_ne (Ne.symm hi)]
      exact hpaths i

theorem Kept.quiet (h : Kept errands s ph es) (hstep : Step R s e s') (he : e.answered? = none)
    (hfollows : Follows Turn Ends (startOf errands) s' ph)
    (hexcludes : Excludes .channel Inside s' ph)
    (hpaths : ∀ i, Protocol.Path Turn (startOf errands i) (exchanges i (es ++ [e])) (ph i)) :
    Kept errands s' ph (es ++ [e]) := by
  have hchanges : changes errands (es ++ [e]) = changes errands es := by
    rw [changes_snoc, change?, he, Option.bind_none, Option.toList_none, List.append_nil]
  have hinside : ∀ i, Within Inside s' ph i ↔ Within Inside s ph i ∧ e ≠ .dropped i := fun i =>
    hstep.inside_of_unanswered (fun i hi => hi rfl) h.follows he
  have hchannel := channel_of_unanswered hstep he
  refine ⟨hfollows, hexcludes, hpaths, fun i hi => ?_, fun hnone => ?_, ?_⟩
  · rw [hchannel, hchanges]
    exact h.agrees i ((hinside i).1 hi).1
  · rw [hchannel, hchanges]
    by_cases hout : ∀ i, ¬ Within Inside s ph i
    · exact h.free hout
    · obtain ⟨i, hi⟩ := not_forall_not.1 hout
      have hdropped : e = .dropped i := by
        by_contra hne
        exact hnone i ((hinside i).2 ⟨hi, hne⟩)
      subst hdropped
      obtain ⟨c?, hc⟩ := found_of_dropped h.follows hstep hi.2
      have hagrees := h.agrees i hi
      rw [hc] at hagrees
      exact hagrees.1.trans hagrees.2.symm
  · rw [hchanges]
    exact h.spaced

theorem Kept.away (h : Kept errands s ph es) (hstep : Step R s e s') {r : Request} {a : r.Answer}
    {q : Phase} (he : e.answered? = some (i, ⟨r, a⟩)) (hr : r.onChannel = false)
    (hsame : ¬ Inside (ph i) ∧ ¬ Inside q)
    (hfollows : Follows Turn Ends (startOf errands) s' (Function.update ph i q))
    (hexcludes : Excludes .channel Inside s' (Function.update ph i q))
    (hpaths : ∀ i', Protocol.Path Turn (startOf errands i') (exchanges i' (es ++ [e]))
      (Function.update ph i q i')) :
    Kept errands s' (Function.update ph i q) (es ++ [e]) := by
  have hchannel : s'.gateway.channel = s.gateway.channel := by
    rw [(channel_of_answered hstep he).1, Request.setting?_of_not_onChannel hr, Option.getD_none]
  have hchanges : changes errands (es ++ [e]) = changes errands es := by
    rw [changes_snoc, change?_of_answered he, changeOf_of_not_onChannel hr, Option.toList_none,
      List.append_nil]
  have hinside := (hstep.inside_of_answered Inside ph he q).keep (iff_of_false hsame.2 hsame.1)
  refine ⟨hfollows, hexcludes, hpaths, fun i' hi' => ?_, fun hnone => ?_, ?_⟩
  · have hne : i' ≠ i := by
      rintro rfl
      exact hsame.1 ((hinside i').1 hi').2
    rw [hchannel, hchanges, Function.update_of_ne hne]
    exact h.agrees i' ((hinside i').1 hi')
  · rw [hchannel, hchanges]
    exact h.free fun i' hi' => hnone i' ((hinside i').2 hi')
  · rw [hchanges]
    exact h.spaced

theorem Kept.turn (h : Kept errands s ph es) (hstep : Step R s e s') {r : Request} {a : r.Answer}
    {q : Phase} (he : e.answered? = some (i, ⟨r, a⟩)) (hturn : Turn (ph i) r a q)
    (hin : Inside (ph i) ∨ Inside q)
    (hfollows : Follows Turn Ends (startOf errands) s' (Function.update ph i q))
    (hexcludes : Excludes .channel Inside s' (Function.update ph i q))
    (hpaths : ∀ i', Protocol.Path Turn (startOf errands i') (exchanges i' (es ++ [e]))
      (Function.update ph i q i')) :
    Kept errands s' (Function.update ph i q) (es ++ [e]) := by
  obtain ⟨hchannel, hseen⟩ := channel_of_answered hstep he
  obtain ⟨hbefore, hafter, hothers⟩ := hstep.inside_of_answered Inside ph he q
  have halone : ∀ i', i' ≠ i → ¬ Within Inside s ph i' := by
    intro i' hne hi'
    rcases hin with hin | hin
    · exact hne (h.excludes.alone i' i hi' (hbefore.2 hin))
    · exact hne (hexcludes.alone i' i ((hothers i' hne).2 hi') (hafter.2 hin))
  have hagrees : (ph i).stage.Agrees s.gateway.channel (standing (changes errands es)) := by
    by_cases hi : Inside (ph i)
    · exact h.agrees i (hbefore.2 hi)
    · rw [not_not.1 hi]
      refine h.free fun i' hi' => ?_
      by_cases hne : i' = i
      · exact hi (hne ▸ hi'.2)
      · exact halone i' hne hi'
  have hchanges : changes errands (es ++ [e]) =
      changes errands es ++ (changeOf (ph i).reads r a).toList := by
    rw [changes_snoc, change?_of_answered he, h.reads_eq]
  have hnext := hturn.agrees hseen hagrees
  rw [← hchannel, ← hchanges] at hnext
  refine ⟨hfollows, hexcludes, hpaths, fun i' hi' => ?_, fun hnone => ?_, ?_⟩
  · have hne : i' = i := by
      by_contra hne
      exact halone i' hne ((hothers i' hne).1 hi')
    rw [hne, Function.update_self]
    exact hnext
  · have hout : q.stage = .apart := not_not.1 fun hq => hnone i (hafter.2 hq)
    rw [hout] at hnext
    exact hnext
  · rw [hchanges]
    cases hc : changeOf (ph i).reads r a with
    | none => simpa using h.spaced
    | some x =>
      refine h.spaced.snoc fun c hx => hturn.standing_of_opening hagrees (c := c) ?_
      rw [hc, hx]

theorem Kept.step (hjobs : ∀ i, R.jobs i = (errands i).map Errand.answer)
    (h : Kept errands s ph es) (hstep : Step R s e s') :
    ∃ ph', Kept errands s' ph' (es ++ [e]) := by
  have hstart : ∀ i, ¬ Inside (startOf errands i) := fun _ hi => hi rfl
  obtain ⟨ph', hadv, hfollows⟩ := h.follows.step (keeps_of_errands hjobs) hstep
  have hexcludes := guards_channel.step hstart h.follows h.excludes hstep hadv
  have hpaths := paths_snoc h.paths hadv
  refine ⟨ph', ?_⟩
  cases he : e.answered? with
  | none =>
    obtain rfl := hadv.unanswered he
    exact h.quiet hstep he hfollows hexcludes hpaths
  | some x =>
    obtain ⟨i, r, a⟩ := x
    obtain ⟨q, hturn, rfl⟩ := hadv.answered he
    by_cases hin : Inside (ph i) ∨ Inside q
    · exact h.turn hstep he hturn hin hfollows hexcludes hpaths
    · have hr : r.onChannel = false := by
        generalize ph i = p at hturn hin
        cases hturn with
        | take => exact absurd (.inr nofun) hin
        | other hr => exact hr
        | give hst => rcases hst with rfl | rfl <;> exact absurd (.inl nofun) hin
        | _ => exact absurd (.inl nofun) hin
      exact h.away hstep he hr (not_or.1 hin) hfollows hexcludes hpaths

theorem kept_of_trail (hjobs : ∀ i, R.jobs i = (errands i).map Errand.answer) (hs₀ : s₀.Fresh)
    (hchannel : s₀.gateway.channel = none) (h : Trail R s₀ ms s) :
    ∃ ph, Kept errands s ph (events ms) := by
  induction h with
  | nil =>
    refine ⟨startOf errands, hs₀.follows, hs₀.excludes, fun _ => .nil, ?_, fun _ => hchannel, .nil⟩
    rintro i ⟨⟨j, hj⟩, -⟩
    rw [hs₀.jobAt] at hj
    cases hj
  | snoc _ hstep ih =>
    obtain ⟨ph, hkept⟩ := ih
    rw [events_snoc]
    exact hkept.step hjobs hstep

/-! ### What is seen of the channel -/

def next : Option Link.ChannelId → Link.Call
  | none => .openChannel
  | some c => .pollChannel c

section

variable {c : Link.ChannelId}

omit [DecidableEq ω] in
theorem Kept.found (h : Kept errands s ph es) {o : Outside} {k : o.Answer → Job Errand.Result}
    (hjob : s.jobAt i = some (.ask (.outside o) k)) (hr : (Request.outside o).onChannel = true) :
    ∃ c?, ph i = ⟨true, .found c?⟩ ∧ o = .link (next c?) ∧ s.gateway.channel = c? ∧
      standing (changes errands es) = c? := by
  obtain ⟨a⟩ := (Request.outside o).nonempty_answer
  obtain ⟨_, hturn, -⟩ := h.follows.keeps i _ hjob a
  have hagrees := fun hin => h.agrees i ⟨⟨_, hjob⟩, hin⟩
  generalize ph i = p at hturn hagrees
  cases hturn with
  | opens => exact ⟨none, rfl, rfl, hagrees nofun⟩
  | @poll c => exact ⟨some c, rfl, rfl, hagrees nofun⟩
  | other hno =>
    rw [hr] at hno
    cases hno

omit [DecidableEq ω] in
theorem Kept.of_open (h : Kept errands s ph es) {k}
    (hjob : s.jobAt i = some (.ask (.outside (.link .openChannel)) k)) :
    s.gateway.channel = none ∧ (exchanges i es).getLast? = some ⟨.inside .channel, none⟩ := by
  obtain ⟨c?, hph, ho, hkept, -⟩ := h.found hjob rfl
  obtain rfl : c? = none := by
    cases c? with
    | none => rfl
    | some c => cases ho
  have hpath := h.paths i
  rw [hph] at hpath
  exact ⟨hkept, looked_of_path hpath⟩

omit [DecidableEq ω] in
theorem Kept.of_poll (h : Kept errands s ph es) {k}
    (hjob : s.jobAt i = some (.ask (.outside (.link (.pollChannel c))) k)) :
    s.gateway.channel = some c ∧ (changes errands es).getLast? = some (.opened c) := by
  obtain ⟨c?, -, ho, hkept, hstands⟩ := h.found hjob rfl
  obtain rfl : c? = some c := by
    cases c? <;> cases ho
    rfl
  exact ⟨hkept, standing_eq_some_iff.1 hstands⟩

omit [DecidableEq ω] in
theorem Kept.of_store (h : Kept errands s ph es) {k}
    (hjob : s.jobAt i = some (.ask (.inside (.setChannel (some c))) k)) :
    s.gateway.channel = none ∧ (changes errands es).getLast? = some (.opened c) := by
  obtain ⟨_, hturn, -⟩ := h.follows.keeps i _ hjob ()
  have hagrees := fun hin => h.agrees i ⟨⟨_, hjob⟩, hin⟩
  generalize ph i = p at hturn hagrees
  cases hturn with
  | store =>
    obtain ⟨hkept, hstands⟩ := hagrees nofun
    exact ⟨hkept, standing_eq_some_iff.1 hstands⟩
  | other hno => cases hno

end

/-- Whether the channel is lost in a move: a reading of it fails, or a task that has given it up
comes to its end. -/
inductive Loses (errands : TaskId → Option Errand) : Move Errand.Result σ χ ω ε → Prop
  | failed {s s' i c ch e} :
      Loses errands ⟨s, .heard i (.link (.pollChannel c)) ch (.error e), s'⟩
  | gaveUp {x i e res} (he : errands i = some e) (hmover : x.event.mover? = some i)
      (hres : x.after.tasks i = some (.ready (.done res))) (hgives : GivesUp e res) :
      Loses errands x

theorem exchange_of_done {res : Errand.Result} (h : Step R s e s') (he : e.mover? = some i)
    (hi : s'.tasks i = some (.ready (.done res))) : ∃ x, e.answered? = some (i, x) := by
  cases h with
  | started | dropped | befell => cases he
  | queued | asked =>
    cases he
    simp [put] at hi
  | took | woke | gave | looked | heard =>
    cases he
    exact ⟨_, rfl⟩

theorem released_of_gaveUp (hjobs : ∀ i, R.jobs i = (errands i).map Errand.answer)
    (hs₀ : s₀.Fresh) {x : Move Errand.Result σ χ ω ε} (h : Trail R s₀ (ms ++ [x]) s)
    {e : Errand} {res : Errand.Result} (he : errands i = some e)
    (hmover : x.event.mover? = some i) (hres : x.after.tasks i = some (.ready (.done res)))
    (hgives : GivesUp e res) :
    x.event.answered? = some (i, ⟨.release .channel, ()⟩) ∧
      ∃ t, exchanges i (events ms) = t ++ [⟨.inside (.setChannel none), ()⟩] := by
  obtain ⟨y, hy⟩ := exchange_of_done h.at_move.2.1 hmover hres
  have hjob : R.jobs i = some e.answer := by
    rw [hjobs, he]
    rfl
  rw [h.after_last List.getLast?_concat] at hres
  have hreach := (h.run.stands hjob (congrFun hs₀.tasks i)).reaches (jobAt_of_task hres)
  obtain ⟨t, ht⟩ := resets_of_reaches hreach hgives
  have hlast : exchanges i [x.event] = [y] := by
    rw [exchanges, List.filterMap_cons, Event.exchange?_of_answered hy, if_pos rfl]
    rfl
  rw [events_snoc, exchanges_append, hlast] at ht
  obtain ⟨hbefore, hrelease⟩ := List.append_inj' ht rfl
  rw [hy, (List.cons.inj hrelease).1]
  exact ⟨rfl, t, hbefore⟩

theorem standing_of_loses (hjobs : ∀ i, R.jobs i = (errands i).map Errand.answer)
    (hs₀ : s₀.Fresh) (hchannel : s₀.gateway.channel = none) {x : Move Errand.Result σ χ ω ε}
    (h : Trail R s₀ (ms ++ [x]) s) (hx : Loses errands x) :
    standing (changes errands (events ms ++ [x.event])) = none := by
  rw [changes_snoc]
  cases hx with
  | failed =>
    rw [change?_of_answered rfl]
    exact standing_snoc _ .failed
  | @gaveUp _ i e res he hmover hres hgives =>
    obtain ⟨hanswered, t, ht⟩ := released_of_gaveUp hjobs hs₀ h he hmover hres hgives
    obtain ⟨hbefore, hstep, -⟩ := h.at_move
    obtain ⟨ph, hkept⟩ := kept_of_trail hjobs hs₀ hchannel hbefore
    obtain ⟨k, hk, -⟩ := hstep.of_answered hanswered
    have hstage : (ph i).stage = .cleared := by
      have hpath := hkept.paths i
      rw [ht] at hpath
      exact cleared_of_path hpath
    have hagrees := hkept.agrees i ⟨⟨_, hk⟩, by rw [Inside, hstage]; nofun⟩
    rw [hstage] at hagrees
    rw [change?_of_answered hanswered]
    exact (congrArg standing (List.append_nil _)).trans hagrees.2

def Reads (i : TaskId) (c : Link.ChannelId) (e : Crowd.Event χ) : Prop :=
  e = .asked i (.link (.pollChannel c)) ∨ ∃ ch a, e = .heard i (.link (.pollChannel c)) ch a

theorem job_of_reads {c : Link.ChannelId} (h : Step R s e s') (he : Reads i c e) :
    ∃ k, s.jobAt i = some (.ask (.outside (.link (.pollChannel c))) k) := by
  rcases he with rfl | ⟨ch, a, rfl⟩
  · obtain ⟨k, hi⟩ := h.task_of_asked
    exact ⟨k, jobAt_of_task hi⟩
  · obtain ⟨k, hk, -⟩ := h.of_answered rfl
    exact ⟨k, hk⟩

theorem opened_since (hjobs : ∀ i, R.jobs i = (errands i).map Errand.answer) (hs₀ : s₀.Fresh)
    (hchannel : s₀.gateway.channel = none) {x y : Move Errand.Result σ χ ω ε}
    {us vs : List (Move Errand.Result σ χ ω ε)} {c : Link.ChannelId}
    (h : Trail R s₀ (ms ++ x :: (us ++ y :: vs)) s) (hx : Loses errands x)
    (hy : Reads i c y.event) : (changes errands (events us)).getLast? = some (.opened c) := by
  have hsplit : ms ++ x :: (us ++ y :: vs) = (ms ++ [x]) ++ (us ++ y :: vs) := by simp
  rw [hsplit] at h
  obtain ⟨_, hlost, -⟩ := h.split
  have hnone := standing_of_loses hjobs hs₀ hchannel hlost hx
  rw [← List.append_assoc] at h
  obtain ⟨hbefore, hstep, -⟩ := h.at_move
  obtain ⟨ph, hkept⟩ := kept_of_trail hjobs hs₀ hchannel hbefore
  obtain ⟨k, hk⟩ := job_of_reads hstep hy
  have hlast := (hkept.of_poll hk).2
  rw [events_append, events_snoc, changes_append, List.getLast?_append] at hlast
  cases hus : (changes errands (events us)).getLast? with
  | some z =>
    rw [hus] at hlast
    exact hlast
  | none =>
    rw [hus] at hlast
    rw [standing_eq_some_iff.2 hlast] at hnone
    cases hnone

/-- However the tasks of the gateway come on side by side, and whatever comes of the channel: it is
opened only by a task that has just found none, and kept only where none is; no two openings come
without a failed reading or a reset between them; and what is read is the channel that was opened
last, and after a reading that failed, or a reset or a start that has come to its end, one that was
opened since. If no channel comes of two openings, none is read again once it was lost. -/
theorem channels_one_by_one (hjobs : ∀ i, R.jobs i = (errands i).map Errand.answer)
    (hs₀ : s₀.Fresh) (hchannel : s₀.gateway.channel = none) (h : Trail R s₀ ms s) :
    (∀ ms₁ x ms₂ i, ms = ms₁ ++ x :: ms₂ →
      (x.event = .asked i (.link .openChannel) → x.before.gateway.channel = none ∧
        (exchanges i (events ms₁)).getLast? = some ⟨.inside .channel, none⟩) ∧
      (∀ c a, x.event = .looked i (.setChannel (some c)) a → x.before.gateway.channel = none ∧
        (changes errands (events ms₁)).getLast? = some (.opened c)) ∧
      ∀ c, Reads i c x.event → x.before.gateway.channel = some c ∧
        (changes errands (events ms₁)).getLast? = some (.opened c)) ∧
    Spaced (changes errands (events ms)) ∧
    (changes errands (events ms)).countP Change.isOpening ≤
      1 + (changes errands (events ms)).count .failed +
        (changes errands (events ms)).count .reset ∧
    ∀ ms₁ x us y vs i c, ms = ms₁ ++ x :: (us ++ y :: vs) → Loses errands x → Reads i c y.event →
      (changes errands (events us)).getLast? = some (.opened c) ∧
      (((changes errands (events ms)).filter Change.isOpening).Nodup →
        .opened c ∉ changes errands (events (ms₁ ++ [x]))) := by
  obtain ⟨ph, hkept⟩ := kept_of_trail hjobs hs₀ hchannel h
  refine ⟨?_, hkept.spaced, hkept.spaced.count_le, ?_⟩
  · rintro ms₁ x ms₂ i rfl
    obtain ⟨hbefore, hstep, -⟩ := h.at_move
    obtain ⟨ph, hkept⟩ := kept_of_trail hjobs hs₀ hchannel hbefore
    refine ⟨fun hx => ?_, fun c a hx => ?_, fun c hx => ?_⟩
    · rw [hx] at hstep
      obtain ⟨k, hi⟩ := hstep.task_of_asked
      exact hkept.of_open (jobAt_of_task hi)
    · rw [hx] at hstep
      obtain ⟨k, hk, -⟩ := hstep.of_answered rfl
      exact hkept.of_store hk
    · obtain ⟨k, hk⟩ := job_of_reads hstep hx
      exact hkept.of_poll hk
  · rintro ms₁ x us y vs i c rfl hx hy
    have hsince := opened_since hjobs hs₀ hchannel h hx hy
    refine ⟨hsince, fun hnodup hmem => ?_⟩
    have hopened : Change.opened c ∈ (changes errands (events us)).filter Change.isOpening :=
      List.mem_filter.2 ⟨List.mem_of_getLast? hsince, rfl⟩
    have hsplit : ms₁ ++ x :: (us ++ y :: vs) = (ms₁ ++ [x]) ++ (us ++ y :: vs) := by simp
    rw [hsplit, events_append, events_append us, changes_append, changes_append,
      List.filter_append, List.filter_append] at hnodup
    exact (List.nodup_append.1 hnodup).2.2 _ (List.mem_filter.2 ⟨hmem, rfl⟩) _
      (List.mem_append_left _ hopened) rfl

end

def numbered (errands : TaskId → Option Errand) : Rules Errand.Result Nat Bool Empty Unit where
  jobs i := (errands i).map Errand.answer
  mayDrop _ := true
  observers := .nobody
  answer
    | .link .pollStatus, ok, n => some (if ok then .ok default else .error .channelClosed, n)
    | .link .openChannel, _, n => some (.ok n, n + 1)
    | .link (.pollChannel _), ok, n => some (if ok then .ok none else .error .channelClosed, n)
    | .link .launch, _, n => some (.ok (), n)
    | .clock, _, n => some (0, n)
    | _, _, _ => none
  befall _ _ := none

def numberedStart : Crowd Errand.Result Nat Empty Unit where
  gateway := { cache := { alive := true }, left := () }
  world := 0

def visitors (i : TaskId) : Option Errand :=
  [.pollErrors, .pollErrors, .pollErrors, .command default "start_cnc" .null, .pollErrors][i]?

/-- A channel is opened, and fails; another one is opened, and its reader dropped; then the
controller is started. -/
def untilStarted : List (Choice Bool) :=
  .start 0 :: List.replicate 11 (.go 0 true) ++ .start 1 :: List.replicate 9 (.go 1 false) ++
    .start 2 :: List.replicate 9 (.go 2 true) ++ .drop 2 ::
    .start 3 :: List.replicate 7 (.go 3 false) ++ List.replicate 15 (.go 3 true)

def readAgain : List (Choice Bool) :=
  .start 4 :: List.replicate 9 (.go 4 true)

theorem channels_one_by_one_visitors :
    ∃ ms x us y s, Trail (numbered visitors) numberedStart (ms ++ x :: (us ++ [y])) s ∧
      Loses visitors x ∧ Reads 4 2 y.event ∧
      changes visitors (events (ms ++ [x])) = [.opened 0, .failed, .opened 1, .reset] ∧
      (changes visitors (events us)).getLast? = some (.opened 2) ∧
      y.before.gateway.channel = some 2 := by
  have hcomputed : ((trace? (numbered visitors) untilStarted numberedStart).bind fun x =>
      (trace? (numbered visitors) readAgain x.2).map fun y => (x, y)).map (fun z =>
        (changes visitors (events z.1.1), z.1.1.getLast?.map fun m => m.event.mover?)) =
      some ([.opened 0, .failed, .opened 1, .reset], some (some 3)) := by
    decide +kernel
  have hends : ((trace? (numbered visitors) untilStarted numberedStart).bind fun x =>
      (trace? (numbered visitors) readAgain x.2).map fun y => (x, y)).map (fun z =>
        (z.1.1.getLast?.map fun m => m.after.tasks 3, z.2.1.getLast?.map Move.event)) =
      some (some (some (.ready (.done (.reply (.of .ok))))),
        some (.asked 4 (.link (.pollChannel 2)))) := by
    rfl
  obtain ⟨⟨⟨before, t⟩, after, s⟩, htrace, hcomputed⟩ := Option.map_eq_some_iff.1 hcomputed
  rw [htrace] at hends
  obtain ⟨⟨before, t⟩, hfirst, hsecond⟩ := Option.bind_eq_some_iff.1 htrace
  obtain ⟨⟨after, s⟩, hsecond, hpair⟩ := Option.map_eq_some_iff.1 hsecond
  cases hpair
  obtain ⟨hchanges, hmover⟩ := Prod.mk.inj hcomputed
  obtain ⟨hdone, hread⟩ := Prod.mk.inj (Option.some.inj hends)
  obtain ⟨x, hx, hstart⟩ := Option.map_eq_some_iff.1 hmover
  obtain ⟨y, hy, hreader⟩ := Option.map_eq_some_iff.1 hread
  obtain ⟨ms, rfl⟩ := List.getLast?_eq_some_iff.1 hx
  obtain ⟨us, rfl⟩ := List.getLast?_eq_some_iff.1 hy
  rw [hx] at hdone
  have htrail := trail_of_trace? (trail_of_trace? .nil hfirst) hsecond
  have hsplit : [] ++ (ms ++ [x]) ++ (us ++ [y]) = ms ++ x :: (us ++ [y]) := by simp
  rw [hsplit] at htrail
  have hloses : Loses visitors x :=
    .gaveUp rfl hstart (Option.some.inj hdone) (.inr ⟨⟨_, _, rfl⟩, rfl⟩)
  have hreads : Reads 4 2 y.event := .inl hreader
  obtain ⟨hmoves, -, -, hsince⟩ :=
    channels_one_by_one (fun _ => rfl) (⟨rfl, rfl⟩ : numberedStart.Fresh) rfl htrail
  refine ⟨ms, x, us, y, s, htrail, hloses, hreads, hchanges,
    (hsince ms x us y [] 4 2 rfl hloses hreads).1, ?_⟩
  exact ((hmoves (ms ++ x :: us) y [] 4 (by simp)).2.2 2 hreads).1

end Opening

end MillGateway
