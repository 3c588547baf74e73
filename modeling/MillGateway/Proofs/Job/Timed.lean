import MillGateway.Proofs.Job.Walk

/-! Jobs and time. The link answers each call after a while of its own choice, or never; every other
wait of a job is over sooner or later. Main statement: every job comes to its end, unless it comes to
a call on the link that is never answered. -/

namespace MillGateway

/-- How long a call takes after such calls, and what it answers. There is nothing for a call that is
never answered. -/
abbrev Link.Behaviour := List Link.Call → (c : Link.Call) → Option (Nat × c.Answer)

def Request.call? : Request → Option Link.Call
  | .outside (.link c) => some c
  | .outside (.waitWithin h limit) => some (.wait h limit)
  | _ => none

structure TimedExchange where
  exchange : Exchange
  asked : Nat
  answered : Nat

namespace TimedExchange

def calls (xs : List TimedExchange) : List Link.Call :=
  xs.filterMap fun x => x.exchange.1.call?

theorem calls_eq (xs : List TimedExchange) :
    calls xs = (xs.map (·.exchange)).filterMap (·.1.call?) := by
  rw [List.filterMap_map]
  rfl

theorem calls_append (xs ys : List TimedExchange) : calls (xs ++ ys) = calls xs ++ calls ys :=
  List.filterMap_append

theorem calls_cons (x : TimedExchange) (xs : List TimedExchange) :
    calls (x :: xs) = x.exchange.1.call?.toList ++ calls xs := by
  rw [calls, List.filterMap_cons]
  cases x.exchange.1.call? <;> rfl

end TimedExchange

namespace Link.Behaviour

/-- Whether a request that is made after such calls may be answered like this at that time. A wait
with a limit has the answer that comes within the limit, and is given up when there is none; at the
limit itself it may go either way. Locks and files may take any time. -/
def Fits (L : Link.Behaviour) (made : List Link.Call) (asked : Nat) :
    (r : Request) → r.Answer → (answered : Nat) → Prop
  | .outside (.link c), a, answered => ∃ d, L made c = some (d, a) ∧ answered = asked + d
  | .outside (.waitWithin h limit), some a, answered =>
    ∃ d ≤ limit, L made (.wait h limit) = some (d, a) ∧ answered = asked + d
  | .outside (.waitWithin h limit), none, answered =>
    (∀ d a, L made (.wait h limit) = some (d, a) → limit ≤ d) ∧ answered = asked + limit
  | .outside (.sleep ms), _, answered => asked + ms ≤ answered
  | .outside .clock, now, answered => now = asked ∧ answered = asked
  | .outside .localTime, _, answered => answered = asked
  | .outside (.readText _), _, answered | .outside (.writeText _ _), _, answered
  | .outside (.appendText _ _), _, answered | .acquire _, _, answered => asked ≤ answered
  | .release _, _, answered | .inside _, _, answered => answered = asked

variable {L L' : Link.Behaviour} {made : List Link.Call} {asked answered : Nat}

theorem Fits.asked_le {r : Request} {a : r.Answer} (h : L.Fits made asked r a answered) :
    asked ≤ answered := by
  cases r with
  | outside o =>
    cases o with
    | link c => obtain ⟨d, -, rfl⟩ := h; exact Nat.le_add_right _ _
    | waitWithin h' limit =>
      cases a with
      | none => obtain ⟨-, rfl⟩ := h; exact Nat.le_add_right _ _
      | some x => obtain ⟨d, -, -, rfl⟩ := h; exact Nat.le_add_right _ _
    | sleep ms => exact Nat.le_of_add_right_le h
    | clock => exact Nat.le_of_eq h.2.symm
    | localTime => exact Nat.le_of_eq (Eq.symm h)
    | _ => exact h
  | acquire => exact h
  | _ => exact Nat.le_of_eq (Eq.symm h)

theorem Fits.le_limit {h : Handle} {limit : Nat} {x? : Option (Except Error Completion)}
    (hfits : L.Fits made asked (.outside (.waitWithin h limit)) x? answered) :
    answered ≤ asked + limit := by
  cases x? with
  | none => exact Nat.le_of_eq hfits.2
  | some x =>
    obtain ⟨d, hd, -, rfl⟩ := hfits
    exact Nat.add_le_add_left hd asked

theorem Fits.congr {r : Request} {a : r.Answer} (h : L.Fits made asked r a answered)
    (hL : ∀ c, r.call? = some c → L' made c = L made c) : L'.Fits made asked r a answered := by
  cases r with
  | outside o =>
    cases o with
    | link c => simpa only [Fits, hL c rfl] using h
    | waitWithin h' limit => cases a <;> simpa only [Fits, hL (.wait h' limit) rfl] using h
    | _ => exact h
  | _ => exact h

theorem exists_fits_or (L : Link.Behaviour) (made : List Link.Call) (asked : Nat) (r : Request) :
    (∃ a answered, L.Fits made asked r a answered) ∨
      ∃ c, r = .outside (.link c) ∧ L made c = none := by
  cases r with
  | outside o =>
    cases o with
    | link c =>
      cases hc : L made c with
      | none => exact .inr ⟨c, rfl, hc⟩
      | some x => exact .inl ⟨x.2, _, x.1, hc, rfl⟩
    | waitWithin h limit =>
      left
      cases hwait : L made (.wait h limit) with
      | none =>
        refine ⟨none, _, fun d a hd => ?_, rfl⟩
        cases hwait.symm.trans hd
      | some x =>
        by_cases hx : x.1 ≤ limit
        · exact ⟨some x.2, _, x.1, hx, hwait, rfl⟩
        · refine ⟨none, _, fun d a hd => ?_, rfl⟩
          cases hwait.symm.trans hd
          exact Nat.le_of_not_le hx
    | sleep ms => exact .inl ⟨(), _, Nat.le_refl _⟩
    | clock => exact .inl ⟨asked, _, rfl, rfl⟩
    | localTime => exact .inl ⟨"", _, rfl⟩
    | readText p => exact .inl ⟨.error .notFound, _, Nat.le_refl asked⟩
    | writeText p s => exact .inl ⟨.error .notFound, _, Nat.le_refl asked⟩
    | appendText p s => exact .inl ⟨.error .notFound, _, Nat.le_refl asked⟩
  | acquire l => exact .inl ⟨(), _, Nat.le_refl asked⟩
  | release l => exact .inl ⟨(), _, rfl⟩
  | inside i =>
    obtain ⟨a⟩ := (Request.inside i).nonempty_answer
    exact .inl ⟨a, _, rfl⟩

end Link.Behaviour

namespace Job

/-- What is left of a job that began at a time after such calls, when these exchanges have brought it
to a later time. -/
inductive Runs (L : Link.Behaviour) :
    List Link.Call → Nat → Job α → List TimedExchange → Nat → Job α → Prop
  | refl (made : List Link.Call) (now : Nat) (j : Job α) : Runs L made now j [] now j
  | cons {made : List Link.Call} {start stop answered : Nat} {r : Request} {k : r.Answer → Job α}
      {a : r.Answer} {xs : List TimedExchange} {j : Job α} (h : L.Fits made start r a answered)
      (hrest : Runs L (made ++ r.call?.toList) answered (k a) xs stop j) :
      Runs L made start (.ask r k) (⟨⟨r, a⟩, start, answered⟩ :: xs) stop j

section

variable {L L' : Link.Behaviour} {made : List Link.Call} {start stop : Nat} {j j' : Job α}
  {xs : List TimedExchange}

theorem Runs.reaches (h : Runs L made start j xs stop j') :
    Reaches j (xs.map TimedExchange.exchange) j' := by
  induction h with
  | refl => exact .refl _
  | cons _ _ ih => exact ih.cons _

theorem Runs.start_le (h : Runs L made start j xs stop j') : start ≤ stop := by
  induction h with
  | refl => exact Nat.le_refl _
  | cons h _ ih => exact Nat.le_trans h.asked_le ih

theorem Runs.congr (h : Runs L made start j xs stop j')
    (hL : ∀ cs, made <+: cs → L' cs = L cs) : Runs L' made start j xs stop j' := by
  induction h with
  | refl => exact .refl _ _ _
  | cons h _ ih =>
    exact .cons (h.congr fun c _ => congrFun (hL _ (List.prefix_refl _)) c)
      (ih fun cs hcs => hL cs ((List.prefix_append _ _).trans hcs))

theorem Runs.snoc {r : Request} {k : r.Answer → Job α} (h : Runs L made start j xs stop (.ask r k))
    {a : r.Answer} {answered : Nat}
    (hfits : L.Fits (made ++ TimedExchange.calls xs) stop r a answered) :
    Runs L made start j (xs ++ [⟨⟨r, a⟩, stop, answered⟩]) answered (k a) := by
  generalize hj : Job.ask r k = j' at h
  induction h with
  | refl =>
    cases hj
    rw [TimedExchange.calls, List.filterMap_nil, List.append_nil] at hfits
    exact .cons hfits (.refl _ _ _)
  | cons h _ ih =>
    rw [TimedExchange.calls_cons, ← List.append_assoc] at hfits
    exact .cons h (ih hfits hj)

theorem Runs.bind {k : α → Job β} {j' : Job β} {a : α} {now : Nat} {ys : List TimedExchange}
    (hj : Runs L made start j xs now (.done a))
    (hk : Runs L (made ++ TimedExchange.calls xs) now (k a) ys stop j') :
    Runs L made start (j.bind k) (xs ++ ys) stop j' := by
  generalize hdone : Job.done a = j₁ at hj
  induction hj with
  | refl =>
    cases hdone
    rwa [TimedExchange.calls, List.filterMap_nil, List.append_nil] at hk
  | cons hfits _ ih =>
    rw [TimedExchange.calls_cons, ← List.append_assoc] at hk
    exact .cons hfits (ih hk hdone)

theorem Runs.goes_on {r : Request} {k : r.Answer → Job α}
    (h : Runs L made start j xs stop (.ask r k)) :
    (∃ a answered, Runs L made start j (xs ++ [⟨⟨r, a⟩, stop, answered⟩]) answered (k a)) ∨
      ∃ c, r = .outside (.link c) ∧ L (made ++ TimedExchange.calls xs) c = none := by
  rcases L.exists_fits_or (made ++ TimedExchange.calls xs) stop r with ⟨a, answered, hfits⟩ | hnone
  · exact .inl ⟨a, answered, h.snoc hfits⟩
  · exact .inr hnone

theorem Runs.exists_end (h : Runs L made start j xs stop j') :
    ∃ ys stop', (∃ a, Runs L made start j (xs ++ ys) stop' (.done a)) ∨
      ∃ c k, Runs L made start j (xs ++ ys) stop' (.ask (.outside (.link c)) k) ∧
        L (made ++ TimedExchange.calls (xs ++ ys)) c = none := by
  induction j' generalizing xs stop with
  | done a => exact ⟨[], stop, .inl ⟨a, by rwa [List.append_nil]⟩⟩
  | ask r k ih =>
    rcases h.goes_on with ⟨a, answered, hmore⟩ | ⟨c, rfl, hnone⟩
    · obtain ⟨ys, stop', hend⟩ := ih a hmore
      rw [List.append_assoc] at hend
      exact ⟨_, stop', hend⟩
    · exact ⟨[], stop, .inr ⟨c, k, by rwa [List.append_nil], by rwa [List.append_nil]⟩⟩

theorem Runs.done_cases {a : α} (h : Runs L made start (.done a) xs stop j') :
    xs = [] ∧ stop = start ∧ j' = .done a := by
  cases h
  exact ⟨rfl, rfl, rfl⟩

theorem Runs.first_cases {r : Request} {k : r.Answer → Job α}
    (h : Runs L made start (.ask r k) xs stop j') :
    xs = [] ∧ j' = .ask r k ∨
      ∃ a answered xs', xs = ⟨⟨r, a⟩, start, answered⟩ :: xs' ∧ L.Fits made start r a answered ∧
        Runs L (made ++ r.call?.toList) answered (k a) xs' stop j' := by
  cases h with
  | refl => exact .inl ⟨rfl, rfl⟩
  | cons hfits hrest => exact .inr ⟨_, _, _, rfl, hfits, hrest⟩

theorem Runs.ask_cases {r : Request} {k : r.Answer → Job α} {b : α}
    (h : Runs L made start (.ask r k) xs stop (.done b)) :
    ∃ a answered xs', xs = ⟨⟨r, a⟩, start, answered⟩ :: xs' ∧ L.Fits made start r a answered ∧
      Runs L (made ++ r.call?.toList) answered (k a) xs' stop (.done b) := by
  rcases h.first_cases with ⟨-, hdone⟩ | hfirst
  · cases hdone
  · exact hfirst

theorem Runs.bind_cases {k : α → Job β} {b : β}
    (h : Runs L made start (j.bind k) xs stop (.done b)) :
    ∃ xs₁ now a xs₂, xs = xs₁ ++ xs₂ ∧ Runs L made start j xs₁ now (.done a) ∧
      Runs L (made ++ TimedExchange.calls xs₁) now (k a) xs₂ stop (.done b) := by
  induction j generalizing made start xs with
  | done a =>
    refine ⟨[], start, a, xs, rfl, .refl _ _ _, ?_⟩
    rwa [TimedExchange.calls, List.filterMap_nil, List.append_nil]
  | ask r k' ih =>
    obtain ⟨c, answered, xs', rfl, hfits, hrest⟩ := Runs.ask_cases h
    obtain ⟨xs₁, now, a, xs₂, rfl, hj, hk⟩ := ih c hrest
    rw [List.append_assoc] at hk
    refine ⟨_, now, a, xs₂, rfl, .cons hfits hj, ?_⟩
    rwa [TimedExchange.calls_cons]

theorem not_endless (L : Link.Behaviour) (made : List Link.Call) (start : Nat) (j : Job α)
    (f : Nat → TimedExchange) :
    ∃ n, ∀ now j', ¬ Runs L made start j ((List.range n).map f) now j' := by
  induction j generalizing made start f with
  | done a =>
    refine ⟨1, fun now j' h => ?_⟩
    cases h.done_cases.1
  | ask r k ih =>
    by_cases hfirst : ∃ a answered, f 0 = ⟨⟨r, a⟩, start, answered⟩
    · obtain ⟨a, answered, hzero⟩ := hfirst
      obtain ⟨n, hn⟩ := ih a (made ++ r.call?.toList) answered (f ∘ Nat.succ)
      refine ⟨n + 1, fun now j' h => ?_⟩
      rw [List.range_succ_eq_map, List.map_cons, List.map_map, hzero] at h
      rcases h.first_cases with ⟨hnil, -⟩ | ⟨_, _, _, hxs, -, hrest⟩
      · cases hnil
      · cases hxs
        exact hn now j' hrest
    · refine ⟨1, fun now j' h => ?_⟩
      rcases h.first_cases with ⟨hnil, -⟩ | ⟨a, answered, _, hxs, -, -⟩
      · cases hnil
      · exact hfirst ⟨a, answered, (List.cons.inj hxs).1⟩

end

end Job

end MillGateway
