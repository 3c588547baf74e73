import Mathlib.Data.List.Nodup
import MillGateway.Proofs.Command.Attempts
import MillGateway.Proofs.Command.Rejection

/-! Homing all axes, one after the other. Each axis is tried once every axis before it has been homed;
the first that is not ends it. Main statement: how far homing has come after any exchanges, and what
it replies. -/

namespace MillGateway

open Machine

theorem Outcome.eq_ok_of_isOk {o : Outcome} (h : o.isOk = true) : o = .ok := by
  cases o with
  | ok => rfl
  | toolTable e =>
    have hcode : e.code = 0 := by simpa [isOk, ResultView.isOk, view, code] using h
    have hneg := e.code_neg
    rw [hcode] at hneg
    exact absurd hneg (by decide)
  | _ => cases h

theorem issued_outsides_append (t t' : List Exchange) :
    issued (Exchange.outsides (t ++ t')) =
      issued (Exchange.outsides t) ++ issued (Exchange.outsides t') := by
  rw [issued, Exchange.outsides, List.filterMap_append, List.filterMap_append]
  rfl

namespace Job

variable {a : Link.Action} {limit : Nat} {t : List Exchange} {o : Outcome}

theorem issued_of_execute (h : (execute a limit).Reaches t (.done o)) :
    (o = .notRunning → issued (Exchange.outsides t) = []) ∧
      (o ≠ .notRunning → issued (Exchange.outsides t) = [a]) := by
  obtain ⟨_, ⟨alive, rfl⟩, htraced⟩ := attempts_execute a limit t o h
  have hskipped := htraced.skipped _ List.mem_cons_self
  have hissued := htraced.issued
  cases alive with
  | true => exact ⟨fun ho => (nomatch hskipped.1 ho), fun _ => hissued⟩
  | false => exact ⟨fun _ => hissued, fun ho => absurd (hskipped.2 rfl) ho⟩

theorem issued_of_execute_ok (h : (execute a limit).Reaches t (.done .ok)) :
    issued (Exchange.outsides t) = [a] :=
  (issued_of_execute h).2 nofun

theorem issued_of_execute_cases {j : Job Outcome} (h : (execute a limit).Reaches t j) :
    issued (Exchange.outsides t) = [] ∨ issued (Exchange.outsides t) = [a] := by
  obtain ⟨t', o, hend⟩ := h.exists_end
  obtain ⟨_, ⟨alive, rfl⟩, htraced⟩ := attempts_execute a limit _ o hend
  have hissued := htraced.issued
  rw [issued_outsides_append] at hissued
  cases alive with
  | true =>
    rcases List.append_eq_singleton_iff.1 hissued with ⟨hnone, -⟩ | ⟨hone, -⟩
    · exact .inl hnone
    · exact .inr hone
  | false => exact .inl (List.append_eq_nil_iff.1 hissued).1

end Job

namespace Handle

open Job

def firstAxes (n : Nat) : List UInt32 :=
  (List.range n).map UInt32.ofNat

theorem axisNumbers_eq {n : Nat} (h : n < UInt32.size) : axisNumbers n = firstAxes n := by
  rw [axisNumbers, Nat.mod_eq_of_lt h, firstAxes]

inductive Homes : List UInt32 → List Exchange → Prop
  | nil : Homes [] []
  | cons {axis : UInt32} {axes : List UInt32} {t t' : List Exchange}
      (h : (execute (.home axis) Timing.home).Reaches t (.done .ok)) (hrest : Homes axes t') :
      Homes (axis :: axes) (t ++ t')

theorem Homes.issued {axes : List UInt32} {t : List Exchange} (h : Homes axes t) :
    issued (Exchange.outsides t) = axes.map .home := by
  induction h with
  | nil => rfl
  | cons h _ ih => rw [issued_outsides_append, issued_of_execute_ok h, ih, List.map_cons,
      List.singleton_append]

theorem reaches_homeEach {axes : List UInt32} {t : List Exchange} {j : Job Outcome}
    (h : (homeEach axes).Reaches t j) :
    (Homes axes t ∧ j = .done .ok) ∨
      ∃ done axis rest t₁ t₂ j', axes = done ++ axis :: rest ∧ t = t₁ ++ t₂ ∧ Homes done t₁ ∧
        (execute (.home axis) Timing.home).Reaches t₂ j' ∧
        ∀ o, j = .done o → j' = .done o ∧ o.isOk = false := by
  induction axes generalizing t with
  | nil =>
    obtain ⟨rfl, rfl⟩ := Reaches.done_cases h
    exact .inl ⟨.nil, rfl⟩
  | cons axis axes ih =>
    rcases Reaches.bind_split h with ⟨r, k, hask, rfl⟩ | ⟨t₁, o, t₂, rfl, hdone, hrest⟩
    · exact .inr ⟨[], axis, axes, [], t, _, rfl, rfl, .nil, hask, nofun⟩
    cases ho : o.isOk with
    | false =>
      simp only [ho, Bool.false_eq_true, if_false] at hrest
      obtain ⟨rfl, rfl⟩ := Reaches.done_cases hrest
      refine .inr ⟨[], axis, axes, [], t₁, _, rfl, List.append_nil t₁, .nil, hdone, ?_⟩
      rintro _ hsame
      cases hsame
      exact ⟨rfl, ho⟩
    | true =>
      simp only [ho, if_true] at hrest
      obtain rfl := Outcome.eq_ok_of_isOk ho
      rcases ih hrest with ⟨hhomes, rfl⟩ |
        ⟨done, next, rest, u₁, u₂, j', rfl, rfl, hhomes, hnext, hj'⟩
      · exact .inl ⟨.cons hdone hhomes, rfl⟩
      · exact .inr ⟨axis :: done, next, rest, t₁ ++ u₁, u₂, j', rfl, (List.append_assoc ..).symm,
          .cons hdone hhomes, hnext, hj'⟩

theorem firstAxes_eq_append {n : Nat} {done rest : List UInt32} {axis : UInt32}
    (h : firstAxes n = done ++ axis :: rest) :
    done.length < n ∧ done = firstAxes done.length ∧ axis = .ofNat done.length := by
  have hlength : n = done.length + (rest.length + 1) := by
    simpa [firstAxes] using congrArg List.length h
  rw [hlength, firstAxes, List.range_add, List.map_append] at h
  obtain ⟨hdone, hrest⟩ := List.append_inj h (by simp)
  rw [List.range_succ_eq_map, List.map_cons, List.map_cons] at hrest
  exact ⟨by omega, hdone.symm, (List.cons.inj hrest).1.symm⟩

/-- Whether exchanges are those of an attempt at manual mode, whatever became of it, and of tries
that homed the first `n` axes in turn. -/
def HomedUpTo (n : Nat) (t : List Exchange) : Prop :=
  ∃ t₀ o t₁, t = t₀ ++ t₁ ∧ (execute (.mode .manual) Timing.noWait).Reaches t₀ (.done o) ∧
    Homes (firstAxes n) t₁

def IssuedUpTo (n : Nat) (t : List Exchange) : Prop :=
  ∃ m, (m = [] ∨ m = [.mode .manual]) ∧ issued (Exchange.outsides t) = m ++ (firstAxes n).map .home

section

variable {n : Nat} {t t' : List Exchange}

theorem HomedUpTo.issuedUpTo (h : HomedUpTo n t) : IssuedUpTo n t := by
  obtain ⟨t₀, o, t₁, rfl, hmanual, hhomes⟩ := h
  refine ⟨_, issued_of_execute_cases hmanual, ?_⟩
  rw [issued_outsides_append, hhomes.issued]

theorem IssuedUpTo.quiet (h : IssuedUpTo n t) (ht' : issued (Exchange.outsides t') = []) :
    IssuedUpTo n (t ++ t') := by
  obtain ⟨m, hm, hissued⟩ := h
  refine ⟨m, hm, ?_⟩
  rw [issued_outsides_append, hissued, ht', List.append_nil]

theorem IssuedUpTo.next (h : IssuedUpTo n t)
    (ht' : issued (Exchange.outsides t') = [.home (.ofNat n)]) : IssuedUpTo (n + 1) (t ++ t') := by
  obtain ⟨m, hm, hissued⟩ := h
  refine ⟨m, hm, ?_⟩
  rw [issued_outsides_append, hissued, ht', firstAxes, firstAxes, List.range_succ, List.map_append,
    List.map_append, List.append_assoc]
  rfl

theorem IssuedUpTo.nodup (h : IssuedUpTo n t) (hn : n ≤ UInt32.size) :
    (issued (Exchange.outsides t)).Nodup := by
  obtain ⟨m, hm, hissued⟩ := h
  rw [hissued, firstAxes, List.map_map]
  have hmode : m.Nodup := by
    rcases hm with rfl | rfl
    · exact List.nodup_nil
    · exact List.nodup_singleton _
  refine List.nodup_append.2
    ⟨hmode, List.Nodup.map_on (fun i hi j hj hsame => ?_) List.nodup_range, ?_⟩
  · have hi' := Nat.lt_of_lt_of_le (List.mem_range.1 hi) hn
    have hj' := Nat.lt_of_lt_of_le (List.mem_range.1 hj) hn
    have hnumbers := congrArg UInt32.toNat (Link.Action.home.inj hsame)
    rwa [UInt32.toNat_ofNat_of_lt' hi', UInt32.toNat_ofNat_of_lt' hj'] at hnumbers
  · rintro a ha b hb rfl
    obtain ⟨i, -, rfl⟩ := List.mem_map.1 hb
    rcases hm with rfl | rfl
    · cases ha
    · cases List.mem_singleton.1 ha

end

theorem reaches_attempt {a : Link.Action} {limit : Nat} {t : List Exchange} {j : Job Unit}
    (h : (attempt a limit).Reaches t j) :
    ∃ j', (execute a limit).Reaches t j' ∧ ∀ u, j = .done u → ∃ o, j' = .done o := by
  rcases Reaches.bind_split h with ⟨r, k, hask, rfl⟩ | ⟨t₁, o, t₂, rfl, hdone, hrest⟩
  · exact ⟨_, hask, nofun⟩
  · obtain ⟨rfl, -⟩ := Reaches.done_cases hrest
    rw [List.append_nil]
    exact ⟨_, hdone, fun _ _ => ⟨o, rfl⟩⟩

theorem reaches_homeAll {s : Setup} {t : List Exchange} {j : Job Reply}
    (hcount : s.machine.axisCount < UInt32.size) (h : (homeAll s).Reaches t j) :
    (∃ j', (execute (.mode .manual) Timing.noWait).Reaches t j' ∧ ∀ r, j ≠ .done r) ∨
      HomedUpTo s.machine.axisCount t ∧ j = .done (.of .ok) ∨
      ∃ n t₁ t₂ j', n < s.machine.axisCount ∧ t = t₁ ++ t₂ ∧ HomedUpTo n t₁ ∧
        (execute (.home (.ofNat n)) Timing.home).Reaches t₂ j' ∧
        ∀ r, j = .done r → ∃ o, j' = .done o ∧ o.isOk = false ∧ r = .of o := by
  rcases Reaches.bind_split h with ⟨r, k, hask, rfl⟩ | ⟨t₀, _, t, rfl, hattempt, h⟩
  · obtain ⟨j', hmanual, -⟩ := reaches_attempt hask
    exact .inl ⟨j', hmanual, fun _ hdone => by cases hdone⟩
  right
  obtain ⟨j', hmanual, hdone⟩ := reaches_attempt hattempt
  obtain ⟨o, rfl⟩ := hdone _ rfl
  have hhomed {n : Nat} {t₁ : List Exchange} (hhomes : Homes (firstAxes n) t₁) :
      HomedUpTo n (t₀ ++ t₁) := ⟨t₀, o, t₁, rfl, hmanual, hhomes⟩
  rw [axisNumbers_eq hcount] at h
  rcases Reaches.bind_split h with ⟨r, k, hask, rfl⟩ | ⟨t₁, o', t₂, rfl, heach, hend⟩
  · rcases reaches_homeEach hask with ⟨-, hdone⟩ |
      ⟨axes, axis, rest, t₁, t₂, j', haxes, rfl, hhomes, hnext, -⟩
    · cases hdone
    · obtain ⟨hn, hfirst, rfl⟩ := firstAxes_eq_append haxes
      rw [hfirst] at hhomes
      exact .inr ⟨_, _, t₂, j', hn, (List.append_assoc ..).symm, hhomed hhomes, hnext,
        fun _ hdone => by cases hdone⟩
  · obtain ⟨rfl, rfl⟩ := Reaches.done_cases hend
    rw [List.append_nil]
    rcases reaches_homeEach heach with ⟨hhomes, hdone⟩ |
      ⟨axes, axis, rest, t₁, t₂, j', haxes, rfl, hhomes, hnext, hends⟩
    · cases hdone
      exact .inl ⟨hhomed hhomes, rfl⟩
    · obtain ⟨hn, hfirst, rfl⟩ := firstAxes_eq_append haxes
      obtain ⟨rfl, ho⟩ := hends o' rfl
      rw [hfirst] at hhomes
      refine .inr ⟨_, _, t₂, _, hn, (List.append_assoc ..).symm, hhomed hhomes, hnext, ?_⟩
      rintro r hdone
      cases hdone
      exact ⟨o', rfl, ho, rfl⟩

/-- After any exchanges the attempt at manual mode is underway, or it is over and some of the axes,
from the first on, have been homed in turn, and either they are all, or the next one is being tried.
Nothing but the manual mode has been issued by then, and the axes in turn, each once. A reply is
`OK` if all axes have been homed, and otherwise tells what became of the first that has not; no axis
after that one has been issued. -/
theorem axes_homed_in_order (s : Setup) (hcount : s.machine.axisCount < UInt32.size) :
    (∀ t j, (homeAll s).Reaches t j →
      (∃ j', (execute (.mode .manual) Timing.noWait).Reaches t j') ∨
      HomedUpTo s.machine.axisCount t ∨
      ∃ n t₁ t₂ j', n < s.machine.axisCount ∧ t = t₁ ++ t₂ ∧ HomedUpTo n t₁ ∧
        (execute (.home (.ofNat n)) Timing.home).Reaches t₂ j') ∧
    (∀ t j, (homeAll s).Reaches t j →
      (∃ n ≤ s.machine.axisCount, IssuedUpTo n t) ∧ (issued (Exchange.outsides t)).Nodup) ∧
    ∀ t r, (homeAll s).Reaches t (.done r) →
      HomedUpTo s.machine.axisCount t ∧ r = .of .ok ∧ IssuedUpTo s.machine.axisCount t ∨
      ∃ n t₁ t₂ o, n < s.machine.axisCount ∧ t = t₁ ++ t₂ ∧ HomedUpTo n t₁ ∧
        (execute (.home (.ofNat n)) Timing.home).Reaches t₂ (.done o) ∧ o.isOk = false ∧ r = .of o ∧
        (o = .notRunning → IssuedUpTo n t) ∧ (o ≠ .notRunning → IssuedUpTo (n + 1) t) := by
  refine ⟨fun t j h => ?_, fun t j h => ?_, fun t r h => ?_⟩
  · rcases reaches_homeAll hcount h with ⟨j', hmanual, -⟩ | ⟨hhomed, -⟩ |
      ⟨n, t₁, t₂, j', hn, rfl, hhomed, hnext, -⟩
    · exact .inl ⟨j', hmanual⟩
    · exact .inr (.inl hhomed)
    · exact .inr (.inr ⟨n, t₁, t₂, j', hn, rfl, hhomed, hnext⟩)
  · have hissued : ∃ n ≤ s.machine.axisCount, IssuedUpTo n t := by
      rcases reaches_homeAll hcount h with ⟨j', hmanual, -⟩ | ⟨hhomed, -⟩ |
        ⟨n, t₁, t₂, j', hn, rfl, hhomed, hnext, -⟩
      · exact ⟨0, Nat.zero_le _, _, issued_of_execute_cases hmanual, (List.append_nil _).symm⟩
      · exact ⟨_, Nat.le_refl _, hhomed.issuedUpTo⟩
      · rcases issued_of_execute_cases hnext with hnone | hone
        · exact ⟨n, Nat.le_of_lt hn, hhomed.issuedUpTo.quiet hnone⟩
        · exact ⟨n + 1, hn, hhomed.issuedUpTo.next hone⟩
    obtain ⟨n, hn, hup⟩ := hissued
    exact ⟨⟨n, hn, hup⟩, hup.nodup (Nat.le_trans hn (Nat.le_of_lt hcount))⟩
  · rcases reaches_homeAll hcount h with ⟨j', hmanual, hdone⟩ | ⟨hhomed, hdone⟩ |
      ⟨n, t₁, t₂, j', hn, rfl, hhomed, hnext, hends⟩
    · exact absurd rfl (hdone r)
    · cases hdone
      exact .inl ⟨hhomed, rfl, hhomed.issuedUpTo⟩
    · obtain ⟨o, rfl, ho, rfl⟩ := hends r rfl
      obtain ⟨hskipped, hissued⟩ := issued_of_execute hnext
      exact .inr ⟨n, t₁, t₂, o, hn, rfl, hhomed, hnext, ho, rfl,
        fun h => hhomed.issuedUpTo.quiet (hskipped h), fun h => hhomed.issuedUpTo.next (hissued h)⟩

def twoAxes : Setup :=
  { (default : Setup) with machine := { (default : Description) with axisCount := 2 } }

def homingDown : List Exchange :=
  let look (alive : Bool) : List Exchange :=
    [⟨.acquire .cache, ()⟩, ⟨.inside .cache, ({ alive := alive } : Cache)⟩, ⟨.release .cache, ()⟩]
  look true ++ [⟨.outside (.link (.issue (.mode .manual))), .ok 1⟩,
      ⟨.outside (.link (.wait 1 0)), .ok .started⟩] ++
    (look true ++ [⟨.outside (.link (.issue (.home 0))), .ok 2⟩,
        ⟨.outside (.waitWithin 2 Timing.home), some (.ok .done)⟩] ++ look false)

theorem reaches_homingDown :
    (homeAll twoAxes).Reaches homingDown (.done (.of .notRunning)) := by
  refine .cons _ (.cons _ (.cons _ (.cons _ (.cons _ ?_))))
  refine .cons _ (.cons _ (.cons _ (.cons _ (.cons _ ?_))))
  exact .cons _ (.cons _ (.cons _ (.refl _)))

theorem axes_homed_in_order_down :
    (homeAll twoAxes).Reaches homingDown (.done (.of .notRunning)) ∧
    ∃ t₁ t₂, homingDown = t₁ ++ t₂ ∧ HomedUpTo 1 t₁ ∧
      (execute (.home 1) Timing.home).Reaches t₂ (.done .notRunning) ∧ IssuedUpTo 1 homingDown := by
  obtain ⟨-, -, hends⟩ := axes_homed_in_order twoAxes (by decide)
  refine ⟨reaches_homingDown, ?_⟩
  rcases hends _ _ reaches_homingDown with ⟨-, hok, -⟩ |
    ⟨n, t₁, t₂, o, hn, ht, hhomed, hnext, -, hr, hskipped, -⟩
  · cases hok
  · cases hr
    have hup := hskipped rfl
    have hone : n = 1 := by
      obtain ⟨m, hm, hissued⟩ := hup
      have htwo : [Link.Action.mode .manual, .home 0] = m ++ (firstAxes n).map .home := hissued
      have hlength : 2 = m.length + n := by
        simpa [firstAxes] using congrArg List.length htwo
      have hmode : m.length ≤ 1 := by rcases hm with rfl | rfl <;> decide
      have hcount : n < 2 := hn
      omega
    subst hone
    exact ⟨t₁, t₂, ht, hhomed, hnext, hup⟩

end Handle

end MillGateway
