import MillGateway.Proofs.Crowd.Trail

/-! Runs of a crowd that are computed: whose turn it is, and what the world outside does, is chosen
beforehand. -/

namespace MillGateway.Crowd

inductive Choice (χ : Type) where
  | start (i : TaskId)
  | go (i : TaskId) (c : χ)
  | drop (i : TaskId)
  | befall (c : χ)

variable [DecidableEq ω]

def comeOn? (R : Rules α σ χ ω ε) (s : Crowd α σ ω ε) (i : TaskId) (c : χ) :
    Place α → Option (Event χ × Crowd α σ ω ε)
  | .ready (.done _) => none
  | .ready (.ask (.acquire l) k) =>
    if (s.locks.acquire l i).1 then
      some (.took i l, { s with locks := (s.locks.acquire l i).2 }.put i (.ready (k ())))
    else some (.queued i l, { s with locks := (s.locks.acquire l i).2 }.put i (.queued l k))
  | .ready (.ask (.release l) k) =>
    some (.gave i l, { s with locks := (s.locks.release l).2 }.put i (.ready (k ())))
  | .ready (.ask (.inside x) k) =>
    some (.looked i x (s.gateway.answer R.observers x).1,
      { s with gateway := (s.gateway.answer R.observers x).2 }.put i
        (.ready (k (s.gateway.answer R.observers x).1)))
  | .ready (.ask (.outside o) k) => some (.asked i o, s.put i (.away o k))
  | .queued l k =>
    if (s.locks l).holder = some i then some (.took i l, s.put i (.ready (k ()))) else none
  | .away o k => (R.answer o c s.world).map fun x =>
    (.heard i o c x.1, { s with world := x.2 }.put i (.ready (k x.1)))
  | .dropped => none

def next? (R : Rules α σ χ ω ε) (s : Crowd α σ ω ε) : Choice χ → Option (Event χ × Crowd α σ ω ε)
  | .start i =>
    if (s.tasks i).isSome then none
    else (R.jobs i).map fun j => (.started i, s.put i (.ready j))
  | .go i c => (s.tasks i).bind (comeOn? R s i c)
  | .drop i => (s.tasks i).bind fun p =>
    if p.isSuspended && R.mayDrop i then
      some (.dropped i, { s with locks := (s.locks.abandon i).2 }.put i .dropped)
    else none
  | .befall c => (R.befall c (s.gateway.registry, s.world)).map fun x =>
    (.befell c, { s with gateway := { s.gateway with registry := x.1 }, world := x.2 })

/-- What happens if the choices are made one after another, if all of them can. -/
def play? (R : Rules α σ χ ω ε) : List (Choice χ) → List (Event χ) × Crowd α σ ω ε →
    Option (List (Event χ) × Crowd α σ ω ε)
  | [], x => some x
  | c :: cs, (es, s) => (next? R s c).bind fun (e, s') => play? R cs (es ++ [e], s')

def trace? (R : Rules α σ χ ω ε) : List (Choice χ) → Crowd α σ ω ε →
    Option (List (Move α σ χ ω ε) × Crowd α σ ω ε)
  | [], s => some ([], s)
  | c :: cs, s => (next? R s c).bind fun (e, s') =>
    (trace? R cs s').map fun x => (⟨s, e, s'⟩ :: x.1, x.2)

variable {R : Rules α σ χ ω ε} {s s' : Crowd α σ ω ε} {e : Event χ}

theorem step_of_comeOn? {i : TaskId} {c : χ} {p : Place α} (hi : s.tasks i = some p)
    (h : comeOn? R s i c p = some (e, s')) : Step R s e s' := by
  cases p with
  | ready j =>
    cases j with
    | done a => cases h
    | ask r k =>
      cases r with
      | acquire l =>
        rw [comeOn?] at h
        split at h
        next hl =>
          cases h
          exact .took hi hl
        next hl =>
          cases h
          exact .queued hi (by simpa using hl)
      | release l =>
        cases h
        exact .gave hi
      | inside x =>
        cases h
        exact .looked hi
      | outside o =>
        cases h
        exact .asked hi
  | queued l k =>
    rw [comeOn?] at h
    split at h
    next hl =>
      cases h
      exact .woke hi hl
    next => cases h
  | away o k =>
    obtain ⟨⟨a, w⟩, ha, h⟩ := Option.map_eq_some_iff.1 h
    cases h
    exact .heard hi ha
  | dropped => cases h

theorem step_of_next? {c : Choice χ} (h : next? R s c = some (e, s')) : Step R s e s' := by
  cases c with
  | start i =>
    rw [next?] at h
    split at h
    next => cases h
    next hi =>
      obtain ⟨j, hj, h⟩ := Option.map_eq_some_iff.1 h
      cases h
      exact .started hj (by simpa using hi)
  | go i c =>
    obtain ⟨p, hi, h⟩ := Option.bind_eq_some_iff.1 h
    exact step_of_comeOn? hi h
  | drop i =>
    obtain ⟨p, hi, h⟩ := Option.bind_eq_some_iff.1 h
    split at h
    next hp =>
      cases h
      rw [Bool.and_eq_true] at hp
      exact .dropped hi hp.1 hp.2
    next => cases h
  | befall c =>
    obtain ⟨⟨r, w⟩, hr, h⟩ := Option.map_eq_some_iff.1 h
    cases h
    exact .befell hr

theorem run_of_play? {s₀ : Crowd α σ ω ε} {cs : List (Choice χ)} {es es' : List (Event χ)}
    (hrun : Run R s₀ es s) (h : play? R cs (es, s) = some (es', s')) : Run R s₀ es' s' := by
  induction cs generalizing es s with
  | nil =>
    cases h
    exact hrun
  | cons c cs ih =>
    obtain ⟨⟨e, t⟩, hnext, h⟩ := Option.bind_eq_some_iff.1 h
    exact ih (hrun.snoc (step_of_next? hnext)) h

theorem trail_of_trace? {s₀ : Crowd α σ ω ε} {cs : List (Choice χ)}
    {ms ms' : List (Move α σ χ ω ε)} (htrail : Trail R s₀ ms s)
    (h : trace? R cs s = some (ms', s')) : Trail R s₀ (ms ++ ms') s' := by
  induction cs generalizing ms ms' s with
  | nil =>
    cases h
    rwa [List.append_nil]
  | cons c cs ih =>
    obtain ⟨⟨e, t⟩, hnext, h⟩ := Option.bind_eq_some_iff.1 h
    obtain ⟨⟨ms', s'⟩, htrace, h⟩ := Option.map_eq_some_iff.1 h
    cases h
    rw [List.append_cons]
    exact ih (htrail.snoc (step_of_next? hnext)) htrace

end MillGateway.Crowd
