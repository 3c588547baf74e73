import MillGateway.Job.Basic

/-! What a job asks for on its way, whoever answers. A job is a finite tree, so it comes to an end
however it is answered; what is shown here of every way through the tree holds of every run. -/

namespace MillGateway

abbrev Exchange := (r : Request) × r.Answer

namespace Exchange

def outside? : Exchange → Option Outside
  | ⟨.outside o, _⟩ => some o
  | _ => none

def outsides (t : List Exchange) : List Outside :=
  t.filterMap outside?

end Exchange

theorem Request.nonempty_answer (r : Request) : Nonempty r.Answer := by
  cases r with
  | acquire | release => exact ⟨()⟩
  | inside x =>
    cases x with
    | cache => exact ⟨({} : Cache)⟩
    | store | markDown => exact ⟨false⟩
    | channel => exact ⟨(none : Option Link.ChannelId)⟩
    | setChannel => exact ⟨()⟩
    | nextEventId => exact ⟨(0 : UInt64)⟩
    | announceStatus | announceEvent => exact ⟨(0 : Nat)⟩
  | outside o =>
    cases o with
    | link c => exact ⟨Except.error Link.Error.channelClosed⟩
    | waitWithin => exact ⟨none⟩
    | sleep => exact ⟨()⟩
    | clock => exact ⟨(0 : Nat)⟩
    | localTime => exact ⟨""⟩
    | readText | writeText | appendText => exact ⟨.error .notFound⟩

namespace Job

inductive Reaches : Job α → List Exchange → Job α → Prop
  | refl (j : Job α) : Reaches j [] j
  | snoc {j : Job α} {t : List Exchange} {r : Request} {k : r.Answer → Job α}
      (h : Reaches j t (.ask r k)) (a : r.Answer) : Reaches j (t ++ [⟨r, a⟩]) (k a)

def Asks (P : Request → Prop) : Job α → Prop
  | .done _ => True
  | .ask r k => P r ∧ ∀ a, (k a).Asks P

def ComesTo (P : α → Prop) : Job α → Prop
  | .done a => P a
  | .ask _ k => ∀ a, (k a).ComesTo P

def Concludes (P : List Exchange → α → Prop) : Job α → Prop
  | .done a => P [] a
  | .ask r k => ∀ a, (k a).Concludes fun t => P (⟨r, a⟩ :: t)

/-- Whether a job makes such requests only, and ends like this, as long as its answers are of this
kind. -/
def Confined (P : Request → Prop) (Q : Exchange → Prop) (p : α → Prop) : Job α → Prop
  | .done a => p a
  | .ask r k => P r ∧ ∀ a, Q ⟨r, a⟩ → (k a).Confined P Q p

section

variable {j j' : Job α} {t t' : List Exchange} {P Q : Request → Prop}

theorem Asks.bind {k : α → Job β} (hj : j.Asks P) (hk : ∀ a, (k a).Asks P) :
    (j.bind k).Asks P := by
  induction j with
  | done a => exact hk a
  | ask r k' ih => exact ⟨hj.1, fun a => ih a (hj.2 a)⟩

theorem Asks.mono (hj : j.Asks P) (h : ∀ r, P r → Q r) : j.Asks Q := by
  induction j with
  | done a => trivial
  | ask r k ih => exact ⟨h r hj.1, fun a => ih a (hj.2 a)⟩

theorem Asks.locked {l : Lock} (ha : P (.acquire l)) (hr : P (.release l)) (hj : j.Asks P) :
    (locked l j).Asks P :=
  ⟨ha, fun _ => hj.bind fun _ => ⟨hr, fun _ => trivial⟩⟩

theorem ComesTo.mono {p q : α → Prop} (hj : j.ComesTo p) (h : ∀ a, p a → q a) : j.ComesTo q := by
  induction j with
  | done a => exact h a hj
  | ask r k ih => exact fun a => ih a (hj a)

theorem ComesTo.any (j : Job α) : j.ComesTo fun _ => True := by
  induction j with
  | done a => trivial
  | ask r k ih => exact ih

theorem ComesTo.bind {p : α → Prop} {q : β → Prop} {k : α → Job β} (hj : j.ComesTo p)
    (hk : ∀ a, p a → (k a).ComesTo q) : ComesTo q (j >>= k) := by
  induction j with
  | done a => exact hk a hj
  | ask r k' ih => exact fun a => ih a (hj a)

theorem ComesTo.after {q : β → Prop} {k : α → Job β} (hk : ∀ a, (k a).ComesTo q) :
    ComesTo q (j >>= k) :=
  (ComesTo.any j).bind fun a _ => hk a

theorem ComesTo.concludes {p : α → Prop} (hj : j.ComesTo p) : j.Concludes fun _ => p := by
  induction j with
  | done a => exact hj
  | ask r k ih => exact fun a => ih a (hj a)

theorem Concludes.mono {p q : List Exchange → α → Prop} (hj : j.Concludes p)
    (h : ∀ t a, p t a → q t a) : j.Concludes q := by
  induction j generalizing p q with
  | done a => exact h [] a hj
  | ask r k ih => exact fun a => ih a (hj a) fun t => h (⟨r, a⟩ :: t)

theorem Concludes.bind {p : List Exchange → α → Prop} {q : List Exchange → β → Prop}
    {k : α → Job β} (hj : j.Concludes p)
    (hk : ∀ t a, p t a → (k a).Concludes fun t' => q (t ++ t')) : Concludes q (j >>= k) := by
  induction j generalizing p q with
  | done a => exact hk [] a hj
  | ask r k' ih => exact fun a => ih a (hj a) fun t => hk (⟨r, a⟩ :: t)

theorem concludes_done {q : List Exchange → β → Prop} {b : β} (h : q t b) :
    (done b).Concludes fun t' => q (t ++ t') := by
  rw [Concludes, List.append_nil]
  exact h

theorem Reaches.asks (h : Reaches j t j') (hj : j.Asks P) : j'.Asks P ∧ ∀ x ∈ t, P x.1 := by
  induction h with
  | refl => exact ⟨hj, fun x hx => absurd hx List.not_mem_nil⟩
  | snoc _ a ih =>
    obtain ⟨⟨hr, hk⟩, ht⟩ := ih
    refine ⟨hk a, fun x hx => ?_⟩
    rcases List.mem_append.1 hx with hx | hx
    · exact ht x hx
    · rwa [List.mem_singleton.1 hx]

theorem Reaches.eq_of_nil (h : Reaches j [] j') : j' = j := by
  generalize ht : ([] : List Exchange) = t at h
  cases h with
  | refl => rfl
  | snoc => simp at ht

theorem Reaches.cons {r : Request} {k : r.Answer → Job α} (a : r.Answer)
    (h : Reaches (k a) t j') : Reaches (.ask r k) (⟨r, a⟩ :: t) j' := by
  induction h with
  | refl => exact (Reaches.refl (.ask r k)).snoc a
  | snoc _ b ih => exact ih.snoc b

theorem Reaches.cons_cases {r : Request} {k : r.Answer → Job α} {x : Exchange}
    (h : Reaches (.ask r k) (x :: t) j') : ∃ a, x = ⟨r, a⟩ ∧ Reaches (k a) t j' := by
  generalize ht : x :: t = u at h
  induction h generalizing t with
  | refl => cases ht
  | @snoc u r' k' h b ih =>
    cases u with
    | nil =>
      have hsame := h.eq_of_nil
      cases hsame
      obtain ⟨rfl, rfl⟩ := List.cons.inj ht
      exact ⟨b, rfl, .refl _⟩
    | cons y u =>
      obtain ⟨rfl, rfl⟩ := List.cons.inj ht
      obtain ⟨a, hx, hrest⟩ := ih rfl
      exact ⟨a, hx, hrest.snoc b⟩

theorem Reaches.done_cases {a : α} (h : Reaches (.done a) t j') : t = [] ∧ j' = .done a := by
  induction h with
  | refl => exact ⟨rfl, rfl⟩
  | snoc _ _ ih => cases ih.2

theorem Reaches.ask_cases {r : Request} {k : r.Answer → Job α} {b : α}
    (h : Reaches (.ask r k) t (.done b)) :
    ∃ a t', t = ⟨r, a⟩ :: t' ∧ Reaches (k a) t' (.done b) := by
  cases t with
  | nil => cases h.eq_of_nil
  | cons x t =>
    obtain ⟨a, rfl, hrest⟩ := h.cons_cases
    exact ⟨a, t, rfl, hrest⟩

theorem Reaches.bind_split {k : α → Job β} {j' : Job β} (h : Reaches (j.bind k) t j') :
    (∃ r k', Reaches j t (.ask r k') ∧ j' = .ask r fun x => (k' x).bind k) ∨
      ∃ t₁ a t₂, t = t₁ ++ t₂ ∧ Reaches j t₁ (.done a) ∧ Reaches (k a) t₂ j' := by
  induction j generalizing t with
  | done a => exact .inr ⟨[], a, t, rfl, .refl _, h⟩
  | ask r k' ih =>
    cases t with
    | nil => exact .inl ⟨r, k', .refl _, h.eq_of_nil⟩
    | cons x t =>
      obtain ⟨c, rfl, hrest⟩ := h.cons_cases
      rcases ih c hrest with ⟨r', k'', hj, hj'⟩ | ⟨t₁, a, t₂, rfl, hj, hk⟩
      · exact .inl ⟨r', k'', hj.cons c, hj'⟩
      · exact .inr ⟨_, a, t₂, rfl, hj.cons c, hk⟩

theorem Reaches.bind_cases {k : α → Job β} {b : β} (h : Reaches (j.bind k) t (.done b)) :
    ∃ t₁ a t₂, t = t₁ ++ t₂ ∧ Reaches j t₁ (.done a) ∧ Reaches (k a) t₂ (.done b) := by
  rcases h.bind_split with ⟨r, k', -, hask⟩ | hsplit
  · cases hask
  · exact hsplit

theorem Reaches.exists_end (h : Reaches j t j') : ∃ t' a, Reaches j (t ++ t') (.done a) := by
  induction j' generalizing t with
  | done a => exact ⟨[], a, by rwa [List.append_nil]⟩
  | ask r k ih =>
    obtain ⟨b⟩ := r.nonempty_answer
    obtain ⟨t', a, hend⟩ := ih b (h.snoc b)
    exact ⟨_, a, by rwa [List.append_assoc] at hend⟩

theorem Reaches.concludes {p : List Exchange → α → Prop} {a : α} (h : Reaches j t (.done a))
    (hj : j.Concludes p) : p t a := by
  induction j generalizing t p with
  | done b =>
    obtain ⟨rfl, hb⟩ := h.done_cases
    cases hb
    exact hj
  | ask r k ih =>
    obtain ⟨b, t', rfl, hrest⟩ := h.ask_cases
    have hp := ih b hrest (hj b)
    exact hp

theorem Confined.bind {K : Exchange → Prop} {p : α → Prop} {q : β → Prop} {k : α → Job β}
    (hj : j.Confined P K p) (hk : ∀ a, p a → (k a).Confined P K q) :
    (j.bind k).Confined P K q := by
  induction j with
  | done a => exact hk a hj
  | ask r k' ih => exact ⟨hj.1, fun a ha => ih a (hj.2 a ha)⟩

theorem Reaches.confined {K : Exchange → Prop} {p : α → Prop} (h : Reaches j t j')
    (hj : j.Confined P K p) (ht : ∀ x ∈ t, K x) : j'.Confined P K p ∧ ∀ x ∈ t, P x.1 := by
  induction h with
  | refl => exact ⟨hj, fun x hx => absurd hx List.not_mem_nil⟩
  | snoc _ a ih =>
    obtain ⟨⟨hr, hk⟩, hP⟩ := ih fun x hx => ht x (List.mem_append_left _ hx)
    refine ⟨hk a (ht _ (List.mem_append_right _ List.mem_cons_self)), fun x hx => ?_⟩
    rcases List.mem_append.1 hx with hx | hx
    · exact hP x hx
    · rwa [List.mem_singleton.1 hx]

end

end Job

end MillGateway
