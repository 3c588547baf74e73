import Mathlib.Data.List.Induction
import MillGateway.Job.Basic
import MillGateway.Proofs.File.Tree

/-! A job alone with the files, each access to which may go amiss. Locks are had for the asking. -/

namespace MillGateway

/-- What goes wrong with an access to a file: it has no effect, or it breaks off and leaves another
file than it should. -/
inductive Mishap where
  | fails (e : FileError)
  | tears (e : FileError) (left : FileNode) (isFile : left.isFile = true)

namespace Mishap

def error : Mishap → FileError
  | .fails e | .tears e _ _ => e

def Admitted (tearing : Bool) : Option Mishap → Prop
  | some (.tears ..) => tearing = true
  | _ => True

theorem admitted_true (m? : Option Mishap) : Admitted true m? := by
  unfold Admitted
  split <;> trivial

theorem admitted_map_fails (tearing : Bool) (e? : Option FileError) :
    Admitted tearing (e?.map .fails) := by
  cases e? <;> trivial

end Mishap

namespace FileTree

/-- The answer to a reading. That there is no file is no mishap: only the tree tells it. -/
def readWith (t : FileTree) (p : Path) : Option Mishap → Except FileError String
  | none => t.read p
  | some m => if m.error = .notFound then t.read p else .error m.error

def changeWith (t : FileTree) (p : Path) (r : Except FileError FileTree) :
    Option Mishap → Except FileError Unit × FileTree
  | none => match r with
    | .ok t' => (.ok (), t')
    | .error e => (.error e, t)
  | some (.fails e) => (.error e, t)
  | some (.tears e left _) => match t.target p with
    | .ok (place, _) => (.error e, t.put place left)
    | .error _ => (.error e, t)

def access (m? : Option Mishap) (t : FileTree) : (o : Outside) → Option (o.Answer × FileTree)
  | .readText p => some (t.readWith p m?, t)
  | .writeText p s => some (t.changeWith p (t.write p s) m?)
  | .appendText p s => some (t.changeWith p (t.append p s) m?)
  | _ => none

/-- What an access that went amiss may have changed: nothing, or the file at the end of its path if
that may tear. -/
def Changed (tearing : Bool) (t : FileTree) (p : Path) (t' : FileTree) : Prop :=
  t' = t ∨ tearing = true ∧ ∃ n, n.isFile = true ∧ t.Puts p n t'

section

variable {tearing : Bool} {m? : Option Mishap} {t t' : FileTree} {p : Path} {s : String}

theorem Changed.eq (h : t.Changed false p t') : t' = t := by
  rcases h with h | ⟨hfalse, -⟩
  · exact h
  · cases hfalse

theorem access_readText {a : Except FileError String}
    (h : t.access m? (.readText p) = some (a, t')) :
    t' = t ∧ (a = t.read p ∨ ∃ e, e ≠ .notFound ∧ a = .error e) := by
  cases h
  refine ⟨rfl, ?_⟩
  cases m? with
  | none => exact .inl rfl
  | some m =>
    by_cases he : m.error = .notFound
    · exact .inl (if_pos he)
    · exact .inr ⟨m.error, he, if_neg he⟩

theorem changeWith_cases {r : Except FileError FileTree} {a : Except FileError Unit}
    (hm : Mishap.Admitted tearing m?) (h : t.changeWith p r m? = (a, t')) :
    (a = .ok () ∧ r = .ok t') ∨ ∃ e, a = .error e ∧ t.Changed tearing p t' := by
  cases m? with
  | none =>
    cases r with
    | ok u =>
      cases h
      exact .inl ⟨rfl, rfl⟩
    | error e =>
      cases h
      exact .inr ⟨e, rfl, .inl rfl⟩
  | some m =>
    cases m with
    | fails e =>
      cases h
      exact .inr ⟨e, rfl, .inl rfl⟩
    | tears e left hleft =>
      rw [changeWith] at h
      split at h
      next place n? htarget =>
        cases h
        exact .inr ⟨e, rfl, .inr ⟨hm, left, hleft, place, n?, htarget, rfl⟩⟩
      next =>
        cases h
        exact .inr ⟨e, rfl, .inl rfl⟩

theorem access_writeText {a : Except FileError Unit} (hm : Mishap.Admitted tearing m?)
    (h : t.access m? (.writeText p s) = some (a, t')) :
    (a = .ok () ∧ t.Puts p (.text s) t') ∨ ∃ e, a = .error e ∧ t.Changed tearing p t' :=
  (changeWith_cases hm (Option.some.inj h)).imp_left fun h => ⟨h.1, puts_of_write h.2⟩

theorem access_appendText {a : Except FileError Unit} (hm : Mishap.Admitted tearing m?)
    (h : t.access m? (.appendText p s) = some (a, t')) :
    (a = .ok () ∧ t.Puts p (appended s (t.content p)) t') ∨
      ∃ e, a = .error e ∧ t.Changed tearing p t' :=
  (changeWith_cases hm (Option.some.inj h)).imp_left fun h => ⟨h.1, puts_of_append h.2⟩

end

end FileTree

/-! ### Moments of a job -/

namespace Job

def settle : Job α → Job α
  | .ask (.acquire _) k => (k ()).settle
  | .ask (.release _) k => (k ()).settle
  | j => j

/-- The job after its next access. A job that asks for something else stays where it is. -/
def access (m? : Option Mishap) : Job α → FileTree → Job α × FileTree
  | .ask (.outside o) k, t => match t.access m? o with
    | some (a, t') => ((k a).settle, t')
    | none => (.ask (.outside o) k, t)
  | j, t => (j, t)

def after (j : Job α) (t : FileTree) (ms : List (Option Mishap)) : Job α × FileTree :=
  ms.foldl (fun (j, t) m? => j.access m? t) (j.settle, t)

theorem after_append (j : Job α) (t : FileTree) (ms : List (Option Mishap)) (m? : Option Mishap) :
    j.after t (ms ++ [m?]) = (j.after t ms).1.access m? (j.after t ms).2 := by
  rw [after, List.foldl_append]
  rfl

theorem after_done (a : α) (t : FileTree) (ms : List (Option Mishap)) :
    (Job.done a).after t ms = (.done a, t) := by
  induction ms with
  | nil => rfl
  | cons m? ms ih => exact ih

theorem after_outside {o : Outside} (k : o.Answer → Job α) {t t' : FileTree} {m? : Option Mishap}
    {a : o.Answer} (h : t.access m? o = some (a, t')) (ms : List (Option Mishap)) :
    (Job.ask (.outside o) k).after t (m? :: ms) = (k a).after t' ms := by
  simp only [after, settle, List.foldl_cons, access, h]

theorem after_outside_none {o : Outside} (k : o.Answer → Job α) {t : FileTree} {m? : Option Mishap}
    (h : t.access m? o = none) (ms : List (Option Mishap)) :
    (Job.ask (.outside o) k).after t (m? :: ms) = (Job.ask (.outside o) k).after t ms := by
  simp only [after, settle, List.foldl_cons, access, h]

theorem map_eq_done {f : α → β} {j : Job α} {b : β} :
    f <$> j = .done b ↔ ∃ a, j = .done a ∧ f a = b := by
  cases j with
  | done a =>
    change Job.done (f a) = .done b ↔ _
    simp
  | ask r k => exact ⟨nofun, nofun⟩

theorem settle_map (f : α → β) (j : Job α) : (f <$> j).settle = f <$> j.settle := by
  induction j with
  | done a => rfl
  | ask r k ih =>
    cases r with
    | acquire l => exact ih ()
    | release l => exact ih ()
    | inside x => rfl
    | outside o => rfl

theorem access_map (f : α → β) (m? : Option Mishap) (j : Job α) (t : FileTree) :
    (f <$> j).access m? t = (f <$> (j.access m? t).1, (j.access m? t).2) := by
  cases j with
  | done a => rfl
  | ask r k =>
    cases r with
    | acquire l => rfl
    | release l => rfl
    | inside x => rfl
    | outside o =>
      change Job.access m? (.ask (.outside o) fun a => f <$> k a) t = _
      rw [access, access]
      cases t.access m? o with
      | none => rfl
      | some x => exact congrArg (·, x.2) (settle_map f (k x.1))

theorem after_map (f : α → β) (j : Job α) (t : FileTree) (ms : List (Option Mishap)) :
    (f <$> j).after t ms = (f <$> (j.after t ms).1, (j.after t ms).2) := by
  induction ms using List.reverseRecOn with
  | nil => exact congrArg (·, t) (settle_map f j)
  | append_singleton ms m? ih => rw [after_append, ih, access_map, after_append]

def result? : Job α → Option α
  | .done a => some a
  | .ask .. => none

theorem result?_eq_some_iff {j : Job α} {a : α} : j.result? = some a ↔ j = .done a := by
  cases j <;> simp [result?]

def Always (tearing : Bool) (P : Job α → FileTree → Prop) (j : Job α) (t : FileTree) : Prop :=
  ∀ ms, (∀ m? ∈ ms, Mishap.Admitted tearing m?) → P (j.after t ms).1 (j.after t ms).2

section Always

variable {tearing : Bool} {P : Job α → FileTree → Prop} {t : FileTree}

theorem Always.of_after {j j' : Job α} {t' : FileTree} {ms : List (Option Mishap)}
    (h : Always true P j t) (hend : j.after t ms = (j', t')) : P j' t' := by
  have hmoment := h ms fun m? _ => Mishap.admitted_true m?
  rw [hend] at hmoment
  exact hmoment

theorem always_done {a : α} (h : P (.done a) t) : Always tearing P (.done a) t := by
  intro ms _
  rw [after_done]
  exact h

theorem always_acquire {l : Lock} {k : Unit → Job α} (h : Always tearing P (k ()) t) :
    Always tearing P (.ask (.acquire l) k) t := h

theorem always_release {l : Lock} {k : Unit → Job α} (h : Always tearing P (k ()) t) :
    Always tearing P (.ask (.release l) k) t := h

theorem always_outside {o : Outside} {k : o.Answer → Job α} (h : P (.ask (.outside o) k) t)
    (hk : ∀ m? a t', Mishap.Admitted tearing m? → t.access m? o = some (a, t') →
      Always tearing P (k a) t') :
    Always tearing P (.ask (.outside o) k) t := by
  intro ms hms
  induction ms with
  | nil => exact h
  | cons m? ms ih =>
    have hms' : ∀ m? ∈ ms, Mishap.Admitted tearing m? :=
      fun m hm => hms m (List.mem_cons_of_mem _ hm)
    cases hacc : t.access m? o with
    | none =>
      rw [after_outside_none k hacc]
      exact ih hms'
    | some r =>
      rw [after_outside k hacc]
      exact hk m? r.1 r.2 (hms m? List.mem_cons_self) hacc ms hms'

end Always

end Job

end MillGateway
