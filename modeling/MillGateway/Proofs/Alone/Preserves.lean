import MillGateway.Proofs.Alone.Basic
import MillGateway.Proofs.Tool.Store

/-! What a job alone preserves of the scene, shown part by part. Files change only where the job
writes, so an edit of a tool table preserves what putting the table and its backup cannot change. -/

namespace MillGateway.Job

variable [DecidableEq ω] {observers : Observers ω ε} {P : Scene ω ε → Prop}

def Preserves (observers : Observers ω ε) (P : Scene ω ε → Prop) (j : Job α) : Prop :=
  ∀ s, P s → P (j.alone observers s).2

theorem preserves_pure (a : α) : Preserves observers P (pure a) :=
  fun _ h => h

theorem Preserves.bind {j : Job α} {k : α → Job β} (hj : Preserves observers P j)
    (hk : ∀ a, Preserves observers P (k a)) : Preserves observers P (j >>= k) := by
  intro s h
  show P ((j.bind k).alone observers s).2
  rw [alone_bind]
  exact hk _ _ (hj s h)

theorem Preserves.map {j : Job α} (f : α → β) (hj : Preserves observers P j) :
    Preserves observers P (f <$> j) :=
  hj.bind fun a => preserves_pure (f a)

theorem preserves_locked (l : Lock) {j : Job α} (hj : Preserves observers P j) :
    Preserves observers P (locked l j) := by
  intro s h
  rw [alone_locked]
  exact hj s h

theorem preserves_acquire (l : Lock) {k : Unit → Job α} (hk : Preserves observers P (k ())) :
    Preserves observers P (ask (.acquire l) k) :=
  hk

/-! ### Files -/

theorem preserves_readText (p : Path) {k : Except FileError String → Job α}
    (hk : ∀ x, Preserves observers P (k x)) :
    Preserves observers P (ask (.outside (.readText p)) k) := by
  intro s h
  rw [alone_readText]
  exact hk _ s h

def Withstands (P : Scene ω ε → Prop) (p : Path) : Prop :=
  ∀ {s : Scene ω ε} {n : FileNode} {t : FileTree}, P s → n.isFile = true → s.files.Puts p n t →
    P (s.withFiles t)

theorem preserves_writeText {p : Path} (hp : Withstands P p) (text : String)
    {k : Except FileError Unit → Job α} (hk : ∀ x, Preserves observers P (k x)) :
    Preserves observers P (ask (.outside (.writeText p text)) k) := by
  intro s h
  rw [alone_writeText]
  cases hwrite : s.files.write p text with
  | error e => exact hk _ s h
  | ok t => exact hk _ _ (hp h rfl (FileTree.puts_of_write hwrite))

theorem preserves_appendText {p : Path} (hp : Withstands P p) (text : String)
    {k : Except FileError Unit → Job α} (hk : ∀ x, Preserves observers P (k x)) :
    Preserves observers P (ask (.outside (.appendText p text)) k) := by
  intro s h
  rw [alone_appendText]
  cases happend : s.files.append p text with
  | error e => exact hk _ s h
  | ok t =>
    have hput := FileTree.puts_of_append happend
    exact hk _ _ (hp h (FileTree.appended_isFile _ _) hput)

end MillGateway.Job

/-! ### Tool tables -/

namespace MillGateway.Tool.Store

open Job

variable [DecidableEq ω] {observers : Observers ω ε} {P : Scene ω ε → Prop} {table : Path}

theorem preserves_freed (a : α) : Preserves observers P (freed a) :=
  fun _ h => h

theorem preserves_withText {k : String → Job (Except Error α)}
    (hk : ∀ text, Preserves observers P (k text)) (x : Except FileError String) :
    Preserves observers P (withText table k x) := by
  cases x with
  | ok text => exact hk text
  | error e =>
    cases e with
    | notFound => exact hk ""
    | _ => exact preserves_freed _

theorem preserves_rewritten (htable : Withstands P table) (text : String) :
    Preserves observers P (rewritten table text) :=
  preserves_writeText htable text fun _ => preserves_freed _

theorem preserves_backedUp (hbackup : Withstands P (backupPath table)) (text : String)
    {k : Job (Except Error Unit)} (hk : Preserves observers P k) :
    Preserves observers P (backedUp table text k) := by
  apply preserves_writeText hbackup
  intro x
  cases x with
  | error e => exact preserves_freed _
  | ok => exact hk

theorem preserves_read : Preserves observers P (read table) := by
  rw [read_eq]
  exact preserves_readText table fun _ => preserves_pure _

theorem preserves_add (htable : Withstands P table) (r : Record) :
    Preserves observers P (add table r) := by
  cases hr : r.validate with
  | error e =>
    rw [add_eq_error hr]
    exact preserves_pure _
  | ok n =>
    rw [add_eq hr]
    apply preserves_acquire
    refine preserves_readText table (preserves_withText fun text => ?_)
    unfold appendedTo
    split
    · exact preserves_freed _
    · split
      · exact preserves_freed _
      · exact preserves_appendText htable _ fun _ => preserves_freed _

theorem preserves_remove (htable : Withstands P table) (hbackup : Withstands P (backupPath table))
    (ns : List Int) : Preserves observers P (remove table ns) := by
  rw [remove_eq]
  apply preserves_acquire
  apply preserves_readText
  intro x
  cases x with
  | error e => exact preserves_freed _
  | ok text =>
    apply preserves_backedUp hbackup
    split
    · exact preserves_freed _
    · exact preserves_rewritten htable _

theorem preserves_update (htable : Withstands P table) (hbackup : Withstands P (backupPath table))
    (rs : List Record) : Preserves observers P (update table rs) := by
  cases hrs : validateAll [] rs with
  | error e =>
    rw [update_eq_error hrs]
    exact preserves_pure _
  | ok =>
    rw [update_eq hrs]
    apply preserves_acquire
    refine preserves_readText table (preserves_withText fun text => ?_)
    exact preserves_backedUp hbackup text (preserves_rewritten htable _)

end MillGateway.Tool.Store
