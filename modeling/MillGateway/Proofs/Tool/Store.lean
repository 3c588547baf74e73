import MillGateway.Proofs.File.Access
import MillGateway.Proofs.Tool.Table
import MillGateway.Tool.Store

/-! The calls on the tool table step by step, and which records they take. -/

namespace MillGateway.Tool

open Job

/-! ### Records that are taken -/

theorem Record.validate_eq_ok_iff {r : Record} {n : Int} :
    r.validate = .ok n ↔ r.toolNumber = some n ∧ r.malformedField = none := by
  rw [Record.validate]
  split
  next h => simp [Record.toolNumber, h]
  next h => simp [h]
  next h => simp [h]
  next h h' => simp [h, h']

theorem Record.sound_of_validate {r : Record} {n : Int} (h : r.validate = .ok n) :
    Table.Sound r :=
  have h := Record.validate_eq_ok_iff.1 h
  ⟨⟨n, h.1⟩, h.2⟩

theorem sound_of_validateAll {seen : List Int} {rs : List Record}
    (h : validateAll seen rs = .ok ()) :
    (∀ r ∈ rs, Table.Sound r) ∧ (rs.filterMap Record.toolNumber).Nodup ∧
      ∀ n ∈ rs.filterMap Record.toolNumber, n ∉ seen := by
  induction rs generalizing seen with
  | nil => exact ⟨nofun, .nil, nofun⟩
  | cons r rs ih =>
    rw [validateAll] at h
    cases hr : r.validate with
    | error e =>
      rw [hr] at h
      cases h
    | ok n =>
      rw [hr] at h
      change (if seen.contains n then _ else _) = _ at h
      split at h
      next => cases h
      next hn =>
        obtain ⟨hsound, hnodup, hnew⟩ := ih h
        have hnum := (Record.validate_eq_ok_iff.1 hr).1
        rw [List.filterMap_cons_some hnum]
        refine ⟨?_, List.nodup_cons.2 ⟨fun hmem => ?_, hnodup⟩, ?_⟩
        · rintro r' hr'
          rcases List.mem_cons.1 hr' with rfl | hr'
          · exact Record.sound_of_validate hr
          · exact hsound r' hr'
        · exact hnew n hmem List.mem_cons_self
        · intro m hm
          rcases List.mem_cons.1 hm with rfl | hm
          · simpa using hn
          · exact fun hs => hnew m hm (List.mem_cons_of_mem _ hs)

/-! ### The calls -/

namespace Store

theorem backupPath_ne (table : Path) : backupPath table ≠ table := by
  intro h
  have hlen := congrArg (fun p : Path => p.text.toList.length) h
  simp [backupPath, Path.withSuffix] at hlen

def freed (a : α) : Job α :=
  .ask (.release .editing) fun _ => .done a

def rewritten (table : Path) (s : String) : Job (Except Error Unit) :=
  .ask (.outside (.writeText table s)) fun x => freed (x.mapError (.write table))

def backedUp (table : Path) (text : String) (k : Job (Except Error Unit)) :
    Job (Except Error Unit) :=
  .ask (.outside (.writeText (backupPath table) text)) fun
    | .error e => freed (.error (.backup (backupPath table) e))
    | .ok () => k

def appendedTo (table : Path) (r : Record) (n : Int) (text : String) : Job (Except Error Added) :=
  if Table.hasNumber n text then freed (.ok .exists)
  else if r.line = "" then freed (.error .emptyRecord)
  else .ask (.outside (.appendText table (Table.entry text r))) fun x =>
    freed ((x.mapError (.write table)).map fun _ => .added)

def withText (table : Path) (k : String → Job (Except Error α)) :
    Except FileError String → Job (Except Error α)
  | .ok text => k text
  | .error .notFound => k ""
  | .error e => freed (.error (.read table e))

theorem read_eq (table : Path) :
    read table = .ask (.outside (.readText table)) fun x =>
      .done ((x.mapError (.read table)).map Table.records) := rfl

theorem bind_readTextOrEmpty {table : Path} {k : Except Error String → Job (Except Error α)}
    (herror : ∀ e, k (.error e) = .done (.error e)) :
    ((readTextOrEmpty table).bind k).bind freed =
      .ask (.outside (.readText table)) (withText table fun text => (k (.ok text)).bind freed) := by
  change Job.ask (.outside (.readText table)) (fun x => _) = _
  congr 1
  funext x
  cases x with
  | ok text => rfl
  | error e =>
    have hfreed : (k (.error (.read table e))).bind freed = freed (.error (.read table e)) := by
      rw [herror]
      rfl
    cases e <;> first | exact hfreed | rfl

theorem bind_backUp {table : Path} {text : String}
    {k : Except Error Unit → Job (Except Error Unit)}
    (herror : ∀ e, k (.error e) = .done (.error e)) :
    ((backUp table text).bind k).bind freed =
      backedUp table text ((k (.ok ())).bind freed) := by
  change Job.ask (.outside (.writeText (backupPath table) text)) (fun x => _) = _
  rw [backedUp]
  congr 1
  funext x
  cases x with
  | ok _ => rfl
  | error e =>
    change (k (.error (.backup (backupPath table) e))).bind freed = _
    rw [herror]
    rfl

theorem add_eq_error {table : Path} {r : Record} {e : Error} (h : r.validate = .error e) :
    add table r = .done (.error e) := by
  rw [add, h]
  rfl

theorem add_eq {table : Path} {r : Record} {n : Int} (h : r.validate = .ok n) :
    add table r = .ask (.acquire .editing) fun _ => .ask (.outside (.readText table))
      (withText table (appendedTo table r n)) := by
  rw [add, h]
  change Job.ask (.acquire .editing) (fun _ => _) = _
  congr 1
  funext _
  refine Eq.trans (bind_readTextOrEmpty ?_) ?_
  · exact fun _ => rfl
  congr 2
  funext text
  change Job.bind (if _ then _ else _) freed = _
  rw [appendedTo]
  split
  · rfl
  · split <;> rfl

theorem remove_eq (table : Path) (ns : List Int) :
    remove table ns = .ask (.acquire .editing) fun _ => .ask (.outside (.readText table)) fun
      | .error e => freed (.error (.read table e))
      | .ok text => backedUp table text
          (if ns.any (· < 0) then freed (.ok ()) else rewritten table (Table.without ns text)) := by
  change Job.ask (.acquire .editing) (fun _ => _) = _
  congr 1
  funext _
  change Job.ask (.outside (.readText table)) (fun x => _) = _
  congr 1
  funext x
  cases x with
  | error e => rfl
  | ok text =>
    refine Eq.trans (bind_backUp ?_) ?_
    · exact fun _ => rfl
    congr 1
    change Job.bind (if _ then _ else _) freed = _
    split <;> rfl

theorem update_eq_error {table : Path} {rs : List Record} {e : Error}
    (h : validateAll [] rs = .error e) : update table rs = .done (.error e) := by
  rw [update, h]
  rfl

theorem update_eq {table : Path} {rs : List Record} (h : validateAll [] rs = .ok ()) :
    update table rs = .ask (.acquire .editing) fun _ => .ask (.outside (.readText table))
      (withText table fun text => backedUp table text (rewritten table (Table.ofRecords rs))) := by
  rw [update, h]
  change Job.ask (.acquire .editing) (fun _ => _) = _
  congr 1
  funext _
  refine Eq.trans (bind_readTextOrEmpty ?_) ?_
  · exact fun _ => rfl
  congr 2
  funext text
  refine bind_backUp ?_
  exact fun _ => rfl

/-! ### Moments of a call -/

def Sees (table : Path) (t : FileTree) (text : String) : Prop :=
  t.read table = .ok text ∨ t.read table = .error .notFound ∧ text = ""

theorem content_of_sees {table : Path} {t : FileTree} {text : String} (h : Sees table t text) :
    t.content table = some (.text text) ∨ t.content table = none ∧ text = "" := by
  rcases h with h | ⟨h, rfl⟩
  · exact .inl (FileTree.read_eq_ok_iff.1 h)
  · exact .inr ⟨FileTree.content_of_notFound h, rfl⟩

theorem Sees.eq_of_read {table : Path} {t : FileTree} {text text' : String}
    (h : Sees table t text) (hread : t.read table = .ok text') : text = text' := by
  rcases h with h | ⟨h, -⟩
  · rw [h] at hread
    exact Except.ok.inj hread
  · rw [h] at hread
    cases hread

theorem Sees.eq_of_notFound {table : Path} {t : FileTree} {text : String}
    (h : Sees table t text) (hread : t.read table = .error .notFound) : text = "" := by
  rcases h with h | ⟨-, h⟩
  · rw [h] at hread
    cases hread
  · exact h

theorem read_of_append {table : Path} {t t' : FileTree} {text s : String} (h : Sees table t text)
    (hput : t.Puts table (FileTree.appended s (t.content table)) t') :
    t'.read table = .ok (text ++ s) := by
  rw [FileTree.read_eq_ok_iff, hput.content_self (FileTree.appended_isFile _ _)]
  rcases content_of_sees h with hnode | ⟨hnode, rfl⟩
  · rw [hnode]
    rfl
  · rw [hnode, String.empty_append]
    rfl

theorem read_of_put {p : Path} {t t' : FileTree} {s : String} (hput : t.Puts p (.text s) t') :
    t'.read p = .ok s :=
  FileTree.read_eq_ok_iff.2 (hput.content_self rfl)

inductive AddMoment (tearing : Bool) (table : Path) (r : Record) (t : FileTree) :
    Job (Except Error Added) → FileTree → Prop
  | refused {e} (hr : r.validate = .error e) : AddMoment tearing table r t (.done (.error e)) t
  | reading (k) : AddMoment tearing table r t (.ask (.outside (.readText table)) k) t
  | unread (e) : AddMoment tearing table r t (.done (.error (.read table e))) t
  | exists {n text} (hr : r.validate = .ok n) (hsees : Sees table t text)
      (hn : Table.hasNumber n text = true) : AddMoment tearing table r t (.done (.ok .exists)) t
  | empty (hline : r.line = "") : AddMoment tearing table r t (.done (.error .emptyRecord)) t
  | appending (s k) : AddMoment tearing table r t (.ask (.outside (.appendText table s)) k) t
  | unwritten {t'} (e) (hput : t.Changed tearing table t') :
      AddMoment tearing table r t (.done (.error (.write table e))) t'
  | added {n text t'} (hr : r.validate = .ok n) (hsees : Sees table t text)
      (hn : Table.hasNumber n text = false)
      (hread : t'.read table = .ok (text ++ Table.entry text r))
      (hput : t.Puts table (FileTree.appended (Table.entry text r) (t.content table)) t') :
      AddMoment tearing table r t (.done (.ok .added)) t'

/-- The moments of writing the table anew, which began with the tree `t`. `early` tells why it may
be refused, `sees` which text may be found, and `next?` what is to be written, if anything. -/
inductive RewriteMoment (tearing : Bool) (table : Path) (early : Error → Prop)
    (sees : String → Prop) (next? : String → Option String) (t : FileTree) :
    Job (Except Error Unit) → FileTree → Prop
  | refused {e} (he : early e) :
      RewriteMoment tearing table early sees next? t (.done (.error e)) t
  | reading (k) :
      RewriteMoment tearing table early sees next? t (.ask (.outside (.readText table)) k) t
  | unread (e) : RewriteMoment tearing table early sees next? t (.done (.error (.read table e))) t
  | saving (text k) : RewriteMoment tearing table early sees next? t
      (.ask (.outside (.writeText (backupPath table) text)) k) t
  | unsaved {t'} (e) (hput : t.Changed tearing (backupPath table) t') :
      RewriteMoment tearing table early sees next? t
        (.done (.error (.backup (backupPath table) e))) t'
  | skipped {text t'} (hsees : sees text) (hput : t.Puts (backupPath table) (.text text) t')
      (hnext : next? text = none) :
      RewriteMoment tearing table early sees next? t (.done (.ok ())) t'
  | writing {text t' s} (hsees : sees text) (hput : t.Puts (backupPath table) (.text text) t')
      (hnext : next? text = some s) (k) :
      RewriteMoment tearing table early sees next? t (.ask (.outside (.writeText table s)) k) t'
  | unwritten {text t' t''} (hsees : sees text)
      (hput : t.Puts (backupPath table) (.text text) t') (e)
      (hput' : t'.Changed tearing table t'') :
      RewriteMoment tearing table early sees next? t (.done (.error (.write table e))) t''
  | written {text t' t'' s} (hsees : sees text)
      (hput : t.Puts (backupPath table) (.text text) t') (hnext : next? text = some s)
      (hput' : t'.Puts table (.text s) t'') :
      RewriteMoment tearing table early sees next? t (.done (.ok ())) t''

section

variable {tearing : Bool} {table : Path} {t : FileTree}

theorem always_freed {P : Job α → FileTree → Prop} {a : α} (h : P (.done a) t) :
    Always tearing P (freed a) t :=
  always_release (always_done h)

theorem always_withText {P : Job (Except Error α) → FileTree → Prop}
    {k : String → Job (Except Error α)}
    (hask : P (.ask (.outside (.readText table)) (withText table k)) t)
    (herror : ∀ e, P (.done (.error (.read table e))) t)
    (hk : ∀ text, Sees table t text → Always tearing P (k text) t) :
    Always tearing P (.ask (.outside (.readText table)) (withText table k)) t := by
  refine always_outside hask fun m? a t' _ h => ?_
  obtain ⟨rfl, ha⟩ := FileTree.access_readText h
  rcases ha with rfl | ⟨e, he, rfl⟩
  · cases hread : t'.read table with
    | ok text => exact hk text (.inl hread)
    | error e =>
      cases e with
      | notFound => exact hk "" (.inr ⟨hread, rfl⟩)
      | _ => exact always_freed (herror _)
  · cases e with
    | notFound => contradiction
    | _ => exact always_freed (herror _)

theorem always_add (tearing : Bool) (table : Path) (r : Record) (t : FileTree) :
    Always tearing (AddMoment tearing table r t) (add table r) t := by
  cases hr : r.validate with
  | error e =>
    rw [add_eq_error hr]
    exact always_done (.refused hr)
  | ok n =>
    rw [add_eq hr]
    refine always_acquire (always_withText (.reading _) .unread fun text hsees => ?_)
    rw [appendedTo]
    split
    next hn => exact always_freed (.exists hr hsees hn)
    next hn =>
      split
      next hline => exact always_freed (.empty hline)
      next =>
        refine always_outside (.appending _ _) fun m? a t' hm hacc => always_freed ?_
        rcases FileTree.access_appendText hm hacc with ⟨rfl, hput⟩ | ⟨e, rfl, hput⟩
        · exact .added hr hsees (by simpa using hn) (read_of_append hsees hput) hput
        · exact .unwritten e hput

theorem always_backedUp {early : Error → Prop} {sees : String → Prop}
    {next? : String → Option String} {text : String} (hsees : sees text) :
    Always tearing (RewriteMoment tearing table early sees next? t)
      (backedUp table text (match next? text with
        | none => freed (.ok ())
        | some s => rewritten table s)) t := by
  refine always_outside (.saving text _) fun m? a t' hm hacc => ?_
  rcases FileTree.access_writeText hm hacc with ⟨rfl, hput⟩ | ⟨e, rfl, hput⟩
  · dsimp only
    split
    next hnext => exact always_freed (.skipped hsees hput hnext)
    next s hnext =>
      refine always_outside (.writing hsees hput hnext _) fun m? a t'' hm hacc => always_freed ?_
      rcases FileTree.access_writeText hm hacc with ⟨rfl, hput'⟩ | ⟨e, rfl, hput'⟩
      · exact .written hsees hput hnext hput'
      · exact .unwritten hsees hput e hput'
  · exact always_freed (.unsaved e hput)

/-- What removing tools writes into the table; a negative number stands for no change. -/
def withoutUnlessSkipped (ns : List Int) (text : String) : Option String :=
  if ns.any (· < 0) then none else some (Table.without ns text)

theorem always_remove (tearing : Bool) (table : Path) (ns : List Int) (t : FileTree) :
    Always tearing (RewriteMoment tearing table (fun _ => False) (t.read table = .ok ·)
      (withoutUnlessSkipped ns) t) (remove table ns) t := by
  rw [remove_eq]
  refine always_acquire (always_outside (.reading _) fun m? a t' _ hacc => ?_)
  obtain ⟨rfl, ha⟩ := FileTree.access_readText hacc
  rcases a with e | text
  · exact always_freed (.unread e)
  · have hread : t'.read table = .ok text := by
      rcases ha with ha | ⟨e, -, ha⟩
      · exact ha.symm
      · cases ha
    -- leaving the table as it is counts as writing nothing
    have hnext : (if ns.any (· < 0) then freed (.ok ())
          else rewritten table (Table.without ns text)) =
        (match withoutUnlessSkipped ns text with
          | none => freed (.ok ())
          | some s => rewritten table s) := by
      rw [withoutUnlessSkipped]
      split <;> rfl
    dsimp only
    rw [hnext]
    exact always_backedUp hread

theorem always_update (tearing : Bool) (table : Path) (rs : List Record) (t : FileTree) :
    Always tearing (RewriteMoment tearing table (validateAll [] rs = .error ·) (Sees table t)
      (fun _ => some (Table.ofRecords rs)) t) (update table rs) t := by
  cases hrs : validateAll [] rs with
  | error e =>
    rw [update_eq_error hrs]
    exact always_done (.refused rfl)
  | ok =>
    rw [update_eq hrs]
    exact always_acquire (always_withText (.reading _) .unread fun text hsees =>
      always_backedUp hsees)

end

end Store

end MillGateway.Tool
