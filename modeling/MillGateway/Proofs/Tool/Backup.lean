import MillGateway.Proofs.Tool.Store

/-! The backup of the tool table. Main statement: whatever goes amiss with the files, the table is
written anew only once its old text is in the backup. -/

namespace MillGateway.Tool

def Error.isEarly : Error → Bool
  | .missingNumber | .invalidNumber _ | .duplicateNumber _ | .malformedField _ => true
  | .emptyRecord | .read _ _ => true
  | .backup _ _ | .write _ _ => false

theorem Record.isEarly_of_validate {r : Record} {e : Error} (h : r.validate = .error e) :
    e.isEarly = true := by
  rw [validate] at h
  split at h <;> cases h <;> rfl

theorem isEarly_of_validateAll {seen : List Int} {rs : List Record} {e : Error}
    (h : validateAll seen rs = .error e) : e.isEarly = true := by
  induction rs generalizing seen with
  | nil => cases h
  | cons r rs ih =>
    rw [validateAll] at h
    cases hr : r.validate with
    | error e' =>
      rw [hr] at h
      cases h
      exact Record.isEarly_of_validate hr
    | ok n =>
      rw [hr] at h
      change (if seen.contains n then _ else _) = _ at h
      split at h
      next =>
        cases h
        rfl
      next => exact ih h

namespace Store

open Job

inductive Committed (table : Path) : Job (Except Error Unit) → Prop
  | writing (s k) : Committed table (.ask (.outside (.writeText table s)) k)
  | failed (e) : Committed table (.done (.error (.write table e)))
  | done : Committed table (.done (.ok ()))

section

variable {table : Path} {t t' : FileTree} {early : Error → Prop} {sees : String → Prop}
  {next? : String → Option String} {j : Job (Except Error Unit)} {r : Record}

theorem content_of_changed {p q : Path} (h : t.Changed true p t') (hpq : t.Apart p q) :
    t'.content q = t.content q := by
  rcases h with rfl | ⟨-, n, hn, hput⟩
  · rfl
  · exact (hput.apart hn hpq).1

theorem RewriteMoment.eq_of_early {e : Error}
    (h : RewriteMoment true table early sees next? t (.done (.error e)) t')
    (he : e.isEarly = true) : t' = t := by
  cases h with
  | refused => rfl
  | unread => rfl
  | unsaved => cases he
  | unwritten => cases he

theorem RewriteMoment.content_of_unsaved {p : Path} {e : FileError}
    (hearly : ∀ e, early e → e.isEarly = true) (hapart : t.Apart table (backupPath table))
    (h : RewriteMoment true table early sees next? t (.done (.error (.backup p e))) t') :
    t'.content table = t.content table := by
  cases h with
  | refused he => cases hearly _ he
  | unsaved e hput => exact content_of_changed hput hapart.symm

theorem RewriteMoment.committed (hapart : t.Apart table (backupPath table))
    (h : RewriteMoment true table early sees next? t j t')
    (hj : t'.content table ≠ t.content table) : Committed table j := by
  cases h with
  | refused | reading | unread | saving => exact absurd rfl hj
  | unsaved e hput => exact absurd (content_of_changed hput hapart.symm) hj
  | skipped | written => exact .done
  | writing _ _ _ k => exact .writing _ k
  | unwritten _ _ e _ => exact .failed e

theorem RewriteMoment.read_backup (hearly : ∀ e, early e → e.isEarly = true)
    (hapart : t.Apart table (backupPath table))
    (h : RewriteMoment true table early sees next? t j t')
    (hj : t'.content table ≠ t.content table ∨ Committed table j) :
    ∃ text, sees text ∧ t'.read (backupPath table) = .ok text := by
  -- writing the table changes nothing at the other path
  have hkeeps : ∀ {text u u'}, t.Puts (backupPath table) (.text text) u →
      u.Changed true table u' → u'.read (backupPath table) = .ok text := by
    intro text u u' hput hput'
    have hsaved := FileTree.read_eq_ok_iff.1 (read_of_put hput)
    have hstill := (hput.apart rfl hapart.symm).2.symm
    rw [FileTree.read_eq_ok_iff, content_of_changed hput' hstill, hsaved]
  replace hj : Committed table j := hj.elim (h.committed hapart) id
  cases h with
  | refused he =>
    cases hj with
    | failed => cases hearly _ he
  | reading => cases hj
  | unread => cases hj
  -- the backup goes to a path of its own
  | saving text k =>
    generalize hp : backupPath table = p at hj
    cases hj
    exact absurd hp (backupPath_ne table)
  | unsaved => cases hj
  | skipped hsees hput _ => exact ⟨_, hsees, read_of_put hput⟩
  | writing hsees hput _ _ => exact ⟨_, hsees, read_of_put hput⟩
  | unwritten hsees hput _ hput' => exact ⟨_, hsees, hkeeps hput hput'⟩
  | written hsees hput _ hput' => exact ⟨_, hsees, hkeeps hput (.inr ⟨rfl, _, rfl, hput'⟩)⟩

theorem AddMoment.eq_of_early {e : Error} (h : AddMoment true table r t (.done (.error e)) t')
    (he : e.isEarly = true) : t' = t := by
  cases h with
  | refused => rfl
  | unread => rfl
  | empty => rfl
  | unwritten => cases he

theorem AddMoment.content_backup {j : Job (Except Error Added)}
    (hapart : t.Apart table (backupPath table)) (h : AddMoment true table r t j t') :
    t'.content (backupPath table) = t.content (backupPath table) := by
  cases h with
  | refused | reading | unread | «exists» | empty | appending => rfl
  | unwritten e hput => exact content_of_changed hput hapart
  | added _ _ _ _ hput => exact (hput.apart (FileTree.appended_isFile _ _) hapart).1

theorem AddMoment.text_grows (h : AddMoment true table r t (.done (.ok .added)) t') :
    ∃ old new, Sees table t old ∧ t'.read table = .ok (old ++ new) := by
  cases h with
  | added _ hsees _ hread _ => exact ⟨_, _, hsees, hread⟩

/-- Whatever goes amiss, an early error leaves the files as they were, a failed backup leaves the
table as it was, the backup holds the old text before and after the table is written anew, and
adding writes behind the old text alone. -/
theorem edits_back_up_first (hapart : t.Apart table (backupPath table))
    (ms : List (Option Mishap)) :
    (∀ e t', e.isEarly = true →
      ((∃ r, (add table r).after t ms = (.done (.error e), t')) ∨
        (∃ ns, (remove table ns).after t ms = (.done (.error e), t')) ∨
        ∃ rs, (update table rs).after t ms = (.done (.error e), t')) → t' = t) ∧
    (∀ p e t',
      ((∃ ns, (remove table ns).after t ms = (.done (.error (.backup p e)), t')) ∨
        ∃ rs, (update table rs).after t ms = (.done (.error (.backup p e)), t')) →
      t'.content table = t.content table) ∧
    (∀ ns j t', (remove table ns).after t ms = (j, t') →
      (t'.content table ≠ t.content table ∨ Committed table j) →
      ∃ text, t.read table = .ok text ∧ t'.read (backupPath table) = .ok text) ∧
    (∀ rs j t', (update table rs).after t ms = (j, t') →
      (t'.content table ≠ t.content table ∨ Committed table j) →
      ∃ text, Sees table t text ∧ t'.read (backupPath table) = .ok text) ∧
    ∀ r, ((add table r).after t ms).2.content (backupPath table) =
        t.content (backupPath table) ∧
      ∀ t', (add table r).after t ms = (.done (.ok .added), t') →
        ∃ old new, Sees table t old ∧ t'.read table = .ok (old ++ new) := by
  have hadd := fun r => always_add true table r t
  have hremove := fun ns => always_remove true table ns t
  have hupdate := fun rs => always_update true table rs t
  refine ⟨?_, ?_, fun ns j t' hend hj => ?_, fun rs j t' hend hj => ?_, fun r => ⟨?_, ?_⟩⟩
  · rintro e t' he (⟨r, hend⟩ | ⟨ns, hend⟩ | ⟨rs, hend⟩)
    · exact ((hadd r).of_after hend).eq_of_early he
    · exact ((hremove ns).of_after hend).eq_of_early he
    · exact ((hupdate rs).of_after hend).eq_of_early he
  · rintro p e t' (⟨ns, hend⟩ | ⟨rs, hend⟩)
    · exact ((hremove ns).of_after hend).content_of_unsaved (fun _ => False.elim) hapart
    · exact ((hupdate rs).of_after hend).content_of_unsaved (fun _ => isEarly_of_validateAll) hapart
  · exact ((hremove ns).of_after hend).read_backup (fun _ => False.elim) hapart hj
  · exact ((hupdate rs).of_after hend).read_backup (fun _ => isEarly_of_validateAll) hapart hj
  · exact ((hadd r).of_after (Prod.eta _).symm).content_backup hapart
  · intro t' hend
    exact ((hadd r).of_after hend).text_grows

theorem edits_back_up_first_torn_table :
    let t : FileTree := { nodes := [(["tool.tbl"], .text "T1\nT2\n")] }
    let t' := ((remove ⟨"tool.tbl"⟩ [1]).after t
      [none, none, some (.tears (.other "No space left on device" 28) (.text "T") rfl)]).2
    t'.read ⟨"tool.tbl"⟩ = .ok "T" ∧ t'.read (backupPath ⟨"tool.tbl"⟩) = t.read ⟨"tool.tbl"⟩ := by
  intro t t'
  have hapart : t.Apart ⟨"tool.tbl"⟩ (backupPath ⟨"tool.tbl"⟩) := by decide +kernel
  have htorn : t'.read ⟨"tool.tbl"⟩ = .ok "T" := by decide +kernel
  have hchanged : t'.content ⟨"tool.tbl"⟩ ≠ t.content ⟨"tool.tbl"⟩ := by
    intro heq
    have hread : t.read ⟨"tool.tbl"⟩ = .ok "T" :=
      FileTree.read_eq_ok_iff.2 (heq ▸ FileTree.read_eq_ok_iff.1 htorn)
    exact absurd hread (by decide +kernel)
  obtain ⟨-, -, hremove, -⟩ := edits_back_up_first hapart
    [none, none, some (.tears (.other "No space left on device" 28) (.text "T") rfl)]
  obtain ⟨text, hread, hsaved⟩ := hremove [1] _ t' (Prod.eta _).symm (.inl hchanged)
  exact ⟨htorn, hsaved.trans hread.symm⟩

end

end Store

end MillGateway.Tool
