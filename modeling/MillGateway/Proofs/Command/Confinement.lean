import MillGateway.Proofs.Command.Attempts
import MillGateway.Proofs.Command.Upload

/-! What an upload writes, and what it has the controller open. Main statement: both are a file of
the staging directory that has the name of the program, and a name that could lead elsewhere is
refused. -/

namespace MillGateway

def Outside.write? : Outside → Option (Path × String)
  | .writeText p text | .appendText p text => some (p, text)
  | _ => none

def written (os : List Outside) : List (Path × String) :=
  os.filterMap Outside.write?

namespace Request

theorem write?_of_not_isFile {r : Request} (hr : r.isFile = false) (a : r.Answer) :
    (Exchange.outside? ⟨r, a⟩).bind Outside.write? = none := by
  cases r with
  | outside o => cases o <;> first | rfl | cases hr
  | _ => rfl

end Request

namespace Job

variable {j j' : Job α} {t t' : List Exchange}

theorem asks_noFile_execute (a : Link.Action) (limit : Nat) :
    (execute a limit).Asks fun r => r.isFile = false := by
  refine Asks.bind (j := isAlive) (Asks.locked rfl rfl ⟨rfl, fun _ => trivial⟩) fun alive => ?_
  cases alive with
  | false => trivial
  | true =>
    refine ⟨rfl, fun x => ?_⟩
    cases x with
    | error e => trivial
    | ok h =>
      dsimp only
      split
      · exact ⟨rfl, fun _ => trivial⟩
      · exact ⟨rfl, fun _ => trivial⟩

theorem written_of_asks (hj : j.Asks fun r => r.isFile = false) (h : j.Reaches t j') :
    written (Exchange.outsides t) = [] := by
  rw [written, Exchange.outsides, List.filterMap_filterMap]
  exact List.filterMap_eq_nil_iff.2 fun x hx =>
    Request.write?_of_not_isFile ((h.asks hj).2 x hx) x.2

end Job

namespace Handle

open Job Attempt

variable {setup : Setup} {name content : String} {t : List Exchange}

theorem asks_noFile_attempt (a : Link.Action) (limit : Nat) :
    (attempt a limit).Asks fun r => r.isFile = false :=
  (asks_noFile_execute a limit).bind fun _ => True.intro

theorem asks_noFile_opening (p : Path) : (opening p).Asks fun r => r.isFile = false :=
  (asks_noFile_attempt _ _).bind fun _ => (asks_noFile_attempt _ _).bind fun _ =>
    (asks_noFile_execute _ _).bind fun _ => (asks_noFile_attempt _ _).bind fun _ => trivial

def openingActions (p : Path) : List Link.Action :=
  [.resetInterpreter, .mode .auto, .programOpen p, .mode .manual]

theorem loadGcode_refused (hname : Path.isPlainName name = false) :
    loadGcode setup name content = .done (.of (.badProgramName name)) := by
  rw [loadGcode, hname]
  rfl

theorem written_of_loadGcode (hname : Path.isPlainName name = true) {j : Job Reply}
    (h : (loadGcode setup name content).Reaches t j) :
    t = [] ∧ (∀ r, j ≠ .done r) ∨
      written (Exchange.outsides t) = [(setup.staged name, content)] := by
  rw [loadGcode_eq hname] at h
  cases t with
  | nil =>
    refine .inl ⟨rfl, fun r hdone => ?_⟩
    cases hdone.symm.trans h.eq_of_nil
  | cons x t =>
    obtain ⟨saved, rfl, hrest⟩ := h.cons_cases
    have hnone : written (Exchange.outsides t) = [] := by
      cases saved with
      | error e =>
        obtain ⟨rfl, -⟩ := hrest.done_cases
        rfl
      | ok u =>
        have hopening : (opening (setup.staged name)).Reaches t j := hrest
        exact written_of_asks (asks_noFile_opening _) hopening
    exact .inr (congrArg ((setup.staged name, content) :: ·) hnone)

theorem issued_of_loadGcode {r : Reply} (h : (loadGcode setup name content).Reaches t (.done r)) :
    (issued (Exchange.outsides t)).Sublist (openingActions (setup.staged name)) ∧
      (r.code = 0 → .programOpen (setup.staged name) ∈ issued (Exchange.outsides t)) := by
  obtain ⟨as, hattempts, htraced⟩ := attempts_loadGcode setup name content t r h
  rw [htraced.issued]
  rcases hattempts with ⟨rfl, hcode⟩ | ⟨hactions, hreply⟩
  · refine ⟨List.nil_sublist _, fun hzero => ?_⟩
    rw [hzero] at hcode
    exact absurd hcode (by decide)
  · refine ⟨?_, fun hzero => ?_⟩
    · have hsub := (List.filter_sublist (l := as) (p := Attempt.alive)).map Attempt.action
      rwa [hactions] at hsub
    · obtain ⟨x, hx, rfl⟩ := Option.map_eq_some_iff.1 hreply
      have hmem : x ∈ as := List.mem_of_getElem? hx
      have halive : x.alive = true := by
        by_contra hdown
        rw [(htraced.skipped x hmem).2 (by simpa using hdown)] at hzero
        exact absurd hzero (by decide : (-2 : Int32) ≠ 0)
      have haction : x.action = .programOpen (setup.staged name) := by
        have hthird := congrArg (·[2]?) hactions
        rw [List.getElem?_map, hx] at hthird
        exact Option.some.inj hthird
      rw [← haction]
      exact List.mem_map_of_mem (List.mem_filter.2 ⟨hmem, halive⟩)

end Handle

open Handle

/-- A name is accepted if it is not empty, no single or double dot, and without slashes of either
kind. The path of a program adds nothing but its name to the staging directory, which is the
directory of that path; names that differ give different paths. An upload writes nothing else than
the program to this path, and has the controller open no other, which it does before it goes well. If
the name is not accepted, nothing at all is asked outside. -/
theorem uploads_stay_inside (setup : Setup) (name content : String) :
    (Path.isPlainName name = true ↔
      name ≠ "" ∧ name ≠ "." ∧ name ≠ ".." ∧ '/' ∉ name.toList ∧ '\\' ∉ name.toList) ∧
    (Path.isPlainName name = true →
      (setup.staged name).components =
        setup.stagingDir.components ++ [.name name.toList] ∧
      (∃ dir, (setup.staged name).parent? = some dir ∧
        dir.components = setup.stagingDir.components) ∧
      (∀ name', Path.isPlainName name' = true → name' ≠ name →
        (setup.staged name').components ≠ (setup.staged name).components) ∧
      (∀ t j, (loadGcode setup name content).Reaches t j →
        written (Exchange.outsides t) <+: [(setup.staged name, content)] ∧
        (issued (Exchange.outsides t)).Sublist (openingActions (setup.staged name))) ∧
      ∀ t r, (loadGcode setup name content).Reaches t (.done r) →
        written (Exchange.outsides t) = [(setup.staged name, content)] ∧
        (r.code = 0 → .programOpen (setup.staged name) ∈ issued (Exchange.outsides t))) ∧
    (Path.isPlainName name = false →
      ∀ t j, (loadGcode setup name content).Reaches t j →
        Exchange.outsides t = [] ∧ j = .done (.of (.badProgramName name))) := by
  refine ⟨Path.isPlainName_iff, fun hname => ⟨Path.components_join hname, Path.parent?_join hname,
    fun name' hname' hne hsame => ?_, fun t j h => ⟨?_, ?_⟩, fun t r h => ⟨?_, ?_⟩⟩,
    fun hname t j h => ?_⟩
  · rw [Setup.staged, Setup.staged, Path.components_join hname, Path.components_join hname'] at hsame
    have hlast := List.append_cancel_left hsame
    exact hne (String.toList_inj.1 (Path.Component.name.inj (List.cons.inj hlast).1))
  · rcases written_of_loadGcode hname h with ⟨rfl, -⟩ | hwritten
    · exact List.nil_prefix
    · exact hwritten ▸ List.prefix_rfl
  · obtain ⟨t', r, hend⟩ := h.exists_end
    have hsub := (issued_of_loadGcode hend).1
    rw [Exchange.outsides, issued, List.filterMap_append, List.filterMap_append] at hsub
    exact (List.sublist_append_left _ _).trans hsub
  · rcases written_of_loadGcode hname h with ⟨-, hnot⟩ | hwritten
    · exact absurd rfl (hnot r)
    · exact hwritten
  · exact (issued_of_loadGcode h).2
  · rw [loadGcode_refused hname] at h
    obtain ⟨rfl, rfl⟩ := h.done_cases
    exact ⟨rfl, rfl⟩

def slashes : Setup :=
  { (default : Setup) with stagingDir := ⟨"/tmp//up/"⟩ }

def uploading (p : Path) : List Exchange :=
  let look : List Exchange :=
    [⟨.acquire .cache, ()⟩, ⟨.inside .cache, ({ alive := true } : Cache)⟩, ⟨.release .cache, ()⟩]
  let await (h : Link.Handle) (limit : Nat) : Exchange :=
    ⟨.outside (.waitWithin h limit), some (.ok .done)⟩
  ⟨.outside (.writeText p "M2"), .ok ()⟩ ::
    (look ++ [⟨.outside (.link (.issue .resetInterpreter)), .ok 1⟩,
      ⟨.outside (.link (.wait 1 0)), .ok .done⟩] ++
    (look ++ [⟨.outside (.link (.issue (.mode .auto))), .ok 2⟩, await 2 Timing.programMode] ++
    (look ++ [⟨.outside (.link (.issue (.programOpen p))), .ok 3⟩, await 3 Timing.programOpen] ++
    (look ++ [⟨.outside (.link (.issue (.mode .manual))), .ok 4⟩, await 4 Timing.programMode]))))

theorem reaches_uploading : (loadGcode slashes "a.ngc" "M2").Reaches
    (uploading (slashes.staged "a.ngc")) (.done (.of .ok)) := by
  rw [loadGcode_eq (by decide)]
  refine .cons _ ?_
  refine .cons _ (.cons _ (.cons _ (.cons _ (.cons _ ?_))))
  refine .cons _ (.cons _ (.cons _ (.cons _ (.cons _ ?_))))
  refine .cons _ (.cons _ (.cons _ (.cons _ (.cons _ ?_))))
  exact .cons _ (.cons _ (.cons _ (.cons _ (.cons _ (.refl _)))))

theorem uploads_stay_inside_slashes :
    (slashes.staged "a.ngc").components = [.root, .name ['t', 'm', 'p'], .name ['u', 'p'],
      .name ['a', '.', 'n', 'g', 'c']] ∧
    written (Exchange.outsides (uploading (slashes.staged "a.ngc"))) =
      [(slashes.staged "a.ngc", "M2")] ∧
    .programOpen (slashes.staged "a.ngc") ∈
      issued (Exchange.outsides (uploading (slashes.staged "a.ngc"))) ∧
    ∀ t j, (loadGcode slashes "a/." "M2").Reaches t j → Exchange.outsides t = [] := by
  obtain ⟨-, hplain, -⟩ := uploads_stay_inside slashes "a.ngc" "M2"
  obtain ⟨-, -, hrefused⟩ := uploads_stay_inside slashes "a/." "M2"
  obtain ⟨hcomponents, -, -, -, hend⟩ := hplain (by decide)
  obtain ⟨hwritten, hopened⟩ := hend _ _ reaches_uploading
  have hdir : slashes.stagingDir.components = [.root, .name ['t', 'm', 'p'], .name ['u', 'p']] := by
    decide
  have hname : "a.ngc".toList = ['a', '.', 'n', 'g', 'c'] := by decide
  refine ⟨?_, hwritten, hopened rfl, fun t j h => (hrefused (by decide) t j h).1⟩
  rw [hcomponents, hdir, hname]
  rfl

end MillGateway
