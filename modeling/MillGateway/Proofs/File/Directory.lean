import MillGateway.Proofs.File.PlainName
import MillGateway.Proofs.File.Tree

/-! Files of one directory under plain names. Main statement: different names lead to different
places where no name is a link, and they do so still after files were put anywhere. -/

namespace MillGateway

namespace Path

theorem exists_join (dir : Path) : ∃ base ss, ∀ name : String, '/' ∉ name.toList →
    (dir.join ⟨name⟩).text = base ++ name ∧
    FileTree.stretches (dir.join ⟨name⟩) = ss ++ [name] ∧
    (dir.join ⟨name⟩).isAbsolute = dir.isAbsolute := by
  obtain ⟨base, ss, -, -, -, hjoin⟩ := dir.exists_pieces_join
  refine ⟨base, ss.map String.ofList, fun name h => ?_⟩
  obtain ⟨htext, hpieces, habsolute⟩ := hjoin name h
  refine ⟨htext, ?_, habsolute⟩
  rw [FileTree.stretches, hpieces, List.map_append, List.map_singleton, String.ofList_toList]

end Path

namespace FileTree

/-- A directory is at a place: names that are joined to its path are looked up there. -/
def LeadsTo (t : FileTree) (dir : Path) (d : FilePlace) : Prop :=
  t.find (dir.join ⟨"."⟩) = .ok ⟨d, some .dir, false⟩

/-- Where a name in a directory leads: to its own place, unless a link stands there. -/
def Spot.IsEntry (t : FileTree) (d : FilePlace) (name : String) (s : Spot) : Prop :=
  s.place = d ++ [name] ∨ ∃ target, t.node? (d ++ [name]) = some (.link target)

section

variable {t : FileTree} {f : FilePlace → List String → Except FileError Spot} {name : String}
  {s : Spot}

theorem walk_here (here : FilePlace) :
    t.walk f here ["."] = .ok ⟨here, some .dir, false⟩ := by
  rw [walk, if_pos (by decide)]
  rfl

theorem isEntry_of_walk (hname : Path.isPlainName name = true) {d : FilePlace}
    (h : t.walk f d [name] = .ok s) : s.IsEntry t d name := by
  have hdot : ¬ (name = "" || name = ".") = true := by
    simp [Path.ne_empty_of_isPlainName hname, Path.ne_here_of_isPlainName hname]
  rw [walk, if_neg hdot, if_neg (Path.ne_up_of_isPlainName hname)] at h
  split at h
  · cases h
  · dsimp only at h
    cases hnode : t.node? (d ++ [name]) with
    | none =>
      rw [hnode] at h
      cases h
      exact .inl rfl
    | some n =>
      rw [hnode] at h
      cases n with
      | link target => exact .inr ⟨target, hnode⟩
      | dir | text | bytes =>
        cases h
        exact .inl rfl

theorem walk_into (hname : Path.isPlainName name = true)
    (hf : ∀ {here ss s}, f here (ss ++ [name]) = .ok s →
      ∃ d, f here (ss ++ ["."]) = .ok ⟨d, some .dir, false⟩ ∧ s.IsEntry t d name)
    {here : FilePlace} {ss : List String} (h : t.walk f here (ss ++ [name]) = .ok s) :
    ∃ d, t.walk f here (ss ++ ["."]) = .ok ⟨d, some .dir, false⟩ ∧ s.IsEntry t d name := by
  induction ss generalizing here with
  | nil => exact ⟨here, walk_here here, isEntry_of_walk hname h⟩
  | cons w ss ih =>
    rw [List.cons_append] at h ⊢
    by_cases hdot : (w = "" || w = ".") = true
    · rw [walk, if_pos hdot] at h
      rw [walk, if_pos hdot]
      exact ih h
    by_cases hup : w = ".."
    · rw [walk, if_neg hdot, if_pos hup] at h
      rw [walk, if_neg hdot, if_pos hup]
      exact ih h
    by_cases hlong : maxName < w.utf8ByteSize
    · rw [walk, if_neg hdot, if_neg hup, if_pos hlong] at h
      cases h
    by_cases hq : IsLeaf (t.node? (here ++ [w]))
    · -- the name that is still to come cannot be below a file, or below nothing
      obtain ⟨e, hw⟩ := walk_leaf f (ss ++ [name]) hdot hup hlong hq
      have hends : ¬ (ss ++ [name]).all (· == "") = true := by
        simp [Path.ne_empty_of_isPlainName hname]
      rw [hw, if_neg hends] at h
      cases h
    · rw [walk, if_neg hdot, if_neg hup, if_neg hlong] at h ⊢
      dsimp only at h ⊢
      rcases eq_dir_or_link hq with hnode | ⟨target, hnode⟩
      · rw [hnode] at h ⊢
        exact ih h
      · rw [hnode] at h ⊢
        dsimp only at h ⊢
        split at h
        · cases h
        next hempty =>
          rw [if_neg hempty, ← List.append_assoc]
          rw [← List.append_assoc] at h
          exact hf h

theorem walkLinks_into (hname : Path.isPlainName name = true) {links : Nat} {here : FilePlace}
    {ss : List String} (h : t.walkLinks links here (ss ++ [name]) = .ok s) :
    ∃ d, t.walkLinks links here (ss ++ ["."]) = .ok ⟨d, some .dir, false⟩ ∧
      s.IsEntry t d name := by
  induction links generalizing here ss s with
  | zero => exact walk_into hname (fun hlost => by cases hlost) h
  | succ links ih => exact walk_into hname ih h

theorem find_eq_ok_iff {p : Path} : t.find p = .ok s ↔
    '\x00' ∉ p.text.toList ∧ p.text ≠ "" ∧ p.text.utf8ByteSize ≤ maxPath ∧
      t.walkLinks maxLinks (if p.isAbsolute then [] else t.current) (stretches p) = .ok s := by
  rw [find, ← Nat.not_lt]
  generalize t.walkLinks maxLinks (if p.isAbsolute then [] else t.current) (stretches p) = r
  split_ifs with hnul hempty hlong
  · simp_all
  · simp_all
  · simp_all
  · simp_all

theorem find_join {dir : Path} (hname : Path.isPlainName name = true)
    (h : t.find (dir.join ⟨name⟩) = .ok s) : ∃ d, t.LeadsTo dir d ∧ s.IsEntry t d name := by
  obtain ⟨base, ss, hjoin⟩ := dir.exists_join
  obtain ⟨htext, hstretches, habsolute⟩ := hjoin name (Path.no_slash_of_isPlainName hname)
  obtain ⟨htext', hstretches', habsolute'⟩ := hjoin "." (by decide)
  rw [find_eq_ok_iff, htext, hstretches, habsolute] at h
  obtain ⟨hnul, -, hlong, hwalk⟩ := h
  obtain ⟨d, hwalk', hentry⟩ := walkLinks_into hname hwalk
  refine ⟨d, find_eq_ok_iff.2 ?_, hentry⟩
  rw [htext', hstretches', habsolute']
  -- a single dot is no longer than the name
  have hsize : 0 < name.utf8ByteSize := by
    rw [Nat.pos_iff_ne_zero, ne_eq, String.utf8ByteSize_eq_zero_iff]
    exact Path.ne_empty_of_isPlainName hname
  have hdot : ".".utf8ByteSize = 1 := by rfl
  rw [String.utf8ByteSize_append] at hlong
  refine ⟨?_, ?_, ?_, hwalk'⟩
  · rw [String.toList_append, List.mem_append, not_or] at hnul ⊢
    exact ⟨hnul.1, by decide⟩
  · intro hempty
    have hbytes := congrArg String.utf8ByteSize hempty
    rw [String.utf8ByteSize_append, hdot] at hbytes
    exact absurd hbytes (Nat.succ_ne_zero _)
  · rw [String.utf8ByteSize_append]
    omega

end

def HasNoLinks (t : FileTree) (dir : Path) : Prop :=
  ∀ d, t.LeadsTo dir d → ∀ name target, t.node? (d ++ [name]) ≠ some (.link target)

def IsOutside (t : FileTree) (dir p : Path) : Prop :=
  ∀ d s, t.LeadsTo dir d → t.find p = .ok s → ¬ d <+: s.place

section

variable {t t' : FileTree} {dir p q : Path} {name name' : String}

theorem LeadsTo.unique {d d' : FilePlace} (h : t.LeadsTo dir d) (h' : t.LeadsTo dir d') :
    d = d' := by
  rw [LeadsTo, h] at h'
  cases h'
  rfl

theorem LeadsTo.isOutside {d : FilePlace} {s : Spot} (hd : t.LeadsTo dir d)
    (hp : t.find p = .ok s) (h : ¬ d <+: s.place) : t.IsOutside dir p := by
  intro d' s' hd' hp'
  rw [hp] at hp'
  cases hp'
  rw [hd'.unique hd]
  exact h

theorem HasNoLinks.place_eq (hdir : t.HasNoLinks dir) (hname : Path.isPlainName name = true)
    {s : Spot} (h : t.find (dir.join ⟨name⟩) = .ok s) :
    ∃ d, t.LeadsTo dir d ∧ s.place = d ++ [name] := by
  obtain ⟨d, hd, hplace | ⟨target, hlink⟩⟩ := find_join hname h
  · exact ⟨d, hd, hplace⟩
  · exact absurd hlink (hdir d hd name target)

theorem apart_of_ne (hdir : t.HasNoLinks dir) (hname : Path.isPlainName name = true)
    (hname' : Path.isPlainName name' = true) (hne : name ≠ name') :
    t.Apart (dir.join ⟨name⟩) (dir.join ⟨name'⟩) := by
  intro a b ha hb hab
  obtain ⟨d, hd, hplace⟩ := hdir.place_eq hname ha
  obtain ⟨d', hd', hplace'⟩ := hdir.place_eq hname' hb
  rw [hplace, hplace'] at hab
  have hlast := (List.append_inj' hab rfl).2
  exact hne (List.singleton_inj.1 hlast)

theorem apart_of_isOutside (hdir : t.HasNoLinks dir) (hp : t.IsOutside dir p)
    (hname : Path.isPlainName name = true) : t.Apart p (dir.join ⟨name⟩) := by
  intro a b ha hb hab
  obtain ⟨d, hd, hplace⟩ := hdir.place_eq hname hb
  apply hp d a hd ha
  rw [hab, hplace]
  exact List.prefix_append d [name]

theorem Puts.apart_of_apart {n : FileNode} {r : Path} (h : t.Puts r n t') (hn : n.isFile = true)
    (hpq : t.Apart p q) : t'.Apart p q := by
  obtain ⟨place, -, -, -, hall⟩ := h.find hn
  have hspot : ∀ {p : Path} {s' : Spot}, t'.find p = .ok s' →
      ∃ s, t.find p = .ok s ∧ s.place = s'.place := by
    intro p s' hs'
    have hp := hall p
    cases hfind : t.find p with
    | error e =>
      rw [hfind] at hp
      obtain ⟨e', hp⟩ := hp
      rw [hp] at hs'
      cases hs'
    | ok s =>
      rw [hfind] at hp
      have hrefill : Spot.refill place n s = s' := Except.ok.inj (hp.symm.trans hs')
      refine ⟨s, rfl, ?_⟩
      rw [← hrefill, Spot.refill]
      split
      · rfl
      · split <;> rfl
  intro a b ha hb hab
  obtain ⟨a', ha', hplace⟩ := hspot ha
  obtain ⟨b', hb', hplace'⟩ := hspot hb
  exact hpq a' b' ha' hb' (hplace.trans (hab.trans hplace'.symm))

end

end FileTree

end MillGateway
