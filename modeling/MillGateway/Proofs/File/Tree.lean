import Mathlib.Tactic.Common
import MillGateway.File.Tree
import MillGateway.Proofs.Lookup

/-! What a tree holds after a file was put into it. Main statements: a text that was written is read
back, and a path that does not lead to the same file holds what it held before. -/

namespace MillGateway

def FileNode.isFile : FileNode → Bool
  | .text _ | .bytes _ => true
  | .dir | .link _ => false

namespace FileTree

theorem node?_put (t : FileTree) {p : FilePlace} (hp : p ≠ []) (n : FileNode) (q : FilePlace) :
    (t.put p n).node? q = if q = p then some n else t.node? q := by
  rw [node?, node?, put]
  by_cases hq : q = p
  · simp [hq, hp]
  · simp only [if_neg hq, List.lookup_cons, beq_eq_false_iff_ne.2 hq, lookup_filter_ne hq]

def IsLeaf (n? : Option FileNode) : Prop :=
  ∀ n, n? = some n → n.isFile = true

theorem eq_dir_or_link {n? : Option FileNode} (h : ¬ IsLeaf n?) :
    n? = some .dir ∨ ∃ target, n? = some (.link target) := by
  cases n? with
  | none => exact absurd nofun h
  | some n =>
    cases n with
    | dir => exact .inl rfl
    | link target => exact .inr ⟨target, rfl⟩
    | text => exact absurd (by rintro _ ⟨⟩; rfl) h
    | bytes => exact absurd (by rintro _ ⟨⟩; rfl) h

def Spot.refill (p : FilePlace) (n : FileNode) (s : Spot) : Spot :=
  match s.node? with
  | some .dir => s
  | _ => if s.place = p then { s with node? := some n } else s

theorem Spot.refill_leaf (p : FilePlace) (n : FileNode) {s : Spot} (hs : IsLeaf s.node?) :
    s.refill p n = { s with node? := if s.place = p then some n else s.node? } := by
  obtain ⟨place, n?, slash⟩ := s
  rw [refill]
  split
  next h => exact absurd (hs _ h) (by decide)
  next => by_cases h : place = p <;> simp [h]

/-- How a walk ends with and without a file put at a place: on the same spot, or nowhere both
times. -/
def Refilled (p : FilePlace) (n : FileNode) :
    Except FileError Spot → Except FileError Spot → Prop
  | .ok s, r => r = .ok (s.refill p n)
  | .error _, r => ∃ e, r = .error e

theorem walk_leaf {t : FileTree} (f : FilePlace → List String → Except FileError Spot)
    {here : FilePlace} {s : String} (rest : List String) (hdot : ¬ (s = "" || s = ".") = true)
    (hup : s ≠ "..") (hlong : ¬ maxName < s.utf8ByteSize) (h : IsLeaf (t.node? (here ++ [s]))) :
    ∃ e, t.walk f here (s :: rest) =
      if rest.all (· == "") = true then .ok ⟨here ++ [s], t.node? (here ++ [s]), !rest.isEmpty⟩
      else .error e := by
  rw [walk, if_neg hdot, if_neg hup, if_neg hlong]
  dsimp only
  split
  next hn => exact absurd (h _ hn) (by simp [FileNode.isFile])
  next hn => exact absurd (h _ hn) (by simp [FileNode.isFile])
  next hn => exact ⟨.notDirectory, by rw [hn]⟩
  next hn => exact ⟨.notFound, by rw [hn]⟩

theorem walk_put {t : FileTree} {p : FilePlace} (hp : p ≠ []) (hleaf : IsLeaf (t.node? p))
    {n : FileNode} (hn : n.isFile = true)
    {f g : FilePlace → List String → Except FileError Spot}
    (hfg : ∀ here rest, Refilled p n (f here rest) (g here rest)) (here : FilePlace)
    (rest : List String) : Refilled p n (t.walk f here rest) ((t.put p n).walk g here rest) := by
  induction rest generalizing here with
  | nil => rfl
  | cons s rest ih =>
    by_cases hdot : (s = "" || s = ".") = true
    · rw [walk, walk, if_pos hdot, if_pos hdot]
      exact ih here
    by_cases hup : s = ".."
    · rw [walk, walk, if_neg hdot, if_neg hdot, if_pos hup, if_pos hup]
      exact ih here.dropLast
    by_cases hlong : maxName < s.utf8ByteSize
    · rw [walk, walk, if_neg hdot, if_neg hdot, if_neg hup, if_neg hup, if_pos hlong, if_pos hlong]
      exact ⟨_, rfl⟩
    -- the walk ends at a file or at nothing, whether that stands at `p` or not
    have hput := node?_put t hp n (here ++ [s])
    by_cases hq : IsLeaf (t.node? (here ++ [s]))
    · have hq' : IsLeaf ((t.put p n).node? (here ++ [s])) := by
        rw [hput]
        split
        · rintro m ⟨⟩
          exact hn
        · exact hq
      obtain ⟨e, h⟩ := walk_leaf f rest hdot hup hlong hq
      obtain ⟨e', h'⟩ := walk_leaf g rest hdot hup hlong hq'
      rw [h, h', hput]
      split
      · exact (congrArg Except.ok (Spot.refill_leaf p n (s := ⟨_, _, _⟩) hq)).symm
      · exact ⟨_, rfl⟩
    · -- A directory or a link does not stand at `p`, so both walks go on alike.
      have hne : here ++ [s] ≠ p := fun h => hq (h ▸ hleaf)
      rw [if_neg hne] at hput
      rw [walk, walk, if_neg hdot, if_neg hdot, if_neg hup, if_neg hup, if_neg hlong, if_neg hlong]
      dsimp only
      rw [hput]
      rcases eq_dir_or_link hq with hnode | ⟨target, hnode⟩
      · rw [hnode]
        exact ih _
      · rw [hnode]
        dsimp only
        split
        · exact ⟨_, rfl⟩
        · exact hfg _ _

theorem walkLinks_put {t : FileTree} {p : FilePlace} (hp : p ≠ []) (hleaf : IsLeaf (t.node? p))
    {n : FileNode} (hn : n.isFile = true) (links : Nat) (here : FilePlace) (rest : List String) :
    Refilled p n (t.walkLinks links here rest) ((t.put p n).walkLinks links here rest) := by
  induction links generalizing here rest with
  | zero =>
    have hlost : ∀ (_ : FilePlace) (_ : List String),
        Refilled p n (.error .tooManyLinks) (.error .tooManyLinks) := fun _ _ => ⟨_, rfl⟩
    exact walk_put hp hleaf hn hlost here rest
  | succ links ih => exact walk_put hp hleaf hn ih here rest

theorem find_put {t : FileTree} {p : FilePlace} (hp : p ≠ []) (hleaf : IsLeaf (t.node? p))
    {n : FileNode} (hn : n.isFile = true) (q : Path) :
    Refilled p n (t.find q) ((t.put p n).find q) := by
  rw [find, find]
  split_ifs
  · exact ⟨_, rfl⟩
  · exact ⟨_, rfl⟩
  · exact ⟨_, rfl⟩
  · exact walkLinks_put hp hleaf hn ..
  · exact walkLinks_put hp hleaf hn ..

/-! ### Spots -/

/-- What a walk finds where it ends, unless that is a directory. -/
def Spot.Faithful (t : FileTree) (s : Spot) : Prop :=
  s.node? = some .dir ∨ s.place ≠ [] ∧ IsLeaf s.node? ∧ s.node? = t.node? s.place

theorem walk_faithful {t : FileTree} {f : FilePlace → List String → Except FileError Spot}
    (hf : ∀ {here rest s}, f here rest = .ok s → s.Faithful t) {here : FilePlace}
    {rest : List String} {s : Spot} (h : t.walk f here rest = .ok s) : s.Faithful t := by
  induction rest generalizing here with
  | nil =>
    cases h
    exact .inl rfl
  | cons name rest ih =>
    by_cases hdot : (name = "" || name = ".") = true
    · rw [walk, if_pos hdot] at h
      exact ih h
    by_cases hup : name = ".."
    · rw [walk, if_neg hdot, if_pos hup] at h
      exact ih h
    by_cases hlong : maxName < name.utf8ByteSize
    · rw [walk, if_neg hdot, if_neg hup, if_pos hlong] at h
      cases h
    by_cases hq : IsLeaf (t.node? (here ++ [name]))
    · obtain ⟨e, hw⟩ := walk_leaf f rest hdot hup hlong hq
      rw [hw] at h
      split at h
      · cases h
        exact .inr ⟨by simp, hq, rfl⟩
      · cases h
    · rw [walk, if_neg hdot, if_neg hup, if_neg hlong] at h
      dsimp only at h
      rcases eq_dir_or_link hq with hnode | ⟨target, hnode⟩
      · rw [hnode] at h
        exact ih h
      · rw [hnode] at h
        dsimp only at h
        split at h
        · cases h
        · exact hf h

theorem walkLinks_faithful {t : FileTree} {links : Nat} {here : FilePlace} {rest : List String}
    {s : Spot} (h : t.walkLinks links here rest = .ok s) : s.Faithful t := by
  induction links generalizing here rest s with
  | zero => exact walk_faithful (fun hlost => by cases hlost) h
  | succ links ih => exact walk_faithful ih h

theorem find_faithful {t : FileTree} {p : Path} {s : Spot} (h : t.find p = .ok s) :
    s.Faithful t := by
  rw [find] at h
  split_ifs at h
  · exact walkLinks_faithful h
  · exact walkLinks_faithful h

/-! ### Contents -/

def content (t : FileTree) (p : Path) : Option FileNode :=
  (t.nodeAt p).toOption

def Spot.content (s : Spot) : Option FileNode :=
  match s.node? with
  | none => none
  | some .dir => some .dir
  | some n => if s.slash then none else some n

theorem Spot.content_mk (place : FilePlace) (n? : Option FileNode) :
    (Spot.mk place n? false).content = n? := by
  cases n? with
  | none => rfl
  | some n => cases n <;> rfl

theorem content_of_find {t : FileTree} {p : Path} {s : Spot} (h : t.find p = .ok s) :
    t.content p = s.content := by
  obtain ⟨place, n?, slash⟩ := s
  rw [content, nodeAt, h]
  cases n? with
  | none => rfl
  | some n => cases n <;> cases slash <;> rfl

theorem content_of_lost {t : FileTree} {p : Path} {e : FileError} (h : t.find p = .error e) :
    t.content p = none := by
  rw [content, nodeAt, h]
  rfl

theorem read_eq_ok_iff {t : FileTree} {p : Path} {s : String} :
    t.read p = .ok s ↔ t.content p = some (.text s) := by
  rw [read, content]
  cases t.nodeAt p with
  | error e => exact ⟨nofun, nofun⟩
  | ok n =>
    cases n with
    | text u =>
      change (Except.ok u : Except FileError String) = .ok s ↔ some (FileNode.text u) = _
      simp
    | bytes | dir | link => exact ⟨nofun, nofun⟩

theorem content_of_notFound {t : FileTree} {p : Path} (h : t.read p = .error .notFound) :
    t.content p = none := by
  rw [read] at h
  rw [content]
  cases hn : t.nodeAt p with
  | error e => rfl
  | ok n =>
    rw [hn] at h
    cases n <;> cases h

/-! ### Writing -/

def Apart (t : FileTree) (p q : Path) : Prop :=
  ∀ a b, t.find p = .ok a → t.find q = .ok b → a.place ≠ b.place

instance (t : FileTree) (p q : Path) : Decidable (t.Apart p q) :=
  match hp : t.find p, hq : t.find q with
  | .ok a, .ok b => decidable_of_iff (a.place ≠ b.place)
      ⟨fun h _ _ ha hb => by
        rw [hp] at ha
        rw [hq] at hb
        cases ha
        cases hb
        exact h,
      fun h => h a b hp hq⟩
  | .error _, _ => .isTrue fun _ _ ha _ => by
      rw [hp] at ha
      cases ha
  | .ok _, .error _ => .isTrue fun _ _ _ hb => by
      rw [hq] at hb
      cases hb

theorem Apart.symm {t : FileTree} {p q : Path} (h : t.Apart p q) : t.Apart q p :=
  fun a b ha hb hab => h b a hb ha hab.symm

/-- Whether a tree differs from another by the file at the end of a path alone. -/
def Puts (t : FileTree) (p : Path) (n : FileNode) (t' : FileTree) : Prop :=
  ∃ place n?, t.target p = .ok (place, n?) ∧ t' = t.put place n

theorem target_eq_ok {t : FileTree} {p : Path} {place : FilePlace} {n? : Option FileNode}
    (h : t.target p = .ok (place, n?)) :
    t.find p = .ok ⟨place, n?, false⟩ ∧ place ≠ [] ∧ IsLeaf n? ∧ n? = t.node? place := by
  rw [target] at h
  cases hfind : t.find p with
  | error e =>
    rw [hfind] at h
    cases h
  | ok s =>
    obtain ⟨place', m?, slash⟩ := s
    have hs := find_faithful hfind
    rw [hfind] at h
    cases slash with
    | true => cases h
    | false =>
      -- a target is no directory, so what was found there is in the tree
      by_cases hdir : m? = some .dir
      · subst hdir
        cases h
      · obtain ⟨hroot, hleaf, hnode⟩ := hs.resolve_left hdir
        cases m? with
        | none =>
          cases h
          exact ⟨rfl, hroot, hleaf, hnode⟩
        | some m =>
          cases m with
          | dir => cases h
          | link => cases hleaf _ rfl
          | text | bytes =>
            cases h
            exact ⟨rfl, hroot, hleaf, hnode⟩

theorem content_of_target {t : FileTree} {p : Path} {place : FilePlace} {n? : Option FileNode}
    (h : t.target p = .ok (place, n?)) : t.content p = n? :=
  (content_of_find (target_eq_ok h).1).trans (Spot.content_mk place n?)

section Puts

variable {t t' : FileTree} {p q : Path} {n : FileNode}

theorem Puts.find (h : t.Puts p n t') (hn : n.isFile = true) :
    ∃ place n?, t.find p = .ok ⟨place, n?, false⟩ ∧ t'.find p = .ok ⟨place, some n, false⟩ ∧
      ∀ q, Refilled place n (t.find q) (t'.find q) := by
  obtain ⟨place, n?, htarget, rfl⟩ := h
  obtain ⟨hfind, hroot, hleaf, rfl⟩ := target_eq_ok htarget
  have hp := find_put hroot hleaf hn p
  rw [hfind] at hp
  have hs : Spot.refill place n ⟨place, t.node? place, false⟩ = ⟨place, some n, false⟩ := by
    rw [Spot.refill_leaf place n (s := ⟨place, t.node? place, false⟩) hleaf]
    simp
  exact ⟨place, _, hfind, hp.trans (congrArg Except.ok hs), fun q => find_put hroot hleaf hn q⟩

theorem Puts.content_self (h : t.Puts p n t') (hn : n.isFile = true) : t'.content p = some n := by
  obtain ⟨place, n?, -, hfind, -⟩ := h.find hn
  exact (content_of_find hfind).trans (Spot.content_mk place _)

theorem Spot.content_refill (place : FilePlace) {n : FileNode} (hn : n.isFile = true) (s : Spot) :
    (s.refill place n).content = s.content ∨ (s.refill place n).content = some n := by
  obtain ⟨place', n?, slash⟩ := s
  rw [refill]
  split
  next => exact .inl rfl
  next hdir =>
    split
    · cases slash with
      | false => exact .inr (Spot.content_mk place' _)
      | true =>
        left
        cases n with
        | dir | link => cases hn
        | text | bytes =>
          cases n? with
          | none => rfl
          | some m => cases m <;> first | rfl | exact absurd rfl hdir
    · exact .inl rfl

theorem Puts.content_other (h : t.Puts p n t') (hn : n.isFile = true) (q : Path) :
    t'.content q = t.content q ∨ t'.content q = some n := by
  obtain ⟨place, n?, -, -, hall⟩ := h.find hn
  have hq := hall q
  cases hfind : t.find q with
  | error e =>
    rw [hfind] at hq
    obtain ⟨e', hq⟩ := hq
    exact .inl ((content_of_lost hq).trans (content_of_lost hfind).symm)
  | ok s =>
    rw [hfind] at hq
    rw [content_of_find hq, content_of_find hfind]
    exact Spot.content_refill place hn s

theorem Puts.apart (h : t.Puts p n t') (hn : n.isFile = true) (hpq : t.Apart p q) :
    t'.content q = t.content q ∧ t'.Apart p q := by
  obtain ⟨place, n?, hp, hp', hall⟩ := h.find hn
  have hq := hall q
  cases hfind : t.find q with
  | error e =>
    rw [hfind] at hq
    obtain ⟨e', hq⟩ := hq
    refine ⟨(content_of_lost hq).trans (content_of_lost hfind).symm, fun a b _ hb => ?_⟩
    rw [hq] at hb
    cases hb
  | ok s =>
    -- the spot is not the one that was refilled
    have hne : s.place ≠ place := (hpq _ s hp hfind).symm
    have hs : s.refill place n = s := by
      rw [Spot.refill]
      split
      · rfl
      · rw [if_neg hne]
    rw [hfind] at hq
    have hq : t'.find q = .ok s := hq.trans (congrArg Except.ok hs)
    refine ⟨(content_of_find hq).trans (content_of_find hfind).symm, fun a b ha hb => ?_⟩
    rw [hp'] at ha
    rw [hq] at hb
    cases ha
    cases hb
    exact hne.symm

theorem puts_of_write {s : String} (h : t.write p s = .ok t') : t.Puts p (.text s) t' := by
  rw [write] at h
  cases htarget : t.target p with
  | error e =>
    rw [htarget] at h
    cases h
  | ok r =>
    rw [htarget] at h
    cases h
    exact ⟨r.1, r.2, htarget, rfl⟩

def appended (s : String) : Option FileNode → FileNode
  | some (.text old) => .text (old ++ s)
  | some (.bytes b) => .bytes (b ++ s.toUTF8)
  | _ => .text s

theorem appended_isFile (s : String) (n? : Option FileNode) : (appended s n?).isFile = true := by
  unfold appended
  split <;> rfl

theorem puts_of_append {s : String} (h : t.append p s = .ok t') :
    t.Puts p (appended s (t.content p)) t' := by
  rw [append] at h
  cases htarget : t.target p with
  | error e =>
    rw [htarget] at h
    cases h
  | ok r =>
    rw [htarget] at h
    cases h
    exact ⟨r.1, r.2, htarget, by rw [content_of_target htarget]; rfl⟩

end Puts

/-! ### Paths that can be written -/

theorem target_of_find {t : FileTree} {p : Path} {place : FilePlace} {n? : Option FileNode}
    (h : t.find p = .ok ⟨place, n?, false⟩) (hleaf : IsLeaf n?) :
    t.target p = .ok (place, n?) := by
  rw [target, h]
  cases n? with
  | none => rfl
  | some n =>
    cases n with
    | dir => exact absurd (hleaf .dir rfl) (by decide)
    | _ => rfl

theorem exists_target_of_read {t : FileTree} {p : Path} {s : String} (h : t.read p = .ok s) :
    ∃ x, t.target p = .ok x := by
  rw [read_eq_ok_iff] at h
  cases hfind : t.find p with
  | error e =>
    rw [content_of_lost hfind] at h
    cases h
  | ok spot =>
    obtain ⟨place, n?, slash⟩ := spot
    rw [content_of_find hfind, Spot.content] at h
    cases n? with
    | none => cases h
    | some n =>
      cases n with
      | dir => cases h
      | bytes | link => cases slash <;> cases h
      | text u =>
        cases slash with
        | true => cases h
        | false => exact ⟨_, target_of_find hfind (by rintro _ ⟨⟩; rfl)⟩

theorem Puts.exists_target {t t' : FileTree} {p q : Path} {n : FileNode} (h : t.Puts p n t')
    (hn : n.isFile = true) (hq : ∃ x, t.target q = .ok x) : ∃ x, t'.target q = .ok x := by
  obtain ⟨place, -, -, -, hall⟩ := h.find hn
  obtain ⟨⟨place', n?⟩, htarget⟩ := hq
  obtain ⟨hfind, -, hleaf, -⟩ := target_eq_ok htarget
  have hfind' := hall q
  rw [hfind] at hfind'
  have hrefill := Spot.refill_leaf place n (s := ⟨place', n?, false⟩) hleaf
  refine ⟨_, target_of_find (hfind'.trans (congrArg Except.ok hrefill)) ?_⟩
  split
  · rintro _ ⟨⟩
    exact hn
  · exact hleaf

theorem exists_write_of_target {t : FileTree} {p : Path} (h : ∃ x, t.target p = .ok x)
    (s : String) : ∃ t', t.write p s = .ok t' := by
  obtain ⟨x, h⟩ := h
  rw [write, h]
  exact ⟨_, rfl⟩

end FileTree

end MillGateway
