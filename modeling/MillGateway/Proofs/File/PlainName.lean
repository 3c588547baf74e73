import Mathlib.Data.List.Induction
import MillGateway.Path
import MillGateway.Proofs.Text.Words

/-! Plain names, and the paths to which they are joined. Main statements: which names are plain, that
a plain name adds one component to a path, which is the name, and that the directory of the longer
path is the path as it was. -/

namespace MillGateway

namespace Text

variable {sep : Char → Bool}

theorem pieces_eq_splitOnP (s : List Char) : pieces sep s = s.splitOnP sep := by
  induction s with
  | nil => rfl
  | cons c r ih =>
    rw [List.splitOnP_cons_eq_if_modifyHead, pieces, ← ih]
    split
    · rfl
    · cases hpieces : pieces sep r with
      | nil => exact absurd hpieces (pieces_ne_nil r)
      | cons p ps => rfl

end Text

namespace Path

open Text

section

variable {name : String}

theorem not_isAbsolute (h : '/' ∉ name.toList) : (Path.mk name).isAbsolute = false := by
  rw [isAbsolute]
  cases hname : name.toList with
  | nil => rfl
  | cons c cs =>
    rw [hname, List.mem_cons, not_or] at h
    exact beq_eq_false_iff_ne.2 fun hc => h.1 hc.symm

theorem pieces_of_no_slash {s : List Char} (h : '/' ∉ s) : pieces isSlash s = [s] := by
  refine pieces_of_none fun c hc => ?_
  exact beq_eq_false_iff_ne.2 fun hslash => h (hslash ▸ hc)

theorem no_slash_of_mem_pieces {s p : List Char} (hp : p ∈ pieces isSlash s) : '/' ∉ p :=
  fun hc => absurd (mem_pieces hp hc).1 (by decide)

/-! ### Names -/

theorem component?_name (hempty : name ≠ "") (hhere : name ≠ ".") (hup : name ≠ "..")
    (opening : Bool) : component? opening name.toList = some (.name name.toList) := by
  have hhere' : name.toList ≠ ['.'] := fun hsame => hhere (String.toList_inj.1 hsame)
  have hup' : name.toList ≠ ['.', '.'] := fun hsame => hup (String.toList_inj.1 hsame)
  rw [component?, if_neg (by simpa using hempty), if_neg hhere', if_neg hup']

theorem components_of_no_slash (h : '/' ∉ name.toList) :
    components ⟨name⟩ = (component? true name.toList).toList := by
  rw [components, not_isAbsolute h, pieces_of_no_slash h]
  exact List.append_nil _

theorem isPlainName_iff : isPlainName name = true ↔
    name ≠ "" ∧ name ≠ "." ∧ name ≠ ".." ∧ '/' ∉ name.toList ∧ '\\' ∉ name.toList := by
  have hslashes : (!name.toList.any fun c => c == '/' || c == '\\') = true ↔
      '/' ∉ name.toList ∧ '\\' ∉ name.toList := by
    rw [Bool.not_eq_true', List.any_eq_false]
    simp only [Bool.or_eq_true, beq_iff_eq, not_or]
    exact ⟨fun h => ⟨fun hc => (h _ hc).1 rfl, fun hc => (h _ hc).2 rfl⟩,
      fun h c hc => ⟨fun hslash => h.1 (hslash ▸ hc), fun hslash => h.2 (hslash ▸ hc)⟩⟩
  rw [isPlainName, Bool.and_eq_true, hslashes]
  constructor
  · rintro ⟨hcomponent, hslash⟩
    refine ⟨?_, ?_, ?_, hslash⟩
    · rintro rfl
      revert hcomponent
      decide
    · rintro rfl
      revert hcomponent
      decide
    · rintro rfl
      revert hcomponent
      decide
  · rintro ⟨hempty, hdot, hup, hslash⟩
    refine ⟨?_, hslash⟩
    rw [components_of_no_slash hslash.1, component?_name hempty hdot hup]
    rfl

theorem ne_empty_of_isPlainName (h : isPlainName name = true) : name ≠ "" :=
  (isPlainName_iff.1 h).1

theorem ne_here_of_isPlainName (h : isPlainName name = true) : name ≠ "." :=
  (isPlainName_iff.1 h).2.1

theorem ne_up_of_isPlainName (h : isPlainName name = true) : name ≠ ".." :=
  (isPlainName_iff.1 h).2.2.1

theorem no_slash_of_isPlainName (h : isPlainName name = true) : '/' ∉ name.toList :=
  (isPlainName_iff.1 h).2.2.2.1

theorem component?_of_isPlainName (h : isPlainName name = true) (opening : Bool) :
    component? opening name.toList = some (.name name.toList) :=
  component?_name (ne_empty_of_isPlainName h) (ne_here_of_isPlainName h) (ne_up_of_isPlainName h)
    opening

/-! ### Joining -/

/-- A name is joined to a directory behind the pieces of the directory, but for an empty one at their
end. -/
theorem exists_pieces_join (dir : Path) : ∃ base ss e,
    pieces isSlash dir.text.toList = ss ++ e ∧ (e = [] ∨ e = [[]]) ∧
    ∀ name : String, '/' ∉ name.toList →
      (dir.join ⟨name⟩).text = base ++ name ∧
      pieces isSlash (dir.join ⟨name⟩).text.toList = ss ++ [name.toList] ∧
      (dir.join ⟨name⟩).isAbsolute = dir.isAbsolute := by
  cases hlast : dir.text.toList.getLast? with
  | none =>
    have hempty : dir.text = "" := by
      rw [List.getLast?_eq_none_iff] at hlast
      exact String.toList_eq_nil_iff.1 hlast
    refine ⟨"", [], [[]], by rw [hempty]; rfl, .inr rfl, fun name h => ?_⟩
    have hjoin : dir.join ⟨name⟩ = ⟨name⟩ := by
      rw [join, not_isAbsolute h, hlast, hempty]
      simp
    rw [hjoin]
    refine ⟨by simp, pieces_of_no_slash h, ?_⟩
    rw [not_isAbsolute h, isAbsolute, hempty]
    rfl
  | some c =>
    obtain ⟨init, hinit⟩ := List.getLast?_eq_some_iff.1 hlast
    have hhead : ∀ rest : List Char, (Path.mk (String.ofList (dir.text.toList ++ rest))).isAbsolute =
        dir.isAbsolute := by
      intro rest
      rw [isAbsolute, isAbsolute, String.toList_ofList]
      cases hdir : dir.text.toList with
      | nil =>
        rw [hdir] at hlast
        cases hlast
      | cons c cs => rfl
    cases hc : isSlash c with
    | true =>
      refine ⟨dir.text, pieces isSlash init, [[]], ?_, .inr rfl, fun name h => ?_⟩
      · rw [hinit, pieces_append_sep hc]
        rfl
      have hjoin : dir.join ⟨name⟩ = ⟨dir.text ++ name⟩ := by
        rw [join, not_isAbsolute h, hlast]
        simp [hc]
      rw [hjoin]
      refine ⟨rfl, ?_, ?_⟩
      · rw [String.toList_append, hinit, List.append_assoc, List.singleton_append,
          pieces_append_sep hc, pieces_of_no_slash h]
      · rw [← hhead name.toList, ← String.toList_append, String.ofList_toList]
    | false =>
      refine ⟨dir.text ++ "/", pieces isSlash dir.text.toList, [], (List.append_nil _).symm, .inl rfl,
        fun name h => ?_⟩
      have hjoin : dir.join ⟨name⟩ = ⟨dir.text ++ "/" ++ name⟩ := by
        rw [join, not_isAbsolute h, hlast]
        simp [hc]
      have hslash : (dir.text ++ "/" ++ name).toList = dir.text.toList ++ '/' :: name.toList := by
        rw [String.append_assoc, String.toList_append, String.toList_append]
        rfl
      rw [hjoin]
      refine ⟨rfl, ?_, ?_⟩
      · rw [hslash, pieces_append_sep rfl, pieces_of_no_slash h]
      · rw [← hhead ('/' :: name.toList), ← hslash, String.ofList_toList]

end

/-! ### Pieces and components -/

def meaning (absolute : Bool) : List (List Char) → List Component
  | [] => []
  | s :: ss =>
    if absolute then .root :: ss.filterMap (component? false)
    else (component? true s).toList ++ ss.filterMap (component? false)

def AreVoid (ss : List (List Char)) : Prop :=
  ∀ s ∈ ss, component? false s = none

section

variable {absolute relative : Bool} {s : List Char} {ss e : List (List Char)} {p : Path}

theorem components_eq (p : Path) :
    p.components = meaning p.isAbsolute (pieces isSlash p.text.toList) := by
  rw [components]
  cases pieces isSlash p.text.toList <;> rfl

theorem isAbsolute_iff :
    p.isAbsolute = true ↔ ∃ s ss, pieces isSlash p.text.toList = [] :: s :: ss := by
  rw [isAbsolute]
  cases p.text.toList with
  | nil => simp [pieces]
  | cons c r =>
    have hne : pieces isSlash r ≠ [] := pieces_ne_nil r
    obtain ⟨s, ss, hr⟩ := List.exists_cons_of_ne_nil hne
    cases hc : isSlash c with
    | true => simp [pieces, hc, hr]
    | false => simp [pieces, hc, hr, consHead]

theorem meaning_append_void (hss : ss ≠ []) (he : AreVoid e) :
    meaning absolute (ss ++ e) = meaning absolute ss := by
  obtain ⟨s, ss, rfl⟩ := List.exists_cons_of_ne_nil hss
  rw [List.cons_append, meaning, meaning, List.filterMap_append, List.filterMap_eq_nil_iff.2 he,
    List.append_nil]

theorem meaning_concat (hss : ss ≠ []) {c : Component} (hs : component? false s = some c) :
    meaning absolute (ss ++ [s]) = meaning absolute ss ++ [c] := by
  obtain ⟨s', ss, rfl⟩ := List.exists_cons_of_ne_nil hss
  have hlast : [s].filterMap (component? false) = [c] := by simp [hs]
  rw [List.cons_append, meaning, meaning, List.filterMap_append, hlast]
  split
  · rfl
  · rw [List.append_assoc]

theorem component?_opening (hs : s ≠ []) : (component? true s).isSome = true := by
  rw [component?, if_neg (by simpa using hs), if_pos rfl]
  split
  · rfl
  · split <;> rfl

theorem component?_false_of_none (h : component? relative s = none) : component? false s = none := by
  cases relative with
  | false => exact h
  | true =>
    by_cases hs : s = []
    · rw [hs]
      rfl
    · have hsome := component?_opening hs
      rw [h] at hsome
      cases hsome

theorem dropVoid_concat : dropVoid relative (ss ++ [s]) =
    if (component? (relative && ss.isEmpty) s).isSome then ss ++ [s] else dropVoid relative ss := by
  rw [dropVoid, List.reverse_append, List.reverse_singleton, List.singleton_append, dropVoid.go,
    List.isEmpty_reverse]
  split
  · simp
  · rfl

theorem exists_dropVoid (relative : Bool) (ss : List (List Char)) :
    ∃ e, ss = dropVoid relative ss ++ e ∧ AreVoid e := by
  induction ss using List.reverseRecOn with
  | nil => exact ⟨[], rfl, nofun⟩
  | append_singleton ss s ih =>
    rw [dropVoid_concat]
    split
    · exact ⟨[], (List.append_nil _).symm, nofun⟩
    next hs =>
      obtain ⟨e, hss, he⟩ := ih
      refine ⟨e ++ [s], by rw [← List.append_assoc, ← hss], fun v hv => ?_⟩
      rcases List.mem_append.1 hv with hv | hv
      · exact he v hv
      · rw [List.mem_singleton.1 hv]
        exact component?_false_of_none (by simpa using hs)

theorem dropVoid_cons_ne_nil (hs : (component? relative s).isSome = true) :
    dropVoid relative (s :: ss) ≠ [] := by
  induction ss using List.reverseRecOn with
  | nil => simp [dropVoid, dropVoid.go, hs]
  | append_singleton ss s' ih =>
    rw [← List.cons_append, dropVoid_concat]
    split
    · simp
    · exact ih

theorem pieces_glue (h : ∀ p ∈ ss, '/' ∉ p) :
    pieces isSlash (glue ss).toList = if ss = [] then [[]] else ss := by
  rw [glue, String.toList_ofList, pieces_eq_splitOnP]
  split
  next hempty =>
    rw [hempty]
    rfl
  next hne => exact List.splitOn_intercalate '/' h hne

theorem parent?_of_absolute (hp : p.isAbsolute = true)
    (hpieces : pieces isSlash p.text.toList = [] :: (ss ++ [s]))
    (hs : dropVoid false (ss ++ [s]) = ss ++ [s]) :
    p.parent? = some ⟨"/" ++ glue (dropVoid false ss)⟩ := by
  rw [parent?, hp, if_pos rfl, hpieces, List.tail_cons, hs]
  split
  next hnil => exact absurd hnil (List.concat_ne_nil s ss)
  next => rw [List.dropLast_concat]

theorem parent?_of_relative (hp : p.isAbsolute = false)
    (hpieces : pieces isSlash p.text.toList = ss ++ [s])
    (hs : dropVoid true (ss ++ [s]) = ss ++ [s]) :
    p.parent? = some ⟨glue (dropVoid true ss)⟩ := by
  rw [parent?, hp, if_neg Bool.false_ne_true, hpieces, hs]
  split
  next hnil => exact absurd hnil (List.concat_ne_nil s ss)
  next => rw [List.dropLast_concat]

theorem components_glue_absolute (h : ∀ p ∈ ss, '/' ∉ p) :
    components ⟨"/" ++ glue (dropVoid false ss)⟩ = meaning true ([] :: ss) := by
  obtain ⟨e, hss, he⟩ := exists_dropVoid false ss
  have hslash : ∀ p ∈ dropVoid false ss, '/' ∉ p := by
    intro p hp
    exact h p (hss ▸ List.mem_append_left e hp)
  have hpieces : pieces isSlash ("/" ++ glue (dropVoid false ss)).toList =
      [] :: if dropVoid false ss = [] then [[]] else dropVoid false ss := by
    rw [String.toList_append, ← pieces_glue hslash]
    rfl
  have habsolute : (Path.mk ("/" ++ glue (dropVoid false ss))).isAbsolute = true := by
    rw [isAbsolute, String.toList_append]
    rfl
  have hmeaning : meaning true ([] :: ss) = meaning true ([] :: dropVoid false ss) := by
    conv => lhs; rw [hss, ← List.cons_append]
    exact meaning_append_void (List.cons_ne_nil _ _) he
  rw [components_eq, habsolute, hpieces, hmeaning]
  split
  next hnil =>
    rw [hnil]
    rfl
  next => rfl

theorem components_glue_relative (h : ∀ p ∈ s :: ss, '/' ∉ p) (hs : s ≠ []) :
    components ⟨glue (dropVoid true (s :: ss))⟩ = meaning false (s :: ss) := by
  obtain ⟨e, hss, he⟩ := exists_dropVoid true (s :: ss)
  have hne : dropVoid true (s :: ss) ≠ [] := dropVoid_cons_ne_nil (component?_opening hs)
  have hslash : ∀ p ∈ dropVoid true (s :: ss), '/' ∉ p := by
    intro p hp
    exact h p (hss ▸ List.mem_append_left e hp)
  have hpieces : pieces isSlash (glue (dropVoid true (s :: ss))).toList = dropVoid true (s :: ss) := by
    rw [pieces_glue hslash, if_neg hne]
  have hrelative : (Path.mk (glue (dropVoid true (s :: ss)))).isAbsolute = false := by
    rw [Bool.eq_false_iff, ne_eq, isAbsolute_iff, hpieces]
    rintro ⟨s', ss', hopening⟩
    rw [hopening, List.cons_append] at hss
    exact hs (List.cons.inj hss).1
  have hmeaning : meaning false (s :: ss) = meaning false (dropVoid true (s :: ss)) := by
    conv => lhs; rw [hss]
    exact meaning_append_void hne he
  rw [components_eq, hrelative, hpieces, hmeaning]

end

/-! ### A plain name in a directory -/

section

variable {dir : Path} {name name' : String}

theorem dropVoid_name (hname : isPlainName name = true) (relative : Bool) (ss : List (List Char)) :
    dropVoid relative (ss ++ [name.toList]) = ss ++ [name.toList] := by
  rw [dropVoid_concat, component?_of_isPlainName hname, Option.isSome_some, if_pos rfl]

theorem meaning_eq_of_append {ss e : List (List Char)} (hss : ss ≠ []) (he : e = [] ∨ e = [[]])
    (absolute : Bool) : meaning absolute (ss ++ e) = meaning absolute ss := by
  refine meaning_append_void hss ?_
  rcases he with rfl | rfl
  · exact nofun
  · simp [AreVoid, component?]

theorem eq_empty_of_pieces {e : List (List Char)} (hdir : pieces isSlash dir.text.toList = e)
    (he : e = [] ∨ e = [[]]) : dir.isAbsolute = false ∧ dir.components = [] := by
  have hrelative : dir.isAbsolute = false := by
    rw [Bool.eq_false_iff]
    intro habsolute
    obtain ⟨s, ss, hlong⟩ := isAbsolute_iff.1 habsolute
    rw [hdir] at hlong
    rcases he with rfl | rfl <;> cases hlong
  rw [components_eq, hrelative, hdir]
  rcases he with rfl | rfl
  · exact ⟨rfl, rfl⟩
  · exact ⟨rfl, rfl⟩

theorem components_join (hname : isPlainName name = true) :
    (dir.join ⟨name⟩).components = dir.components ++ [.name name.toList] := by
  obtain ⟨base, ss, e, hdir, he, hjoin⟩ := dir.exists_pieces_join
  obtain ⟨-, hpieces, habsolute⟩ := hjoin name (no_slash_of_isPlainName hname)
  rw [components_eq, hpieces, habsolute]
  by_cases hss : ss = []
  · subst hss
    obtain ⟨hrelative, hcomponents⟩ := eq_empty_of_pieces hdir he
    rw [hcomponents, hrelative, List.nil_append, meaning, component?_of_isPlainName hname]
    rfl
  · rw [components_eq, hdir, meaning_eq_of_append hss he,
      meaning_concat hss (component?_of_isPlainName hname false)]

theorem parent?_join (hname : isPlainName name = true) :
    ∃ p, (dir.join ⟨name⟩).parent? = some p ∧ p.components = dir.components := by
  obtain ⟨base, ss, e, hdir, he, hjoin⟩ := dir.exists_pieces_join
  obtain ⟨-, hpieces, habsolute⟩ := hjoin name (no_slash_of_isPlainName hname)
  have hslash : ∀ s ∈ ss, '/' ∉ s := by
    intro s hs
    exact no_slash_of_mem_pieces (hdir ▸ List.mem_append_left e hs)
  by_cases hss : ss = []
  · subst hss
    obtain ⟨hrelative, hcomponents⟩ := eq_empty_of_pieces hdir he
    refine ⟨_, parent?_of_relative (habsolute.trans hrelative) hpieces (dropVoid_name hname _ _), ?_⟩
    rw [hcomponents]
    rfl
  obtain ⟨s, ss, rfl⟩ := List.exists_cons_of_ne_nil hss
  have hcomponents : dir.components = meaning dir.isAbsolute (s :: ss) := by
    rw [components_eq, hdir, meaning_eq_of_append hss he]
  have hopening : dir.isAbsolute = true ↔ s = [] := by
    rw [← habsolute, isAbsolute_iff, hpieces]
    constructor
    · rintro ⟨_, _, hlong⟩
      exact (List.cons.inj hlong).1
    · rintro rfl
      obtain ⟨s', ss', hrest⟩ := List.exists_cons_of_ne_nil (List.concat_ne_nil name.toList ss)
      exact ⟨s', ss', congrArg ([] :: ·) hrest⟩
  cases hdirAbsolute : dir.isAbsolute with
  | true =>
    obtain rfl := hopening.1 hdirAbsolute
    refine ⟨_, parent?_of_absolute (habsolute.trans hdirAbsolute) hpieces
      (dropVoid_name hname _ _), ?_⟩
    rw [hcomponents, hdirAbsolute,
      components_glue_absolute fun p hp => hslash p (List.mem_cons_of_mem _ hp)]
  | false =>
    have hs : s ≠ [] := by
      intro hempty
      rw [hopening.2 hempty] at hdirAbsolute
      cases hdirAbsolute
    refine ⟨_, parent?_of_relative (habsolute.trans hdirAbsolute) hpieces
      (dropVoid_name hname _ _), ?_⟩
    rw [hcomponents, hdirAbsolute, components_glue_relative hslash hs]

end

end Path

end MillGateway
