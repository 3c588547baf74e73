import MillGateway.Proofs.Json.Members
import MillGateway.Proofs.Lookup
import MillGateway.Proofs.Tool.Codec
import MillGateway.Proofs.Tool.Key

/-! What a tool read from an object holds. Main statement: the first array or object under the
letter of a field is the error; without one a field has the text under its small letter, or else
the text under its capital letter. -/

namespace MillGateway

namespace Json

def nested : Json → Bool
  | .arr _ | .obj _ => true
  | .null | .bool _ | .num _ | .str _ => false

def plain? : Json → Option String
  | .str s => some s
  | .num n => some (text (.num n))
  | .bool b => some (text (.bool b))
  | .null | .arr _ | .obj _ => none

end Json

namespace Tool.Record

def Names (name : String) (k : Key) : Prop :=
  name = k.symbol.toString ∨ name = k.small.toString

def Blocks (o : Json) (name : String) (k : Key) : Prop :=
  Names name k ∧ ∃ v, o.get? name = some v ∧ v.nested

def told? (o : Json) (k : Key) : Option String :=
  (((o.get? k.small.toString).bind Json.plain?).or
    ((o.get? k.symbol.toString).bind Json.plain?)).filter (· ≠ "")

section Member

variable {name : String} {v : Json} {k : Key} {m : String × Json}

theorem keyOfName?_eq_some_iff : keyOfName? name = some k ↔ Names name k := by
  have hsingle (c : Char) : name = c.toString ↔ name.toList = [c] := by
    rw [← String.toList_inj]
    exact iff_of_eq (congrArg _ (String.toList_singleton c))
  rw [Names, hsingle, hsingle, keyOfName?]
  split
  next c h =>
    rw [Key.ofSymbol?_eq_some_iff, h, List.singleton_inj, List.singleton_inj]
  next h =>
    constructor
    · intro hk
      cases hk
    · rintro (hk | hk)
      · exact absurd hk (h _)
      · exact absurd hk (h _)

theorem memberText?_eq (k : Key) (v : Json) :
    memberText? k v = if v.nested then .error (.badToolField k.symbol) else .ok v.plain? := by
  have hnum (n : JsonNumber) : Json.text (.num n) = n.text := String.ofList_toList
  cases v with
  | num n => exact congrArg (Except.ok ∘ some) (hnum n).symm
  | bool b => cases b <;> rfl
  | null | str s | arr vs | obj ms => rfl

def blocked? (m : String × Json) : Option Key :=
  if m.2.nested then keyOfName? m.1 else none

def word? (k : Key) (m : String × Json) : Option String :=
  if keyOfName? m.1 = some k then m.2.plain? else none

def value? (v : String) : Option String :=
  if v = "" then none else some v

theorem takeMember_blocked (r : Record) (h : blocked? m = some k) :
    takeMember r m = .error (.badToolField k.symbol) := by
  rw [blocked?] at h
  split at h
  next hv =>
    rw [takeMember, h]
    show (memberText? k m.2 >>= _) = _
    rw [memberText?_eq, if_pos hv]
    rfl
  next => exact absurd h.symm (Option.some_ne_none k)

theorem takeMember_free (r : Record) (h : blocked? m = none) :
    ∃ r', takeMember r m = .ok r' ∧ ∀ k, r'.get k = (word? k m).elim (r.get k) value? := by
  rw [takeMember]
  cases hname : keyOfName? m.1 with
  | none => exact ⟨r, rfl, fun k => by rw [word?, hname, if_neg (Option.some_ne_none k).symm]; rfl⟩
  | some k =>
    have hv : m.2.nested = false := by
      rw [blocked?, hname] at h
      exact Bool.eq_false_iff.2 fun hv => Option.some_ne_none k ((if_pos hv).symm.trans h)
    have hword (k' : Key) : word? k' m = if k' = k then m.2.plain? else none := by
      rw [word?, hname]
      simp only [Option.some.injEq, eq_comm]
    show ∃ r', (memberText? k m.2 >>= _) = _ ∧ _
    rw [memberText?_eq, hv]
    cases hplain : m.2.plain? with
    | none =>
      refine ⟨r, rfl, fun k' => ?_⟩
      rw [hword, hplain, ite_self]
      rfl
    | some v =>
      refine ⟨r.set k v, rfl, fun k' => ?_⟩
      rw [hword, hplain, get_set]
      split <;> rfl

end Member

section Members

variable {ms : Json.Members} {k : Key}

theorem foldlM_takeMember_blocked (r : Record) (h : ms.findSome? blocked? = some k) :
    ms.foldlM takeMember r = .error (.badToolField k.symbol) := by
  induction ms generalizing r with
  | nil => exact absurd h.symm (Option.some_ne_none k)
  | cons m ms ih =>
    rw [List.findSome?_cons] at h
    rw [List.foldlM_cons]
    cases hm : blocked? m with
    | some k' =>
      rw [hm] at h
      rw [takeMember_blocked r hm, Option.some.inj h]
      rfl
    | none =>
      rw [hm] at h
      obtain ⟨r', hr', -⟩ := takeMember_free r hm
      rw [hr']
      exact ih r' h

theorem foldlM_takeMember_free (r : Record) (h : ms.findSome? blocked? = none) :
    ∃ r', ms.foldlM takeMember r = .ok r' ∧
      ∀ k, r'.get k = (ms.filterMap (word? k)).getLast?.elim (r.get k) value? := by
  induction ms generalizing r with
  | nil => exact ⟨r, rfl, fun k => rfl⟩
  | cons m ms ih =>
    have hfree := List.findSome?_eq_none_iff.1 h
    obtain ⟨r₁, hr₁, hget₁⟩ := takeMember_free r (hfree m List.mem_cons_self)
    obtain ⟨r₂, hr₂, hget₂⟩ := ih r₁ <| List.findSome?_eq_none_iff.2 fun m' hm' =>
      hfree m' (List.mem_cons_of_mem _ hm')
    rw [List.foldlM_cons, hr₁]
    refine ⟨r₂, hr₂, fun k => ?_⟩
    rw [hget₂, hget₁, List.filterMap_cons]
    cases word? k m with
    | none => rfl
    | some v =>
      rw [List.getLast?_cons]
      cases (ms.filterMap (word? k)).getLast? <;> rfl

theorem not_small_lt (k : Key) : ¬ k.small.toString < k.symbol.toString := by
  cases k <;> decide

theorem getLast?_words_cons {name : String} {v : Json} (hname : keyOfName? name = some k) :
    (((name, v) :: ms).filterMap (word? k)).getLast? =
      (ms.filterMap (word? k)).getLast?.or v.plain? := by
  rw [List.filterMap_cons, word?, if_pos hname]
  cases v.plain? with
  | none => exact (Option.or_none).symm
  | some s =>
    rw [List.getLast?_cons]
    cases (ms.filterMap (word? k)).getLast? <;> rfl

theorem getLast?_words (hms : ms.Sorted) (k : Key) :
    (ms.filterMap (word? k)).getLast? = ((ms.lookup k.small.toString).bind Json.plain?).or
      ((ms.lookup k.symbol.toString).bind Json.plain?) := by
  induction ms with
  | nil => rfl
  | cons m ms ih =>
    obtain ⟨name, v⟩ := m
    have hrest := ih (List.pairwise_cons.1 hms).2
    by_cases hname : keyOfName? name = some k
    · have hself : ms.lookup name = none := hms.lookup_eq_none (String.lt_irrefl _)
      rw [getLast?_words_cons hname, hrest]
      rw [keyOfName?_eq_some_iff] at hname
      by_cases hlast : name = k.small.toString
      · -- nothing is said of the field after its small letter
        subst hlast
        have hfirst : ms.lookup k.symbol.toString = none := hms.lookup_eq_none (not_small_lt k)
        rw [hself, hfirst, List.lookup_cons_self, Option.bind_none, Option.or_none, Option.none_or,
          Option.bind_some]
        by_cases heq : k.symbol.toString = k.small.toString
        · rw [heq, List.lookup_cons_self, Option.bind_some, Option.or_self]
        · rw [lookup_cons_of_ne heq, hfirst, Option.bind_none, Option.or_none]
      · have hfirst := hname.resolve_right hlast
        subst hfirst
        rw [hself, lookup_cons_of_ne (Ne.symm hlast), List.lookup_cons_self,
          Option.bind_none, Option.or_none, Option.bind_some]
    · rw [List.filterMap_cons, word?, if_neg hname]
      rw [keyOfName?_eq_some_iff, Names, not_or] at hname
      rw [lookup_cons_of_ne (Ne.symm hname.1),
        lookup_cons_of_ne (Ne.symm hname.2)]
      exact hrest

end Members

section Objects

variable {ms : Json.Members} {name : String} {k : Key}

theorem blocked?_eq_some_iff {m : String × Json} :
    blocked? m = some k ↔ Names m.1 k ∧ m.2.nested := by
  rw [blocked?, Option.ite_none_right_eq_some, keyOfName?_eq_some_iff, and_comm]

theorem blocks_iff (hms : ms.Sorted) :
    Blocks (.obj ms) name k ↔ ∃ v, (name, v) ∈ ms ∧ blocked? (name, v) = some k := by
  simp only [Blocks, Json.get?, hms.lookup_eq_some_iff, blocked?_eq_some_iff]
  constructor
  · rintro ⟨hname, v, hv, hnested⟩
    exact ⟨v, hv, hname, hnested⟩
  · rintro ⟨v, hv, hname, hnested⟩
    exact ⟨hname, v, hv, hnested⟩

theorem findSome?_blocked (hms : ms.Sorted) :
    ms.findSome? blocked? = some k ↔ ∃ name, Blocks (.obj ms) name k ∧
      ∀ name' k', Blocks (.obj ms) name' k' → name ≤ name' := by
  simp only [blocks_iff hms]
  rw [List.findSome?_eq_some_iff]
  constructor
  · rintro ⟨us, ⟨name, v⟩, vs, rfl, hm, hus⟩
    refine ⟨name, ⟨v, List.mem_append_right _ List.mem_cons_self, hm⟩, ?_⟩
    rintro name' k' ⟨v', hmem, hm'⟩
    rcases List.mem_append.1 hmem with hmem | hmem
    · exact absurd ((hus _ hmem).symm.trans hm') (Option.some_ne_none k').symm
    · rcases List.mem_cons.1 hmem with heq | hmem
      · exact (Prod.mk.inj heq).1 ▸ String.le_refl name'
      · have hvs := (List.pairwise_cons.1 (List.pairwise_append.1 hms).2.1).1 _ hmem
        exact Std.le_of_lt hvs
  · rintro ⟨name, ⟨v, hmem, hm⟩, hleast⟩
    obtain ⟨us, vs, rfl⟩ := List.append_of_mem hmem
    refine ⟨us, _, vs, rfl, hm, fun u hu => ?_⟩
    by_contra hsome
    obtain ⟨k', hk'⟩ := Option.ne_none_iff_exists'.1 hsome
    have hle := hleast u.1 k' ⟨u.2, List.mem_append_left _ hu, hk'⟩
    have hlt : u.1 < name := (List.pairwise_append.1 hms).2.2 u hu _ List.mem_cons_self
    exact String.not_lt.2 hle hlt

theorem findSome?_free (hms : ms.Sorted) :
    ms.findSome? blocked? = none ↔ ¬ ∃ name k, Blocks (.obj ms) name k := by
  simp only [blocks_iff hms]
  rw [List.findSome?_eq_none_iff]
  constructor
  · rintro hfree ⟨name, k, v, hmem, hm⟩
    exact Option.some_ne_none k (hm.symm.trans (hfree _ hmem))
  · intro hfree m hmem
    by_contra hsome
    obtain ⟨k, hk⟩ := Option.ne_none_iff_exists'.1 hsome
    exact hfree ⟨m.1, k, m.2, hmem, hk⟩

theorem shape_eq_error_iff (hms : ms.Sorted) {e : ShapeError} :
    shape (.obj ms) = .error e ↔ ∃ name k, Blocks (.obj ms) name k ∧
      (∀ name' k', Blocks (.obj ms) name' k' → name ≤ name') ∧ e = .badToolField k.symbol := by
  have hfirst : shape (.obj ms) = .error e ↔
      ∃ k, ms.findSome? blocked? = some k ∧ e = .badToolField k.symbol := by
    show ms.foldlM takeMember empty = _ ↔ _
    cases hfound : ms.findSome? blocked? with
    | some k =>
      rw [foldlM_takeMember_blocked empty hfound]
      simp only [Except.error.injEq, Option.some.injEq, exists_eq_left', eq_comm]
    | none =>
      obtain ⟨r, hr, -⟩ := foldlM_takeMember_free empty hfound
      rw [hr]
      simp only [reduceCtorEq, false_and, exists_false]
  rw [hfirst]
  constructor
  · rintro ⟨k, hk, he⟩
    obtain ⟨name, hname, hleast⟩ := (findSome?_blocked hms).1 hk
    exact ⟨name, k, hname, hleast, he⟩
  · rintro ⟨name, k, hname, hleast, he⟩
    exact ⟨k, (findSome?_blocked hms).2 ⟨name, hname, hleast⟩, he⟩

theorem shape_eq_ok_iff (hms : ms.Sorted) {r : Record} :
    shape (.obj ms) = .ok r ↔
      (¬ ∃ name k, Blocks (.obj ms) name k) ∧ ∀ k, r.get k = told? (.obj ms) k := by
  rw [← findSome?_free hms]
  show ms.foldlM takeMember empty = _ ↔ _
  cases hfound : ms.findSome? blocked? with
  | some k =>
    rw [foldlM_takeMember_blocked empty hfound]
    simp only [reduceCtorEq, false_and]
  | none =>
    obtain ⟨s, hs, hget⟩ := foldlM_takeMember_free empty hfound
    have htold (k : Key) : s.get k = told? (.obj ms) k := by
      rw [hget, getLast?_words hms, told?, Json.get?, Json.get?]
      cases ((ms.lookup k.small.toString).bind Json.plain?).or
        ((ms.lookup k.symbol.toString).bind Json.plain?) with
      | none => rfl
      | some v => simp [value?, Option.filter, Option.elim]
    rw [hs, Except.ok.injEq, Record.ext_iff, funext_iff]
    simp only [true_and, htold, eq_comm]

end Objects

theorem shape_congr {l l' : Json.Members} (h : ∀ name k, Names name k →
      (Json.ofMembers l').get? name = (Json.ofMembers l).get? name) :
    shape (.ofMembers l') = shape (.ofMembers l) := by
  have hblocks (name : String) (k : Key) :
      Blocks (.ofMembers l') name k ↔ Blocks (.ofMembers l) name k := by
    rw [Blocks, Blocks]
    exact and_congr_right fun hname => by rw [h name k hname]
  have htold (k : Key) : told? (.ofMembers l') k = told? (.ofMembers l) k := by
    rw [told?, told?, h _ k (.inl rfl), h _ k (.inr rfl)]
  obtain ⟨ms, hms, hsorted⟩ := Json.exists_sorted_members l
  obtain ⟨ms', hms', hsorted'⟩ := Json.exists_sorted_members l'
  simp only [hms, hms'] at hblocks htold ⊢
  cases hread : shape (.obj ms) with
  | error e =>
    rw [shape_eq_error_iff hsorted] at hread
    rw [shape_eq_error_iff hsorted']
    simpa only [hblocks] using hread
  | ok r =>
    rw [shape_eq_ok_iff hsorted] at hread
    rw [shape_eq_ok_iff hsorted']
    simpa only [hblocks, htold] using hread

/-- A record reads back from its object. Of any other object the members under the letters of the
fields count: an array or object among them is an error, the one of the least key; else a field has
what its small letter says, or else its capital letter. -/
theorem shape_ofMembers :
    (∀ r : Record, shape r.toJson = .ok r) ∧
    ∀ l : Json.Members,
      ((∃ e, shape (.ofMembers l) = .error e) ↔ ∃ name k, Blocks (.ofMembers l) name k) ∧
      (∀ e, shape (.ofMembers l) = .error e ↔ ∃ name k, Blocks (.ofMembers l) name k ∧
        (∀ name' k', Blocks (.ofMembers l) name' k' → name ≤ name') ∧
        e = .badToolField k.symbol) ∧
      (∀ r, shape (.ofMembers l) = .ok r ↔ (¬ ∃ name k, Blocks (.ofMembers l) name k) ∧
        ∀ k, r.get k = told? (.ofMembers l) k) ∧
      ∀ l', (∀ name k, Names name k →
          (Json.ofMembers l').get? name = (Json.ofMembers l).get? name) →
        shape (.ofMembers l') = shape (.ofMembers l) := by
  refine ⟨shape_toJson, fun l => ?_⟩
  obtain ⟨ms, hms, hsorted⟩ := Json.exists_sorted_members l
  refine ⟨?_, ?_, ?_, fun l' h => shape_congr h⟩
  · rw [hms]
    constructor
    · rintro ⟨e, he⟩
      obtain ⟨name, k, hblocks, -⟩ := (shape_eq_error_iff hsorted).1 he
      exact ⟨name, k, hblocks⟩
    · intro hblocks
      cases hread : shape (.obj ms) with
      | error e => exact ⟨e, rfl⟩
      | ok r => exact absurd hblocks ((shape_eq_ok_iff hsorted).1 hread).1
  · rw [hms]
    exact fun e => shape_eq_error_iff hsorted
  · rw [hms]
    exact fun r => shape_eq_ok_iff hsorted

theorem shape_ofMembers_both_letters :
    shape (.ofMembers [("t", .str ""), ("T", .str "5"), ("note", .arr [])]) = .ok empty ∧
    shape (.ofMembers [("t", .null), ("T", .str "5")]) = .ok (empty.set .t "5") ∧
    shape (.ofMembers [("p", .arr []), ("T", .obj [])]) = .error (.badToolField 'T') := by
  refine ⟨?_, ?_, ?_⟩
  · have hnote : ∀ name k, Names name k →
        (Json.ofMembers [("t", .str ""), ("T", .str "5"), ("note", .arr [])]).get? name =
          (Json.ofMembers [("t", .str ""), ("T", .str "5")]).get? name := by
      rintro name k (rfl | rfl) <;> cases k <;> rfl
    have hsorted : Json.Members.Sorted [("T", .str "5"), ("t", .str "")] := by
      unfold Json.Members.Sorted; decide
    have hfree := (findSome?_free hsorted).1 rfl
    rw [(shape_ofMembers.2 _).2.2.2 _ hnote]
    exact ((shape_ofMembers.2 _).2.2.1 _).2 ⟨hfree, fun k => by cases k <;> rfl⟩
  · have hsorted : Json.Members.Sorted [("T", .str "5"), ("t", .null)] := by
      unfold Json.Members.Sorted; decide
    have hfree := (findSome?_free hsorted).1 rfl
    exact ((shape_ofMembers.2 _).2.2.1 _).2 ⟨hfree, fun k => by cases k <;> rfl⟩
  · have hsorted : Json.Members.Sorted [("T", .obj []), ("p", .arr [])] := by
      unfold Json.Members.Sorted; decide
    obtain ⟨name, hblocks, hleast⟩ := (findSome?_blocked (k := .t) hsorted).1 rfl
    exact ((shape_ofMembers.2 _).2.1 _).2 ⟨name, .t, hblocks, hleast, rfl⟩

end Tool.Record

end MillGateway
