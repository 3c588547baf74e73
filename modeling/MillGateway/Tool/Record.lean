import MillGateway.Text.Blank
import MillGateway.Text.Integer
import MillGateway.Tool.Key
import MillGateway.Word

/-! One tool of the table: the values of its fields. A field without value is absent. -/

namespace MillGateway.Tool

@[ext]
structure Record where
  get : Key → Option String
  ne_empty : ∀ k, get k ≠ some ""

namespace Record

def empty : Record where
  get _ := none
  ne_empty _ := nofun

instance : Inhabited Record := ⟨empty⟩

def set (r : Record) (k : Key) (v : String) : Record where
  get k' := if k' = k then (if v = "" then none else some v) else r.get k'
  ne_empty k' := by
    split
    · split
      · nofun
      · rename_i h; simpa using h
    · exact r.ne_empty k'

instance : DecidableEq Record := fun r s =>
  if h : Key.all.all (fun k => r.get k == s.get k) then
    .isTrue (by
      ext1; funext k
      simpa using List.all_eq_true.1 h k (Key.mem_all k))
  else .isFalse (by rintro rfl; simp at h)

def fields (r : Record) : List (Key × String) :=
  Key.all.filterMap fun k => (r.get k).map (k, ·)

def isEmpty (r : Record) : Bool :=
  r.fields.isEmpty

/-- The tool number: the value of the field `T`, if it is an integer of 64 bits. -/
def toolNumber (r : Record) : Option Int :=
  (r.get .t).bind fun v => Text.readInt? Word.minInt64 Word.maxInt64 v.toList

def breaksLine (v : String) : Bool :=
  v.toList.any fun c => c == '\n' || c == '\r'

/-- Whether a table line cannot hold the value: none may break the line, and a value other than
the comment is a single word without semicolon. -/
def malformed (k : Key) (v : String) : Bool :=
  breaksLine v || (k != .comment && v.toList.any fun c => c == ';' || Text.isBlank c)

def malformedField (r : Record) : Option Key :=
  (r.fields.find? fun (k, v) => malformed k v).map (·.1)

@[simp] theorem get_empty (k : Key) : empty.get k = none := rfl

theorem get_set (r : Record) (k k' : Key) (v : String) :
    (r.set k v).get k' = if k' = k then (if v = "" then none else some v) else r.get k' := rfl

theorem mem_fields {r : Record} {k : Key} {v : String} :
    (k, v) ∈ r.fields ↔ r.get k = some v := by
  simp [fields, Key.mem_all]

end Record

end MillGateway.Tool
