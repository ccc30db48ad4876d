/-
JSON values.

A tree may list the fields of an object in any order. A `Json` is a tree whose objects list theirs
in the order of the keys, so that equal values are equal trees; what an object is worth is then what
its keys are mapped to. An array is a value of its own here: nothing looks into it.
-/
import TokenCode.Lib.SortedMap
import TokenCode.Lib.Text

namespace TokenCode

/-- A JSON value as it is written; the digits of a number are kept as text. -/
inductive JsonTree where
  | null
  | bool (value : Bool)
  | number (digits : Text)
  | string (value : Text)
  | array (elements : List JsonTree)
  | object (fields : List ((_ : Text) × JsonTree))
deriving Repr

namespace JsonTree

/-! ### Equality -/

mutual

/-- Equality of trees, as a program. -/
def eqv : JsonTree → JsonTree → Bool
  | .null, .null => true
  | .bool a, .bool b => a == b
  | .number a, .number b => a == b
  | .string a, .string b => a == b
  | .array a, .array b => eqvElements a b
  | .object a, .object b => eqvFields a b
  | _, _ => false

def eqvElements : List JsonTree → List JsonTree → Bool
  | [], [] => true
  | a :: as, b :: bs => eqv a b && eqvElements as bs
  | _, _ => false

def eqvFields : List ((_ : Text) × JsonTree) → List ((_ : Text) × JsonTree) → Bool
  | [], [] => true
  | ⟨key, a⟩ :: as, ⟨other, b⟩ :: bs => key == other && eqv a b && eqvFields as bs
  | _, _ => false

end

mutual

lemma eqv_iff : (a b : JsonTree) → (eqv a b = true ↔ a = b)
  | .null, b => by cases b <;> simp [eqv]
  | .bool _, b => by cases b <;> simp [eqv]
  | .number _, b => by cases b <;> simp [eqv]
  | .string _, b => by cases b <;> simp [eqv]
  | .array as, b => by
    cases b with
    | array bs => simp [eqv, eqvElements_iff as bs]
    | _ => simp [eqv]
  | .object as, b => by
    cases b with
    | object bs => simp [eqv, eqvFields_iff as bs]
    | _ => simp [eqv]

lemma eqvElements_iff : (as bs : List JsonTree) → (eqvElements as bs = true ↔ as = bs)
  | [], bs => by cases bs <;> simp [eqvElements]
  | a :: as, bs => by
    cases bs with
    | nil => simp [eqvElements]
    | cons b bs => simp [eqvElements, eqv_iff a b, eqvElements_iff as bs]

lemma eqvFields_iff : (as bs : List ((_ : Text) × JsonTree)) → (eqvFields as bs = true ↔ as = bs)
  | [], bs => by cases bs <;> simp [eqvFields]
  | ⟨key, a⟩ :: as, bs => by
    cases bs with
    | nil => simp [eqvFields]
    | cons b bs => simp [eqvFields, eqv_iff a b.2, eqvFields_iff as bs, Sigma.ext_iff]

end

instance : DecidableEq JsonTree := fun a b => decidable_of_iff (eqv a b = true) (eqv_iff a b)

/-! ### Objects inside objects -/

mutual

/-- The check holds of every object that is reached from the value through objects. -/
def allObjects (check : List ((_ : Text) × JsonTree) → Bool) : JsonTree → Bool
  | .object fields => check fields && allFields check fields
  | _ => true

def allFields (check : List ((_ : Text) × JsonTree) → Bool) : List ((_ : Text) × JsonTree) → Bool
  | [] => true
  | ⟨_, value⟩ :: fields => allObjects check value && allFields check fields

end

/-- The objects list their fields in the order of the keys. -/
def Ordered (tree : JsonTree) : Prop :=
  allObjects (fun fields => decide (SortedMap.Sorted fields)) tree = true

/-- No field of an object is null. -/
def NoNullField (tree : JsonTree) : Prop :=
  allObjects (fun fields => fields.all (·.2 ≠ .null)) tree = true

instance (tree : JsonTree) : Decidable tree.Ordered :=
  inferInstanceAs (Decidable (_ = true))

instance (tree : JsonTree) : Decidable tree.NoNullField :=
  inferInstanceAs (Decidable (_ = true))

/-- `as_object`. -/
def asObject : JsonTree → Option (List ((_ : Text) × JsonTree))
  | .object fields => some fields
  | _ => none

section

variable {check : List ((_ : Text) × JsonTree) → Bool} {fields : List ((_ : Text) × JsonTree)}

lemma allFields_iff : allFields check fields = true ↔
    ∀ field ∈ fields, allObjects check field.2 = true := by
  induction fields with
  | nil => simp [allFields]
  | cons field fields ih => simp [allFields, ih]

lemma ordered_object : Ordered (.object fields) ↔
    SortedMap.Sorted fields ∧ ∀ field ∈ fields, Ordered field.2 := by
  simp [Ordered, allObjects, allFields_iff]

lemma noNullField_object : NoNullField (.object fields) ↔
    (∀ field ∈ fields, field.2 ≠ .null) ∧ ∀ field ∈ fields, NoNullField field.2 := by
  simp [NoNullField, allObjects, allFields_iff]

end

/-- A proof about trees goes through the fields of objects. -/
theorem object_induction {motive : JsonTree → Prop}
    (value : ∀ tree, tree.asObject = none → motive tree)
    (object : ∀ fields, (∀ field ∈ fields, motive field.2) → motive (.object fields))
    (tree : JsonTree) : motive tree := by
  refine @JsonTree.rec motive (fun _ => True) (fun fields => ∀ field ∈ fields, motive field.2)
    (fun field => motive field.2) (value _ rfl) (fun _ => value _ rfl) (fun _ => value _ rfl)
    (fun _ => value _ rfl) (fun _ _ => value _ rfl) object trivial (fun _ _ _ _ => trivial)
    (by simp) ?_ (fun _ _ h => h) tree
  intro field fields hfield hfields other hother
  rcases List.mem_cons.1 hother with rfl | hother
  · exact hfield
  · exact hfields other hother

end JsonTree

/-- A JSON value. -/
abbrev Json := {tree : JsonTree // tree.Ordered}

end TokenCode
