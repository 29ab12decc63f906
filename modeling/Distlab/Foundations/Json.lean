import Mathlib.Data.List.Sort
import Mathlib.Data.String.Basic
import Distlab.Foundations.Dict

/-!
# JSON values

The values a JSON text denotes, with objects as lists of fields in the order of the
text. A library writes values with sorted keys and reads texts; hooks look at every
object and at every constant it reads. Both may find a value nested too deep. Nothing is
assumed of a library but, where a result says so, that it reads what it wrote.
-/

set_option autoImplicit false

namespace Distlab.Foundations

universe u

/-- A JSON value. A float has its literal, and whether it is zero; a constant is one of
the names of numbers that JSON does not have. -/
inductive Json where
  | null
  | bool (value : Bool)
  | int (value : ℤ)
  | float (literal : String) (zero : Bool)
  | constant (name : String)
  | string (value : String)
  | array (items : List Json)
  | object (fields : List (String × Json))

namespace Json

/-- The fields in the order of their keys. -/
def sortByKey (fields : List (String × Json)) : List (String × Json) :=
  fields.insertionSort fun a b => a.1 ≤ b.1

mutual

/-- The value with the fields of each object sorted by key. -/
def sortKeys : Json → Json
  | .array items => .array (sortItems items)
  | .object fields => .object (sortByKey (sortFields fields))
  | .null => .null
  | .bool value => .bool value
  | .int value => .int value
  | .float literal zero => .float literal zero
  | .constant name => .constant name
  | .string value => .string value

/-- The items of an array, sorted inside. -/
def sortItems : List Json → List Json
  | [] => []
  | item :: items => item.sortKeys :: sortItems items

/-- The values of fields, sorted inside. -/
def sortFields : List (String × Json) → List (String × Json)
  | [] => []
  | (key, value) :: fields => (key, value.sortKeys) :: sortFields fields

end

section Hooks

variable {ε : Type u} (objectHook : List (String × Json) → Except ε Json)
  (constantHook : String → Except ε Json)

mutual

/-- The hooks at each object, from the inside out, and at each constant. -/
def hooked : Json → Except ε Json
  | .array items => do return .array (← hookedItems items)
  | .object fields => do objectHook (← hookedFields fields)
  | .constant name => constantHook name
  | .null => .ok .null
  | .bool value => .ok (.bool value)
  | .int value => .ok (.int value)
  | .float literal zero => .ok (.float literal zero)
  | .string value => .ok (.string value)

/-- The hooks in the items of an array. -/
def hookedItems : List Json → Except ε (List Json)
  | [] => .ok []
  | item :: items => do return (← hooked item) :: (← hookedItems items)

/-- The hooks in the values of fields. -/
def hookedFields : List (String × Json) → Except ε (List (String × Json))
  | [] => .ok []
  | (key, value) :: fields => do return (key, ← hooked value) :: (← hookedFields fields)

end

end Hooks

/-! ## Access to a value -/

/-- What an access to a value raises. -/
inductive AccessError where
  /-- `KeyError` -/
  | key (key : String)
  /-- `TypeError` -/
  | type
  /-- `AttributeError` -/
  | attribute
  deriving DecidableEq

/-- The value is a dictionary. -/
def isObject : Json → Bool
  | .object _ => true
  | _ => false

/-- The value is a list. -/
def isArray : Json → Bool
  | .array _ => true
  | _ => false

/-- `value[key]`. -/
def item (key : String) : Json → Except AccessError Json
  | .object fields =>
      match fields.lookup key with
      | some value => .ok value
      | none => .error (.key key)
  | _ => .error .type

/-- `value.get(key)`. -/
def get (key : String) : Json → Except AccessError Json
  | .object fields => .ok ((fields.lookup key).getD .null)
  | _ => .error .attribute

/-- What a loop over the value goes through. -/
def elements : Json → Except AccessError (List Json)
  | .array items => .ok items
  | .object fields => .ok (fields.map fun field => .string field.1)
  | .string value => .ok (value.toList.map fun c => .string c.toString)
  | _ => .error .type

/-- `len(value)`. -/
def length (value : Json) : Except AccessError ℕ := value.elements.map List.length

/-- `not value`. -/
def isFalsy : Json → Bool
  | .null => true
  | .bool value => !value
  | .int value => value = 0
  | .float _ zero => zero
  | .constant _ => false
  | .string value => value = ""
  | .array items => items.isEmpty
  | .object fields => fields.isEmpty

/-! ## Sorted keys -/

@[simp] theorem sortKeys_null : Json.null.sortKeys = .null := by rw [sortKeys]

@[simp] theorem sortKeys_int (value : ℤ) :
    (Json.int value).sortKeys = .int value := by rw [sortKeys]

@[simp] theorem sortKeys_string (value : String) :
    (Json.string value).sortKeys = .string value := by
  rw [sortKeys]

theorem sortItems_eq (items : List Json) : sortItems items = items.map sortKeys := by
  induction items with
  | nil => rfl
  | cons item items ih => rw [sortItems, List.map_cons, ih]

theorem sortFields_eq (fields : List (String × Json)) :
    sortFields fields = fields.map fun field => (field.1, field.2.sortKeys) := by
  induction fields with
  | nil => rfl
  | cons field fields ih => rw [sortFields, List.map_cons, ih]

theorem map_fst_sortFields (fields : List (String × Json)) :
    (sortFields fields).map Prod.fst = fields.map Prod.fst := by
  rw [sortFields_eq, List.map_map]
  rfl

theorem perm_sortByKey (fields : List (String × Json)) : (sortByKey fields).Perm fields :=
  List.perm_insertionSort _ fields

/-- Sorting the fields keeps the keys distinct. -/
theorem nodup_sortByKey {fields : List (String × Json)} (distinct : (fields.map Prod.fst).Nodup) :
    ((sortByKey fields).map Prod.fst).Nodup :=
  ((perm_sortByKey fields).map Prod.fst).nodup_iff.mpr distinct

theorem lookup_eq_some_of_nodup {fields : List (String × Json)} {key : String} {value : Json}
    (distinct : (fields.map Prod.fst).Nodup) :
    fields.lookup key = some value ↔ (key, value) ∈ fields := by
  induction fields with
  | nil => simp
  | cons field fields ih =>
      obtain ⟨name, other⟩ := field
      rw [List.map_cons, List.nodup_cons] at distinct
      rw [List.lookup_cons, List.mem_cons, Prod.mk.injEq]
      by_cases same : key = name
      · subst same
        have absent : (key, value) ∉ fields := fun member =>
          distinct.1 (List.mem_map.mpr ⟨_, member, rfl⟩)
        simp [absent, eq_comm]
      · rw [beq_false_of_ne same]
        simp [same, ih distinct.2]

/-- Sorting the fields keeps what each key has. -/
theorem lookup_sortByKey {fields : List (String × Json)} (distinct : (fields.map Prod.fst).Nodup)
    (key : String) : (sortByKey fields).lookup key = fields.lookup key := by
  refine Option.ext fun value => ?_
  rw [lookup_eq_some_of_nodup (nodup_sortByKey distinct), lookup_eq_some_of_nodup distinct,
    (perm_sortByKey fields).mem_iff]

theorem lookup_sortFields (fields : List (String × Json)) (key : String) :
    (sortFields fields).lookup key = (fields.lookup key).map sortKeys := by
  induction fields with
  | nil => rfl
  | cons field fields ih =>
      rw [sortFields, List.lookup_cons, List.lookup_cons, ih]
      split <;> rfl

/-- A key of an object with sorted keys has what it had, sorted inside. -/
theorem item_sortKeys {fields : List (String × Json)} (distinct : (fields.map Prod.fst).Nodup)
    {key : String} {value : Json} (found : fields.lookup key = some value) :
    (Json.object fields).sortKeys.item key = .ok value.sortKeys := by
  have keys : ((sortFields fields).map Prod.fst).Nodup := by rwa [map_fst_sortFields]
  rw [sortKeys, item, lookup_sortByKey keys, lookup_sortFields, found]
  rfl

/-! ## Values that hooks accept -/

/-- No constants, and no object has a key twice. -/
inductive Plain : Json → Prop
  | null : Plain .null
  | bool (value : Bool) : Plain (.bool value)
  | int (value : ℤ) : Plain (.int value)
  | float (literal : String) (zero : Bool) : Plain (.float literal zero)
  | string (value : String) : Plain (.string value)
  | array {items : List Json} (plain : ∀ item ∈ items, Plain item) : Plain (.array items)
  | object {fields : List (String × Json)} (distinct : (fields.map Prod.fst).Nodup)
      (plain : ∀ field ∈ fields, Plain field.2) : Plain (.object fields)

theorem Plain.sortKeys {value : Json} (plain : Plain value) : Plain value.sortKeys := by
  induction plain with
  | null => exact .null
  | bool value => exact .bool value
  | int value => exact .int value
  | float literal zero => exact .float literal zero
  | string value => exact .string value
  | array plain ih =>
      rw [Json.sortKeys, sortItems_eq]
      refine .array fun item member => ?_
      obtain ⟨original, listed, rfl⟩ := List.mem_map.mp member
      exact ih original listed
  | object distinct plain ih =>
      rw [← map_fst_sortFields] at distinct
      refine .object (nodup_sortByKey distinct) fun field member => ?_
      rw [(perm_sortByKey _).mem_iff, sortFields_eq] at member
      obtain ⟨original, listed, rfl⟩ := List.mem_map.mp member
      exact ih original listed

section Hooks

variable {ε : Type u} {objectHook : List (String × Json) → Except ε Json}
  {constantHook : String → Except ε Json}

theorem hookedItems_eq_ok {items : List Json}
    (kept : ∀ item ∈ items, hooked objectHook constantHook item = .ok item) :
    hookedItems objectHook constantHook items = .ok items := by
  induction items with
  | nil => rfl
  | cons item items ih =>
      obtain ⟨here, later⟩ := List.forall_mem_cons.mp kept
      rw [hookedItems, here, ih later]
      rfl

theorem hookedFields_eq_ok {fields : List (String × Json)}
    (kept : ∀ field ∈ fields, hooked objectHook constantHook field.2 = .ok field.2) :
    hookedFields objectHook constantHook fields = .ok fields := by
  induction fields with
  | nil => rfl
  | cons field fields ih =>
      obtain ⟨here, later⟩ := List.forall_mem_cons.mp kept
      rw [hookedFields, here, ih later]
      rfl

/-- **Hooks that keep objects with distinct keys** keep a plain value. -/
theorem hooked_eq_ok (objectKept : ∀ fields : List (String × Json),
      (fields.map Prod.fst).Nodup → objectHook fields = .ok (.object fields))
    {value : Json} (plain : Plain value) : hooked objectHook constantHook value = .ok value := by
  induction plain with
  | array plain ih =>
      rw [hooked, hookedItems_eq_ok ih]
      rfl
  | object distinct plain ih =>
      rw [hooked, hookedFields_eq_ok ih]
      exact objectKept _ distinct
  | _ => rfl

/-- What the hooks raise has the property. -/
structure HooksRaise (objectHook : List (String × Json) → Except ε Json)
    (constantHook : String → Except ε Json) (P : ε → Prop) : Prop where
  object : ∀ fields error, objectHook fields = .error error → P error
  constant : ∀ name error, constantHook name = .error error → P error

variable {P : ε → Prop}

mutual

/-- What is raised in a value, a hook raised. -/
theorem hooked_error (hooks : HooksRaise objectHook constantHook P) : ∀ (value : Json) (error : ε),
    hooked objectHook constantHook value = .error error → P error
  | .array items, error, raised => by
      rw [hooked] at raised
      cases returned : hookedItems objectHook constantHook items with
      | error first =>
          rw [returned] at raised
          cases raised
          exact hookedItems_error hooks items _ returned
      | ok items' =>
          rw [returned] at raised
          cases raised
  | .object fields, error, raised => by
      rw [hooked] at raised
      cases returned : hookedFields objectHook constantHook fields with
      | error first =>
          rw [returned] at raised
          cases raised
          exact hookedFields_error hooks fields _ returned
      | ok fields' =>
          rw [returned] at raised
          exact hooks.object fields' error raised
  | .constant name, error, raised => hooks.constant name error raised

theorem hookedItems_error (hooks : HooksRaise objectHook constantHook P) :
    ∀ (items : List Json) (error : ε),
    hookedItems objectHook constantHook items = .error error → P error
  | item :: items, error, raised => by
      rw [hookedItems] at raised
      cases first : hooked objectHook constantHook item with
      | error _ =>
          rw [first] at raised
          cases raised
          exact hooked_error hooks item _ first
      | ok item' =>
          rw [first] at raised
          cases later : hookedItems objectHook constantHook items with
          | error _ =>
              rw [later] at raised
              cases raised
              exact hookedItems_error hooks items _ later
          | ok items' =>
              rw [later] at raised
              cases raised

theorem hookedFields_error (hooks : HooksRaise objectHook constantHook P) :
    ∀ (fields : List (String × Json)) (error : ε),
    hookedFields objectHook constantHook fields = .error error → P error
  | (key, value) :: fields, error, raised => by
      rw [hookedFields] at raised
      cases first : hooked objectHook constantHook value with
      | error _ =>
          rw [first] at raised
          cases raised
          exact hooked_error hooks value _ first
      | ok value' =>
          rw [first] at raised
          cases later : hookedFields objectHook constantHook fields with
          | error _ =>
              rw [later] at raised
              cases raised
              exact hookedFields_error hooks fields _ later
          | ok fields' =>
              rw [later] at raised
              cases raised

end

end Hooks

end Json

/-! ## Libraries -/

/-- What reading a text raises. -/
inductive LoadError where
  /-- `JSONDecodeError`, a `ValueError`. -/
  | decode
  /-- `RecursionError`, for a text nested too deep. -/
  | recursion
  deriving DecidableEq

/-- What writing a value raises. -/
inductive DumpError where
  /-- `RecursionError`, for a value nested too deep. -/
  | recursion
  deriving DecidableEq

/-- A JSON library: it writes a value, and reads a text. -/
structure JsonLibrary where
  dumps : Json → Except DumpError String
  loads : String → Except LoadError Json

namespace JsonLibrary

section Library

variable (library : JsonLibrary) (value : Json)

/-- The text of a value, if it has one. -/
def text : String :=
  match library.dumps value with
  | .ok encoded => encoded
  | .error _ => ""

/-- The library writes the value. -/
def Writes : Prop := library.dumps value = .ok (library.text value)

/-- If the library writes the value, it reads what it wrote. -/
def Reads : Prop := library.Writes value → library.loads (library.text value) = .ok value

/-- The library writes the value and reads what it wrote. -/
def Inverts : Prop := library.Writes value ∧ library.loads (library.text value) = .ok value

end Library

variable {library : JsonLibrary} {value : Json}

theorem Writes.inverts (writes : library.Writes value) (reads : library.Reads value) :
    library.Inverts value := ⟨writes, reads writes⟩

theorem text_eq {encoded : String} (written : library.dumps value = .ok encoded) :
    library.text value = encoded := by
  rw [text, written]

theorem writes_of_dumps {encoded : String} (written : library.dumps value = .ok encoded) :
    library.Writes value := by
  rw [Writes, text_eq written, written]

/-- A value that is not written is nested too deep. -/
theorem dumps_of_not_writes (deep : ¬ library.Writes value) :
    library.dumps value = .error .recursion := by
  cases written : library.dumps value with
  | ok encoded => exact absurd (writes_of_dumps written) deep
  | error error => rfl

/-- A library for one value and its text. -/
def single (text : String) (value : Json) : JsonLibrary where
  dumps _ := .ok text
  loads encoded := if encoded = text then .ok value else .error .decode

theorem single_inverts (text : String) (value : Json) : (single text value).Inverts value :=
  ⟨rfl, if_pos rfl⟩

end JsonLibrary

end Distlab.Foundations
