import Mathlib.Data.List.Nodup
import Distlab.Foundations.Json
import Distlab.Foundations.Outcome

/-!
# JSON texts

A value with sorted keys is its own form with sorted keys, so a text in canonical form
is written again as it stands. A runtime adds to a library which integer a float
equals, which decides when two values are one key of a set, and how dataclasses are compared.

`Json.write` writes a value compactly, and a library that writes so reads any values
whose texts differ.
-/

set_option autoImplicit false

namespace Distlab.Foundations

universe u

theorem except_ok_bind {ε α β : Type u} (a : α) (next : α → Except ε β) :
    ((Except.ok a : Except ε α) >>= next) = next a := rfl

theorem except_error_bind {ε α β : Type u} (error : ε) (next : α → Except ε β) :
    ((Except.error error : Except ε α) >>= next) = .error error := rfl

/-- A check that passes on every item gives the results of the items. -/
theorem mapM_eq_ok_map {ε α β : Type u} {body : α → Except ε β} {items : List α} (result : α → β)
    (passes : ∀ item ∈ items, body item = .ok (result item)) :
    items.mapM body = .ok (items.map result) := by
  induction items with
  | nil => rfl
  | cons item items ih =>
      obtain ⟨here, later⟩ := List.forall_mem_cons.mp passes
      rw [List.mapM_cons, here, ih later]
      rfl

namespace Json

/-! ## Sorted keys -/

@[simp] theorem sortKeys_bool (value : Bool) : (Json.bool value).sortKeys = .bool value := by
  rw [sortKeys]

@[simp] theorem sortKeys_array (items : List Json) :
    (Json.array items).sortKeys = .array (items.map sortKeys) := by
  rw [sortKeys, sortItems_eq]

theorem sortByKey_sortByKey (fields : List (String × Json)) :
    sortByKey (sortByKey fields) = sortByKey fields := by
  have total : ∀ a b : String × Json, a.1 ≤ b.1 ∨ b.1 ≤ a.1 := fun a b => le_total a.1 b.1
  have trans : ∀ a b c : String × Json, a.1 ≤ b.1 → b.1 ≤ c.1 → a.1 ≤ c.1 :=
    fun _ _ _ => le_trans
  have : Std.Total (fun a b : String × Json => a.1 ≤ b.1) := ⟨total⟩
  have : IsTrans (String × Json) (fun a b => a.1 ≤ b.1) := ⟨trans⟩
  exact (List.pairwise_insertionSort _ fields).insertionSort_eq

/-- Sorting inside the values keeps the order of the fields. -/
theorem sortFields_sortByKey (fields : List (String × Json)) :
    sortFields (sortByKey fields) = sortByKey (sortFields fields) := by
  rw [sortFields_eq, sortFields_eq, sortByKey, sortByKey]
  exact List.map_insertionSort _ _ _ _ fun _ _ _ _ => Iff.rfl

mutual

/-- Sorting is done at once. -/
theorem sortKeys_sortKeys : ∀ value : Json, value.sortKeys.sortKeys = value.sortKeys
  | .array items => by rw [sortKeys, sortKeys, sortItems_sortItems items]
  | .object fields => by
      rw [sortKeys, sortKeys, sortFields_sortByKey, sortFields_sortFields fields,
        sortByKey_sortByKey]
  | .null => by rw [sortKeys_null, sortKeys_null]
  | .bool value => by rw [sortKeys_bool, sortKeys_bool]
  | .int value => by rw [sortKeys_int, sortKeys_int]
  | .float literal zero => by rw [sortKeys, sortKeys]
  | .constant name => by rw [sortKeys, sortKeys]
  | .string value => by rw [sortKeys_string, sortKeys_string]

theorem sortItems_sortItems : ∀ items : List Json, sortItems (sortItems items) = sortItems items
  | [] => rfl
  | item :: items => by
      rw [sortItems, sortItems, sortKeys_sortKeys item, sortItems_sortItems items]

theorem sortFields_sortFields : ∀ fields : List (String × Json),
    sortFields (sortFields fields) = sortFields fields
  | [] => rfl
  | (key, value) :: fields => by
      rw [sortFields, sortFields, sortKeys_sortKeys value, sortFields_sortFields fields]

end

theorem isObject_sortKeys (fields : List (String × Json)) :
    (Json.object fields).sortKeys.isObject = true := by
  rw [sortKeys]
  rfl

section Written

variable {fields : List (String × Json)} (distinct : (fields.map Prod.fst).Nodup) {key : String}

include distinct

/-- What `get` finds under a key that was written. -/
theorem get_sortKeys {value : Json} (found : fields.lookup key = some value) :
    (Json.object fields).sortKeys.get key = .ok value.sortKeys := by
  have keys : ((sortFields fields).map Prod.fst).Nodup := by rwa [map_fst_sortFields]
  rw [sortKeys, get, lookup_sortByKey keys, lookup_sortFields, found]
  rfl

/-- What `get` finds under a key that was not. -/
theorem get_sortKeys_of_absent (absent : fields.lookup key = none) :
    (Json.object fields).sortKeys.get key = .ok .null := by
  have keys : ((sortFields fields).map Prod.fst).Nodup := by rwa [map_fst_sortFields]
  rw [sortKeys, get, lookup_sortByKey keys, lookup_sortFields, absent]
  rfl

end Written

/-! ## Dictionaries -/

mutual

/-- No object in the value has a key twice. -/
def keyed : Json → Bool
  | .array items => keyedItems items
  | .object fields => decide (fields.map Prod.fst).Nodup && keyedFields fields
  | .null | .bool _ | .int _ | .float .. | .constant _ | .string _ => true

/-- The items of an array are keyed. -/
def keyedItems : List Json → Bool
  | [] => true
  | item :: items => keyed item && keyedItems items

/-- The values of fields are keyed. -/
def keyedFields : List (String × Json) → Bool
  | [] => true
  | (_, value) :: fields => keyed value && keyedFields fields

end

theorem nodup_of_keyed {fields : List (String × Json)} (each : (Json.object fields).keyed = true) :
    (fields.map Prod.fst).Nodup := by
  rw [keyed, Bool.and_eq_true, decide_eq_true_eq] at each
  exact each.1

theorem keyed_of_mem {fields : List (String × Json)} (each : keyedFields fields = true)
    {field : String × Json} (member : field ∈ fields) : field.2.keyed = true := by
  induction fields with
  | nil => cases member
  | cons first fields ih =>
      rw [keyedFields, Bool.and_eq_true] at each
      rcases List.mem_cons.mp member with rfl | member
      · exact each.1
      · exact ih each.2 member

/-- What is found in a keyed value is keyed. -/
theorem keyed_of_item {value part : Json} (each : value.keyed = true) {key : String}
    (found : value.item key = .ok part) : part.keyed = true := by
  cases value with
  | object fields =>
      have distinct := nodup_of_keyed each
      rw [keyed, Bool.and_eq_true] at each
      rw [item] at found
      cases listed : fields.lookup key with
      | none =>
          rw [listed] at found
          cases found
      | some other =>
          rw [listed] at found
          cases found
          exact keyed_of_mem each.2 ((lookup_eq_some_of_nodup distinct).mp listed)
  | _ => cases found

/-- Sorting keeps what `item` finds, sorted inside. -/
theorem item_of_item_sortKeys {value part : Json} (each : value.keyed = true) {key : String}
    (found : value.sortKeys.item key = .ok part) :
    ∃ original, value.item key = .ok original ∧ part = original.sortKeys := by
  cases value with
  | object fields =>
      have keys : ((sortFields fields).map Prod.fst).Nodup := by
        rw [map_fst_sortFields]
        exact nodup_of_keyed each
      rw [sortKeys, item, lookup_sortByKey keys, lookup_sortFields] at found
      cases listed : fields.lookup key with
      | none =>
          rw [listed] at found
          cases found
      | some original =>
          rw [listed] at found
          cases found
          exact ⟨original, by rw [item, listed], rfl⟩
  | _ =>
      rw [sortKeys] at found
      cases found

/-- Sorting keeps what `get` finds, sorted inside. -/
theorem get_sortKeys_eq {fields : List (String × Json)} (distinct : (fields.map Prod.fst).Nodup)
    (key : String) :
    (Json.object fields).sortKeys.get key = .ok ((fields.lookup key).getD .null).sortKeys := by
  cases found : fields.lookup key with
  | none => rw [get_sortKeys_of_absent distinct found, Option.getD_none, sortKeys_null]
  | some value => rw [get_sortKeys distinct found, Option.getD_some]

/-! ## Values as keys of a set -/

/-- A value as a key. A `nan` equals nothing, but it is one key: a library reads every `NaN`
as the same object, and a set looks for identical objects first. -/
inductive Key where
  | null
  | number (value : ℤ)
  | float (literal : String)
  | nan
  | infinity (name : String)
  | string (value : String)
  deriving DecidableEq

/-- The key of a value, where `integral` tells the integer that a float equals. A list or
a dictionary is not hashable. -/
def key (integral : String → Option ℤ) : Json → Except AccessError Key
  | .null => .ok .null
  | .bool value => .ok (.number (if value then 1 else 0))
  | .int value => .ok (.number value)
  | .float literal _ =>
      match integral literal with
      | some value => .ok (.number value)
      | none => .ok (.float literal)
  | .constant name => .ok (if name = "NaN" then .nan else .infinity name)
  | .string value => .ok (.string value)
  | .array _ | .object _ => .error .type

/-- A hashable value has no fields to sort. -/
theorem sortKeys_of_key {integral : String → Option ℤ} {value : Json} {k : Key}
    (hashed : key integral value = .ok k) : value.sortKeys = value := by
  cases value with
  | array items => cases hashed
  | object fields => cases hashed
  | _ => rw [sortKeys]

/-- `len(set(values)) == len(values)`. -/
def allDistinct (integral : String → Option ℤ) (values : List Json) : Except AccessError Bool := do
  let keys ← values.mapM (key integral)
  return decide keys.Nodup

/-- `first == second`, for hashable values. A `nan` equals nothing, itself included. -/
def equals (integral : String → Option ℤ) (first second : Json) : Bool :=
  match key integral first, key integral second with
  | .ok k, .ok l => k = l && k ≠ .nan
  | _, _ => false

/-- The value is a `nan`. -/
def isNan : Json → Bool
  | .constant name => name = "NaN"
  | _ => false

/-- `value == number`, for a number that is not a float. -/
def equalsInt (integral : String → Option ℤ) (value : Json) (number : ℤ) : Bool :=
  match key integral value with
  | .ok key => key = .number number
  | .error _ => false

@[simp] theorem equalsInt_int (integral : String → Option ℤ) (value number : ℤ) :
    equalsInt integral (.int value) number = decide (value = number) := by
  simp [equalsInt, key]

/-- What is counted is hashable. -/
theorem hashable_of_allDistinct {integral : String → Option ℤ} {values : List Json} {same : Bool}
    (counted : allDistinct integral values = .ok same) {value : Json} (member : value ∈ values) :
    ∃ k, key integral value = .ok k := by
  obtain ⟨keys, hashed, _⟩ := bind_eq_ok.mp counted
  obtain ⟨k, _, found⟩ := (mem_of_mapM_eq_ok hashed).1 value member
  exact ⟨k, found⟩

theorem isNan_sortKeys (value : Json) : value.sortKeys.isNan = value.isNan := by
  cases value <;> rw [sortKeys] <;> rfl

theorem key_sortKeys (integral : String → Option ℤ) (value : Json) :
    key integral value.sortKeys = key integral value := by
  cases value <;> rw [sortKeys] <;> rfl

theorem equalsInt_sortKeys (integral : String → Option ℤ) (value : Json) (number : ℤ) :
    equalsInt integral value.sortKeys number = equalsInt integral value number := by
  rw [equalsInt, key_sortKeys, equalsInt]

/-- A hashable value equals itself unless it is a `nan`. -/
theorem equals_self {integral : String → Option ℤ} {value : Json} {k : Key}
    (hashed : key integral value = .ok k) : equals integral value value = !value.isNan := by
  simp only [equals, hashed, decide_true, Bool.true_and]
  cases value with
  | float literal zero =>
      rw [key] at hashed
      split at hashed <;> cases hashed <;> rfl
  | constant name =>
      cases hashed
      by_cases same : name = "NaN" <;> simp [isNan, same]
  | array items => cases hashed
  | object fields => cases hashed
  | _ =>
      cases hashed
      rfl

theorem mapM_key_string (integral : String → Option ℤ) (values : List String) :
    (values.map Json.string).mapM (key integral) = .ok (values.map Key.string) := by
  induction values with
  | nil => rfl
  | cons value values ih =>
      rw [List.map_cons, List.mapM_cons, ih]
      rfl

/-- Strings are distinct as keys when they are distinct. -/
theorem allDistinct_string (integral : String → Option ℤ) (values : List String) :
    allDistinct integral (values.map Json.string) = .ok (decide values.Nodup) := by
  have injective : Function.Injective Key.string := fun _ _ same => Key.string.inj same
  rw [allDistinct, mapM_key_string]
  show Except.ok (decide _) = _
  simp only [List.nodup_map_iff injective]

/-! ## Writing -/

/-- The escape of a code unit. -/
def unicodeEscape (unit : ℕ) : String :=
  "\\u" ++ String.ofList [Nat.digitChar (unit / 4096 % 16), Nat.digitChar (unit / 256 % 16),
    Nat.digitChar (unit / 16 % 16), Nat.digitChar (unit % 16)]

/-- A character as it stands in a string. -/
def writeChar (c : Char) : String :=
  if c = '"' then "\\\""
  else if c = '\\' then "\\\\"
  else if c = '\n' then "\\n"
  else if c = '\r' then "\\r"
  else if c = '\t' then "\\t"
  else if c.toNat = 8 then "\\b"
  else if c.toNat = 12 then "\\f"
  else if 32 ≤ c.toNat ∧ c.toNat ≤ 126 then c.toString
  else if c.toNat < 65536 then unicodeEscape c.toNat
  else
    unicodeEscape (55296 + (c.toNat - 65536) / 1024) ++
      unicodeEscape (56320 + (c.toNat - 65536) % 1024)

/-- A string in quotation marks. -/
def writeString (value : String) : String :=
  "\"" ++ String.join (value.toList.map writeChar) ++ "\""

mutual

/-- The compact text of a value. -/
def write : Json → String
  | .null => "null"
  | .bool value => if value then "true" else "false"
  | .int value => toString value
  | .float literal _ => literal
  | .constant name => name
  | .string value => writeString value
  | .array items => "[" ++ ",".intercalate (writeItems items) ++ "]"
  | .object fields => "\x7b" ++ ",".intercalate (writeFields fields) ++ "\x7d"

/-- The texts of the items. -/
def writeItems : List Json → List String
  | [] => []
  | item :: items => write item :: writeItems items

/-- The texts of the fields. -/
def writeFields : List (String × Json) → List String
  | [] => []
  | (key, value) :: fields => (writeString key ++ ":" ++ write value) :: writeFields fields

end

end Json

/-! ## Runtimes -/

/-- A library whose dictionaries have each key once, the integer that a float equals, if any,
and whether two dataclasses are compared as the tuples of their fields, which finds identical
items equal (as before Python 3.13), or field by field. -/
structure JsonRuntime extends JsonLibrary where
  integral : String → Option ℤ
  comparesTuples : Bool
  keyed : ∀ encoded value, loads encoded = .ok value → value.keyed = true

/-- A library that writes compactly and reads the texts of the values. -/
def JsonLibrary.reading (values : List Json) : JsonLibrary where
  dumps value := .ok value.write
  loads encoded :=
    match values.find? fun value => value.write = encoded with
    | some value => .ok value
    | none => .error .decode

/-- What it reads is one of the values. -/
theorem JsonLibrary.mem_of_reading {values : List Json} {encoded : String} {value : Json}
    (read : (JsonLibrary.reading values).loads encoded = .ok value) : value ∈ values := by
  unfold JsonLibrary.reading at read
  dsimp only at read
  split at read
  next found =>
    cases read
    exact List.mem_of_find?_eq_some found
  next => cases read

/-- It refuses any other text. -/
theorem JsonLibrary.reading_of_absent {values : List Json} {encoded : String}
    (absent : encoded ∉ values.map Json.write) :
    (JsonLibrary.reading values).loads encoded = .error .decode := by
  have none : values.find? (fun value => value.write = encoded) = none := by
    refine List.find?_eq_none.mpr fun value member same => ?_
    rw [decide_eq_true_eq] at same
    exact absent (List.mem_map.mpr ⟨value, member, same⟩)
  simp only [JsonLibrary.reading, none]

/-- It reads what it wrote of values with different texts. -/
theorem JsonLibrary.reading_inverts {values : List Json} (distinct : (values.map Json.write).Nodup)
    {value : Json} (member : value ∈ values) : (JsonLibrary.reading values).Inverts value := by
  have found : values.find? (fun other => other.write = value.write) = some value := by
    induction values with
    | nil => cases member
    | cons first values ih =>
        obtain ⟨fresh, distinct⟩ := List.nodup_cons.mp distinct
        rw [List.find?_cons]
        rcases List.mem_cons.mp member with rfl | member
        · simp
        · have differs : first.write ≠ value.write := fun same =>
            fresh (same ▸ List.mem_map_of_mem member)
          simp only [differs, decide_false]
          exact ih distinct member
  refine ⟨rfl, ?_⟩
  simp only [JsonLibrary.reading, JsonLibrary.text, found]

end Distlab.Foundations
