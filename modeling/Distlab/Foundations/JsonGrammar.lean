import Distlab.Foundations.Dict

/-!
# The grammar of JSON texts

What a text is a JSON text of: a parse tree whose leaves are the literals as they stand in
the text. Texts are lists of characters. Besides the three words of JSON, the names of the
numbers that JSON does not have are words, as parsers read them.
-/

set_option autoImplicit false

namespace Distlab.Foundations.JsonGrammar

/-- A parse tree. -/
inductive Tree where
  | word (text : List Char)
  | number (text : List Char)
  | string (text : List Char)
  | array (items : List Tree)
  | object (fields : List (List Char × Tree))

mutual

/-- How deep arrays and objects are nested in a tree. -/
def Tree.depth : Tree → ℕ
  | .array items => depthItems items + 1
  | .object fields => depthFields fields + 1
  | .word _ | .number _ | .string _ => 0

/-- The depth of the deepest item. -/
def depthItems : List Tree → ℕ
  | [] => 0
  | item :: items => max item.depth (depthItems items)

/-- The depth of the deepest value of a field. -/
def depthFields : List (List Char × Tree) → ℕ
  | [] => 0
  | (_, value) :: fields => max value.depth (depthFields fields)

end

/-! ## Literals -/

/-- Whitespace between tokens. -/
def Blank (text : List Char) : Prop := ∀ c ∈ text, c ∈ [' ', '\t', '\n', '\r']

/-- A word. -/
def IsWord (text : List Char) : Prop :=
  text ∈ ["true".toList, "false".toList, "null".toList, "NaN".toList, "Infinity".toList,
    "-Infinity".toList]

/-- Some digits. -/
def Digits (text : List Char) : Prop := text ≠ [] ∧ ∀ c ∈ text, c.isDigit

/-- The digits before the point: no zero leads others. -/
def IntegerPart (text : List Char) : Prop :=
  Digits text ∧ (text.head? = some '0' → text = ['0'])

/-- Nothing, or a point and digits. -/
def FractionPart (text : List Char) : Prop :=
  text = [] ∨ ∃ digits, Digits digits ∧ text = '.' :: digits

/-- Nothing, or the exponent. -/
def ExponentPart (text : List Char) : Prop :=
  text = [] ∨ ∃ mark sign digits, mark ∈ ['e', 'E'] ∧ sign ∈ [[], ['+'], ['-']] ∧
    Digits digits ∧ text = mark :: (sign ++ digits)

/-- A number. -/
def IsNumber (text : List Char) : Prop :=
  ∃ sign integer fraction exponent, sign ∈ [[], ['-']] ∧ IntegerPart integer ∧
    FractionPart fraction ∧ ExponentPart exponent ∧ text = sign ++ integer ++ fraction ++ exponent

/-- A hexadecimal digit. -/
def IsHexDigit (c : Char) : Prop := c ∈ "0123456789abcdefABCDEF".toList

/-- What stands between the quotes of a string. -/
inductive StringBody : List Char → Prop
  | nil : StringBody []
  | plain {c : Char} {rest : List Char} (quote : c ≠ '"') (backslash : c ≠ '\\')
      (control : 0x20 ≤ c.toNat) (body : StringBody rest) : StringBody (c :: rest)
  | escape {c : Char} {rest : List Char}
      (escaped : c ∈ ['"', '\\', '/', 'b', 'f', 'n', 'r', 't']) (body : StringBody rest) :
      StringBody ('\\' :: c :: rest)
  | unicode {a b c d : Char} {rest : List Char} (digits : ∀ x ∈ [a, b, c, d], IsHexDigit x)
      (body : StringBody rest) : StringBody ('\\' :: 'u' :: a :: b :: c :: d :: rest)

/-- A string with its quotes. -/
inductive IsString : List Char → Prop
  | quoted {body : List Char} (inside : StringBody body) : IsString ('"' :: (body ++ ['"']))

/-! ## Values -/

mutual

/-- The text of a value. -/
inductive Value : Tree → List Char → Prop
  | word {text : List Char} (word : IsWord text) : Value (.word text) text
  | number {text : List Char} (number : IsNumber text) : Value (.number text) text
  | string {text : List Char} (string : IsString text) : Value (.string text) text
  | emptyArray {blank : List Char} (spaces : Blank blank) :
      Value (.array []) ('[' :: (blank ++ [']']))
  | array {items : List Tree} {text : List Char} (elements : Elements items text) :
      Value (.array items) ('[' :: (text ++ [']']))
  | emptyObject {blank : List Char} (spaces : Blank blank) :
      Value (.object []) ('{' :: (blank ++ ['}']))
  | object {fields : List (List Char × Tree)} {text : List Char} (members : Members fields text) :
      Value (.object fields) ('{' :: (text ++ ['}']))

/-- The text of a value with whitespace around it. -/
inductive Element : Tree → List Char → Prop
  | spaced {tree : Tree} {before text after : List Char} (leading : Blank before)
      (value : Value tree text) (trailing : Blank after) : Element tree (before ++ (text ++ after))

/-- The text between the brackets of an array that has items. -/
inductive Elements : List Tree → List Char → Prop
  | last {tree : Tree} {text : List Char} (element : Element tree text) : Elements [tree] text
  | cons {tree : Tree} {items : List Tree} {text rest : List Char} (element : Element tree text)
      (elements : Elements items rest) : Elements (tree :: items) (text ++ (',' :: rest))

/-- The text of a field. -/
inductive Member : List Char × Tree → List Char → Prop
  | pair {key before after text : List Char} {tree : Tree} (leading : Blank before)
      (string : IsString key) (trailing : Blank after) (element : Element tree text) :
      Member (key, tree) (before ++ (key ++ (after ++ (':' :: text))))

/-- The text between the braces of an object that has fields. -/
inductive Members : List (List Char × Tree) → List Char → Prop
  | last {field : List Char × Tree} {text : List Char} (member : Member field text) :
      Members [field] text
  | cons {field : List Char × Tree} {fields : List (List Char × Tree)} {text rest : List Char}
      (member : Member field text) (members : Members fields rest) :
      Members (field :: fields) (text ++ (',' :: rest))

end

/-! ## Texts without delimiters -/

/-- A character that neither nests nor quotes. -/
def Plain (c : Char) : Prop := c ≠ '"' ∧ c ≠ '{' ∧ c ≠ '[' ∧ c ≠ '}' ∧ c ≠ ']'

instance (c : Char) : Decidable (Plain c) := inferInstanceAs (Decidable (_ ∧ _))

theorem plain_of_all {text : List Char} (all : text.all (fun c => decide (Plain c)) = true) :
    ∀ c ∈ text, Plain c :=
  fun c member => of_decide_eq_true (List.all_eq_true.mp all c member)

theorem plain_nil : ∀ c ∈ ([] : List Char), Plain c := fun _ member =>
  absurd member List.not_mem_nil

theorem Blank.plain {text : List Char} (blank : Blank text) : ∀ c ∈ text, Plain c :=
  fun c member => plain_of_all (by decide) c (blank c member)

theorem IsWord.plain {text : List Char} (word : IsWord text) : ∀ c ∈ text, Plain c := by
  simp only [IsWord, List.mem_cons, List.not_mem_nil, or_false] at word
  rcases word with rfl | rfl | rfl | rfl | rfl | rfl <;> exact plain_of_all (by decide)

theorem Digits.plain {text : List Char} (digits : Digits text) : ∀ c ∈ text, Plain c := by
  intro c member
  have digit := digits.2 c member
  refine ⟨?_, ?_, ?_, ?_, ?_⟩ <;>
    · rintro rfl
      exact absurd digit (by decide)

theorem plain_sign {sign : List Char} (signs : sign ∈ [[], ['+'], ['-']]) :
    ∀ c ∈ sign, Plain c := by
  simp only [List.mem_cons, List.not_mem_nil, or_false] at signs
  rcases signs with rfl | rfl | rfl <;> exact plain_of_all (by decide)

theorem FractionPart.plain {text : List Char} (fraction : FractionPart text) :
    ∀ c ∈ text, Plain c := by
  rcases fraction with rfl | ⟨digits, are, rfl⟩
  · exact plain_nil
  · exact List.forall_mem_cons.mpr ⟨by decide, are.plain⟩

theorem ExponentPart.plain {text : List Char} (exponent : ExponentPart text) :
    ∀ c ∈ text, Plain c := by
  rcases exponent with rfl | ⟨mark, sign, digits, marks, signs, are, rfl⟩
  · exact plain_nil
  · refine List.forall_mem_cons.mpr ⟨plain_of_all (by decide) mark marks, ?_⟩
    exact List.forall_mem_append.mpr ⟨plain_sign signs, are.plain⟩

theorem IsNumber.plain {text : List Char} (number : IsNumber text) : ∀ c ∈ text, Plain c := by
  obtain ⟨sign, integer, fraction, exponent, signs, digits, point, mark, rfl⟩ := number
  have signs' : sign ∈ [[], ['+'], ['-']] := by
    simp only [List.mem_cons, List.not_mem_nil, or_false] at signs ⊢
    exact signs.imp_right .inr
  simp only [List.forall_mem_append]
  exact ⟨⟨⟨plain_sign signs', digits.1.plain⟩, point.plain⟩, mark.plain⟩

/-- A hexadecimal digit neither ends a string nor escapes. -/
theorem IsHexDigit.inside {c : Char} (digit : IsHexDigit c) : c ≠ '"' ∧ c ≠ '\\' := by
  have all : "0123456789abcdefABCDEF".toList.all (fun c => decide (c ≠ '"' ∧ c ≠ '\\')) = true := by
    decide
  exact of_decide_eq_true (List.all_eq_true.mp all c digit)

end Distlab.Foundations.JsonGrammar
