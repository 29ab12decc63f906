import Distlab.Foundations.JsonGrammar
import Distlab.MultiPaxos.JournalCheckpoint

/-!
# The depth scanner

The scan of a text for its nesting, against the grammar of JSON. A text of depth `d` that
the scan enters at a depth within the limit brings it back to that depth, if `d` more
levels are within the limit too, and otherwise raises. Inside a string nothing counts: the
scan leaves it at the quote that ends it.
-/

set_option autoImplicit false

namespace Distlab.MultiPaxos

open Foundations Foundations.JsonGrammar

namespace DepthScan

variable {limits : CheckpointLimits}

/-- The scan of a text. -/
def through (limits : CheckpointLimits) (text : List Char) (scan : DepthScan) :
    Checkpoint DepthScan :=
  text.foldlM (step limits) scan

/-- The scan of a text of the depth, from outside a string. -/
def Nests (limits : CheckpointLimits) (depth : ℕ) (text : List Char) : Prop :=
  ∀ level : ℕ, level ≤ limits.maxDepth →
    through limits text ⟨level, false, false⟩ =
      if level + depth ≤ limits.maxDepth then .ok ⟨level, false, false⟩ else .error .maxDepth

theorem through_cons (c : Char) (text : List Char) (scan : DepthScan) :
    through limits (c :: text) scan = (step limits scan c).bind (through limits text) :=
  List.foldlM_cons

theorem through_append (first second : List Char) (scan : DepthScan) :
    through limits (first ++ second) scan =
      (through limits first scan).bind (through limits second) :=
  List.foldlM_append

/-! ## Characters -/

theorem step_plain {c : Char} (plain : Plain c) (level : ℤ) :
    step limits ⟨level, false, false⟩ c = .ok ⟨level, false, false⟩ := by
  obtain ⟨quote, brace, bracket, brace', bracket'⟩ := plain
  simp [step, quote, brace, bracket, brace', bracket']

theorem step_quote (level : ℤ) :
    step limits ⟨level, false, false⟩ '"' = .ok ⟨level, true, false⟩ := rfl

theorem step_backslash (level : ℤ) :
    step limits ⟨level, true, false⟩ '\\' = .ok ⟨level, true, true⟩ := rfl

theorem step_escaped (level : ℤ) (c : Char) :
    step limits ⟨level, true, true⟩ c = .ok ⟨level, true, false⟩ := rfl

/-- A character of a string that is neither its end nor a backslash. -/
theorem step_inside {c : Char} (inside : c ≠ '"' ∧ c ≠ '\\') (level : ℤ) :
    step limits ⟨level, true, false⟩ c = .ok ⟨level, true, false⟩ := by
  simp [step, inside.1, inside.2]

theorem step_open {c : Char} (opens : c = '{' ∨ c = '[') (level : ℕ) :
    step limits ⟨level, false, false⟩ c =
      if level + 1 ≤ limits.maxDepth then .ok ⟨(level + 1 : ℕ), false, false⟩
      else .error .maxDepth := by
  have quote : c ≠ '"' := by rcases opens with rfl | rfl <;> decide
  unfold step
  rw [if_neg Bool.false_ne_true, if_neg quote, if_pos opens]
  by_cases within : level + 1 ≤ limits.maxDepth
  · rw [if_pos within, if_neg (by push_cast; omega)]
    rfl
  · rw [if_neg within, if_pos (by push_cast; omega)]

theorem step_close {c : Char} (closes : c = '}' ∨ c = ']') (level : ℕ) :
    step limits ⟨(level + 1 : ℕ), false, false⟩ c = .ok ⟨level, false, false⟩ := by
  have quote : c ≠ '"' := by rcases closes with rfl | rfl <;> decide
  have opens : ¬ (c = '{' ∨ c = '[') := by rcases closes with rfl | rfl <;> decide
  unfold step
  rw [if_neg Bool.false_ne_true, if_neg quote, if_neg opens, if_pos closes]
  simp

/-! ## Texts -/

theorem nests_plain {text : List Char} (plain : ∀ c ∈ text, Plain c) : Nests limits 0 text := by
  intro level within
  rw [Nat.add_zero, if_pos within]
  induction text with
  | nil => rfl
  | cons c text ih =>
      obtain ⟨here, later⟩ := List.forall_mem_cons.mp plain
      rw [through_cons, step_plain here]
      exact ih later

/-- A text after a text nests as deep as the deeper one. -/
theorem Nests.append {first second : List Char} {depth depth' : ℕ}
    (nests : Nests limits depth first)
    (nests' : Nests limits depth' second) :
    Nests limits (max depth depth') (first ++ second) := by
  intro level within
  rw [through_append, nests level within]
  by_cases shallow : level + depth ≤ limits.maxDepth
  · rw [if_pos shallow]
    change through limits second ⟨level, false, false⟩ = _
    rw [nests' level within]
    by_cases shallow' : level + depth' ≤ limits.maxDepth
    · rw [if_pos shallow', if_pos (by omega)]
    · rw [if_neg shallow', if_neg (by omega)]
  · rw [if_neg shallow, if_neg (by omega)]
    rfl

/-- A text between brackets nests one level deeper. -/
theorem Nests.bracket {text : List Char} {depth : ℕ} (nests : Nests limits depth text) {c c' : Char}
    (opens : c = '{' ∨ c = '[') (closes : c' = '}' ∨ c' = ']') :
    Nests limits (depth + 1) (c :: (text ++ [c'])) := by
  intro level within
  rw [through_cons, step_open opens]
  by_cases below : level + 1 ≤ limits.maxDepth
  · rw [if_pos below]
    change through limits (text ++ [c']) ⟨(level + 1 : ℕ), false, false⟩ = _
    rw [through_append, nests (level + 1) below]
    by_cases shallow : level + 1 + depth ≤ limits.maxDepth
    · rw [if_pos shallow, if_pos (by omega)]
      change through limits [c'] ⟨(level + 1 : ℕ), false, false⟩ = _
      rw [through_cons, step_close closes]
      rfl
    · rw [if_neg shallow, if_neg (by omega)]
      rfl
  · rw [if_neg below, if_neg (by omega)]
    rfl

/-- Inside a string the scan stays there, whatever is quoted or escaped. -/
theorem through_stringBody {body : List Char} (inside : StringBody body) (level : ℤ) :
    through limits body ⟨level, true, false⟩ = .ok ⟨level, true, false⟩ := by
  induction inside with
  | nil => rfl
  | plain quote backslash _ _ ih =>
      rw [through_cons, step_inside ⟨quote, backslash⟩]
      exact ih
  | escape _ _ ih =>
      rw [through_cons, step_backslash, Except.bind, through_cons, step_escaped]
      exact ih
  | @unicode a b c d rest digits _ ih =>
      simp only [List.forall_mem_cons] at digits
      obtain ⟨first, second, third, fourth, _⟩ := digits
      rw [through_cons, step_backslash, Except.bind, through_cons, step_escaped, Except.bind,
        through_cons, step_inside first.inside, Except.bind, through_cons,
        step_inside second.inside, Except.bind, through_cons, step_inside third.inside,
        Except.bind, through_cons, step_inside fourth.inside]
      exact ih

theorem nests_string {text : List Char} (string : IsString text) : Nests limits 0 text := by
  intro level within
  obtain ⟨inside⟩ := string
  rw [Nat.add_zero, if_pos within, through_cons, step_quote, Except.bind, through_append,
    through_stringBody inside]
  rfl

/-- A separator between two texts. -/
theorem Nests.separated {first second : List Char} {depth depth' : ℕ} {c : Char}
    (nests : Nests limits depth first) (plain : Plain c) (nests' : Nests limits depth' second) :
    Nests limits (max depth depth') (first ++ (c :: second)) := by
  have separator : Nests limits 0 [c] := nests_plain (List.forall_mem_singleton.mpr plain)
  have later := separator.append nests'
  rw [Nat.zero_max] at later
  exact nests.append later

/-! ## Values -/

theorem plain_comma : Plain ',' := by decide

theorem plain_colon : Plain ':' := by decide

mutual

/-- **The text of a value nests as deep as its tree.** -/
theorem nests_value : ∀ {tree : Tree} {text : List Char}, JsonGrammar.Value tree text →
    Nests limits tree.depth text
  | _, _, .word word => nests_plain word.plain
  | _, _, .number number => nests_plain number.plain
  | _, _, .string string => nests_string string
  | _, _, .emptyArray spaces => (nests_plain spaces.plain).bracket (.inr rfl) (.inr rfl)
  | _, _, .array elements => (nests_elements elements).bracket (.inr rfl) (.inr rfl)
  | _, _, .emptyObject spaces => (nests_plain spaces.plain).bracket (.inl rfl) (.inl rfl)
  | _, _, .object members => (nests_members members).bracket (.inl rfl) (.inl rfl)

theorem nests_element : ∀ {tree : Tree} {text : List Char}, Element tree text →
    Nests limits tree.depth text
  | _, _, .spaced leading value trailing => by
      have spaced := (nests_plain leading.plain).append
        ((nests_value value).append (nests_plain trailing.plain))
      rwa [Nat.zero_max, Nat.max_zero] at spaced

theorem nests_elements : ∀ {items : List Tree} {text : List Char}, Elements items text →
    Nests limits (depthItems items) text
  | _, _, .last element => by
      rw [depthItems, depthItems, Nat.max_zero]
      exact nests_element element
  | _, _, .cons element elements => by
      rw [depthItems]
      exact (nests_element element).separated plain_comma (nests_elements elements)

theorem nests_member : ∀ {field : List Char × Tree} {text : List Char}, Member field text →
    Nests limits field.2.depth text
  | _, _, .pair leading string trailing element => by
      have key := (nests_string string).append
        ((nests_plain trailing.plain).separated plain_colon (nests_element element))
      rw [Nat.zero_max, Nat.zero_max] at key
      have spaced := (nests_plain leading.plain).append key
      rwa [Nat.zero_max] at spaced

theorem nests_members : ∀ {fields : List (List Char × Tree)} {text : List Char},
    Members fields text → Nests limits (depthFields fields) text
  | _, _, .last member => by
      rw [depthFields, depthFields, Nat.max_zero]
      exact nests_member member
  | _, _, .cons member members => by
      rw [depthFields]
      exact (nests_member member).separated plain_comma (nests_members members)

end

end DepthScan

/-- **The depth loop is exact**: on a JSON text it raises exactly when the tree of the text
is nested deeper than the limit, and the check of the limits does so once the size of the
text passes. -/
theorem depthLoop_exact (limits : CheckpointLimits) (encoded : String) (tree : Tree)
    (parses : Element tree encoded.toList) :
    (encoded.toList.foldlM (DepthScan.step limits) {} = .error .maxDepth ↔
      limits.maxDepth < tree.depth) ∧
    (enforceInputLimits encoded limits = .error .maxDepth ↔
      encoded.length ≤ limits.maxBytes ∧ encoded.utf8ByteSize ≤ limits.maxBytes ∧
        limits.maxDepth < tree.depth) := by
  have scanned : encoded.toList.foldlM (DepthScan.step limits) {} =
      if 0 + tree.depth ≤ limits.maxDepth then .ok {} else .error .maxDepth :=
    DepthScan.nests_element parses 0 (Nat.zero_le _)
  rw [Nat.zero_add] at scanned
  have loop : encoded.toList.foldlM (DepthScan.step limits) {} = .error .maxDepth ↔
      limits.maxDepth < tree.depth := by
    rw [scanned]
    by_cases within : tree.depth ≤ limits.maxDepth
    · rw [if_pos within]
      constructor
      · intro raised
        cases raised
      · intro deeper
        omega
    · rw [if_neg within]
      exact iff_of_true rfl (not_le.mp within)
  refine ⟨loop, ?_⟩
  unfold enforceInputLimits
  split
  next long =>
    constructor
    · intro raised
      cases raised
    · rintro ⟨short, _⟩
      omega
  next short =>
    split
    next large =>
      constructor
      · intro raised
        cases raised
      · rintro ⟨_, small, _⟩
        omega
    next small =>
      rw [← loop, scanned]
      constructor
      · intro raised
        refine ⟨by omega, by omega, ?_⟩
        split at raised
        · cases raised
        next deeper => rw [if_neg deeper]
      · rintro ⟨_, _, raised⟩
        rw [raised]
        rfl

/-- A bracket after an escaped quote is inside the string. -/
theorem depthLoop_exact_quoted :
    enforceInputLimits "[\"\\\"[\"]" { maxDepth := 1 } ≠ .error .maxDepth := by
  have inside : StringBody ['\\', '"', '['] :=
    .escape (by decide) (.plain (by decide) (by decide) (by decide) .nil)
  have blank : Blank [] := fun _ member => absurd member List.not_mem_nil
  have element : Element (.string ['"', '\\', '"', '[', '"']) ['"', '\\', '"', '[', '"'] :=
    .spaced blank (.string (.quoted inside)) blank
  have parses : Element (.array [.string ['"', '\\', '"', '[', '"']])
      "[\"\\\"[\"]".toList :=
    .spaced blank (.array (.last element)) blank
  intro raised
  have deeper := ((depthLoop_exact _ _ _ parses).2.mp raised).2.2
  exact absurd deeper (by decide)

end Distlab.MultiPaxos
