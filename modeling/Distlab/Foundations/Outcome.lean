import Mathlib.Order.Basic

/-!
# Operations that may raise

An operation of the modelled programs reads and writes a state and either
returns a value or raises an error. An error does not undo the writes made
before it: the caller that catches it continues from the state in which it was
raised. `Outcome` keeps that state in both cases, so a run that goes on after
an error is a run of the model.

What an operation ensures is a predicate of the state it leaves behind and one of
the error it may raise (`Outcome.Ensures`). The rules follow the shape of the
operation: `Ensures.bind` for a sequence, `ensures_forEach` for a loop.
-/

set_option autoImplicit false

namespace Distlab.Foundations

universe u v w x

/-- What an operation leaves behind: its value or its error, and the state. -/
inductive Outcome (ε : Type u) (σ : Type v) (α : Type w) where
  | returns (value : α) (state : σ)
  | raises (error : ε) (state : σ)
  deriving DecidableEq

namespace Outcome

variable {ε : Type u} {σ : Type v} {α : Type w} {β : Type x}

/-- The state an operation ends in, returned or raised. -/
def state : Outcome ε σ α → σ
  | .returns _ s => s
  | .raises _ s => s

/-- The error an operation raised. -/
def error? : Outcome ε σ α → Option ε
  | .returns _ _ => none
  | .raises e _ => some e

/-- The value an operation returned. -/
def value? : Outcome ε σ α → Option α
  | .returns a _ => some a
  | .raises _ _ => none

/-- Sequential composition: an error skips what follows. -/
def bind (first : Outcome ε σ α) (next : α → σ → Outcome ε σ β) : Outcome ε σ β :=
  match first with
  | .returns a s => next a s
  | .raises e s => .raises e s

/-- Run the checks of a list in order, up to the first that raises. -/
def forEach {ι : Type*} (items : List ι) (body : ι → σ → Outcome ε σ Unit) (s : σ) :
    Outcome ε σ Unit :=
  match items with
  | [] => .returns () s
  | item :: rest => (body item s).bind fun _ s => forEach rest body s

@[simp] theorem state_returns (a : α) (s : σ) :
    (Outcome.returns a s : Outcome ε σ α).state = s := rfl

@[simp] theorem state_raises (e : ε) (s : σ) :
    (Outcome.raises e s : Outcome ε σ α).state = s := rfl

@[simp] theorem error?_returns (a : α) (s : σ) :
    (Outcome.returns a s : Outcome ε σ α).error? = none := rfl

@[simp] theorem error?_raises (e : ε) (s : σ) :
    (Outcome.raises e s : Outcome ε σ α).error? = some e := rfl

@[simp] theorem bind_returns (a : α) (s : σ) (next : α → σ → Outcome ε σ β) :
    (Outcome.returns a s : Outcome ε σ α).bind next = next a s := rfl

@[simp] theorem bind_raises (e : ε) (s : σ) (next : α → σ → Outcome ε σ β) :
    (Outcome.raises e s : Outcome ε σ α).bind next = .raises e s := rfl

theorem bind_eq_returns {first : Outcome ε σ α} {next : α → σ → Outcome ε σ β} {b : β} {s : σ} :
    first.bind next = .returns b s ↔
      ∃ a s', first = .returns a s' ∧ next a s' = .returns b s := by
  cases first with
  | returns a s' =>
      rw [bind_returns]
      constructor
      · exact fun returned => ⟨a, s', rfl, returned⟩
      · rintro ⟨_, _, ⟨⟩, returned⟩
        exact returned
  | raises e s' =>
      rw [bind_raises]
      constructor
      · intro raised
        cases raised
      · rintro ⟨_, _, ⟨⟩, _⟩

theorem eq_returns_of_value? {outcome : Outcome ε σ α} {a : α} (value : outcome.value? = some a) :
    outcome = .returns a outcome.state := by
  cases outcome with
  | returns b s =>
      cases value
      rfl
  | raises e s => cases value

/-- An operation that raises, or returns and does something, did it if it returned. -/
theorem holds_of_returns {op : Outcome ε σ α} {s s' : σ} {a a' : α} {does : σ → Prop}
    (either : (∃ e, op = .raises e s) ∨ ∃ t, op = .returns a t ∧ does t)
    (returned : op = .returns a' s') : does s' := by
  obtain ⟨e, raised⟩ | ⟨t, returned', done⟩ := either
  · rw [raised] at returned
    cases returned
  · rw [returned'] at returned
    cases returned
    exact done

theorem eq_raises_of_error? {outcome : Outcome ε σ α} {e : ε} (error : outcome.error? = some e) :
    outcome = .raises e outcome.state := by
  cases outcome with
  | returns b s => cases error
  | raises e' s =>
      cases error
      rfl

/-! ## What an operation ensures -/

/-- The operation leaves a state with `P`, and raises only where `E` allows the
error. -/
def Ensures (P : σ → Prop) (E : ε → σ → Prop) : Outcome ε σ α → Prop
  | .returns _ s => P s
  | .raises e s => P s ∧ E e s

section Ensures

variable {P Q : σ → Prop} {E F : ε → σ → Prop}

@[simp] theorem ensures_returns {a : α} {s : σ} :
    (Outcome.returns a s : Outcome ε σ α).Ensures P E ↔ P s := Iff.rfl

@[simp] theorem ensures_raises {e : ε} {s : σ} :
    (Outcome.raises e s : Outcome ε σ α).Ensures P E ↔ P s ∧ E e s := Iff.rfl

theorem Ensures.state {outcome : Outcome ε σ α} (ensures : outcome.Ensures P E) :
    P outcome.state := by
  cases outcome with
  | returns a s => exact ensures
  | raises e s => exact ensures.1

theorem Ensures.error {outcome : Outcome ε σ α} (ensures : outcome.Ensures P E) {e : ε}
    (raised : outcome.error? = some e) : E e outcome.state := by
  cases outcome with
  | returns a s => cases raised
  | raises e' s =>
      cases raised
      exact ensures.2

theorem Ensures.mono {outcome : Outcome ε σ α} (ensures : outcome.Ensures P E)
    (states : ∀ s, P s → Q s) (errors : ∀ e s, E e s → F e s) : outcome.Ensures Q F := by
  cases outcome with
  | returns a s => exact states s ensures
  | raises e s => exact ⟨states s ensures.1, errors e s ensures.2⟩

/-- **Sequential composition.** What the first part ensures, and the second part
keeps from every state the first part returned in, the composition ensures. -/
theorem Ensures.bind {first : Outcome ε σ α} {next : α → σ → Outcome ε σ β}
    (ensures : first.Ensures P E)
    (keeps : ∀ a s, first = .returns a s → P s → (next a s).Ensures Q E)
    (weaken : ∀ s, P s → Q s) : (first.bind next).Ensures Q E := by
  cases first with
  | returns a s => exact keeps a s rfl ensures
  | raises e s => exact ⟨weaken s ensures.1, ensures.2⟩

/-- A loop ensures what each pass of its body keeps. -/
theorem ensures_forEach {ι : Type*} {items : List ι} {body : ι → σ → Outcome ε σ Unit}
    (keeps : ∀ item ∈ items, ∀ s, P s → (body item s).Ensures P E) (s : σ) (holds : P s) :
    (forEach items body s).Ensures P E := by
  induction items generalizing s with
  | nil => exact holds
  | cons item rest ih =>
      refine (keeps item List.mem_cons_self s holds).bind (fun _ s' _ holds' => ?_)
        fun _ => id
      exact ih (fun item member => keeps item (List.mem_cons_of_mem _ member)) s' holds'

end Ensures

end Outcome

/-! ## Checks that fold over a list -/

section Folds

variable {ε : Type u} {σ : Type v} {ι : Type w} {check : σ → ι → Except ε σ}

/-- A fold of checks fails only where one of them does. -/
theorem foldlM_error {P : ε → Prop} (errors : ∀ s item e, check s item = .error e → P e)
    {items : List ι} {s : σ} {e : ε} (failed : items.foldlM check s = .error e) : P e := by
  induction items generalizing s with
  | nil => cases failed
  | cons item rest ih =>
      rw [List.foldlM_cons] at failed
      cases first : check s item with
      | error e' =>
          rw [first] at failed
          cases failed
          exact errors s item e first
      | ok s' =>
          rw [first] at failed
          exact ih failed

/-- A check of a list passes when it passes on each item. -/
theorem forM_eq_ok {ε ι : Type} {items : List ι} {body : ι → Except ε Unit}
    (passes : ∀ item ∈ items, body item = .ok ()) : items.forM body = .ok () := by
  induction items with
  | nil => rfl
  | cons item rest ih =>
      rw [List.forM_eq_forM, List.forM_cons, passes item List.mem_cons_self]
      exact ih fun other member => passes other (List.mem_cons_of_mem _ member)

/-- A fold of checks returns what each of its steps keeps. -/
theorem exists_foldlM_eq_ok {ε ι β : Type} {P : β → Prop} {items : List ι}
    {body : β → ι → Except ε β}
    (keeps : ∀ b, ∀ item ∈ items, P b → ∃ b', body b item = .ok b' ∧ P b') (b : β) (holds : P b) :
    ∃ b', items.foldlM body b = .ok b' ∧ P b' := by
  induction items generalizing b with
  | nil => exact ⟨b, rfl, holds⟩
  | cons item rest ih =>
      obtain ⟨b', returned, holds'⟩ := keeps b item List.mem_cons_self holds
      rw [List.foldlM_cons, returned]
      exact ih (fun b item member => keeps b item (List.mem_cons_of_mem _ member)) b' holds'

/-- A check after another passes when both do. -/
theorem bind_eq_ok {ε α β : Type} {first : Except ε α} {next : α → Except ε β} {b : β} :
    (first >>= next) = .ok b ↔ ∃ a, first = .ok a ∧ next a = .ok b := by
  cases first with
  | error raised =>
      constructor
      · intro passed
        cases passed
      · rintro ⟨_, ⟨⟩, _⟩
  | ok a =>
      constructor
      · exact fun passed => ⟨a, rfl, passed⟩
      · rintro ⟨_, ⟨⟩, passed⟩
        exact passed

/-- A fold of checks passes each of them. -/
theorem exists_of_foldlM_eq_ok {ε ι β : Type} {check : β → ι → Except ε β} {items : List ι}
    {first last : β} (passed : items.foldlM check first = .ok last) :
    ∀ item ∈ items, ∃ before after, check before item = .ok after := by
  induction items generalizing first with
  | nil => exact fun _ member => absurd member List.not_mem_nil
  | cons item rest ih =>
      rw [List.foldlM_cons] at passed
      obtain ⟨next, here, later⟩ := bind_eq_ok.mp passed
      intro item' member
      rcases List.mem_cons.mp member with rfl | member
      · exact ⟨first, next, here⟩
      · exact ih later item' member

/-- What each step of a fold keeps, a fold that passes keeps. -/
theorem foldlM_eq_ok_keeps {ε ι β : Type} {P : β → Prop} {items : List ι}
    {body : β → ι → Except ε β} (keeps : ∀ b item b', P b → body b item = .ok b' → P b')
    {first last : β} (holds : P first) (passed : items.foldlM body first = .ok last) : P last := by
  induction items generalizing first with
  | nil =>
      cases passed
      exact holds
  | cons item rest ih =>
      rw [List.foldlM_cons] at passed
      obtain ⟨next, here, later⟩ := bind_eq_ok.mp passed
      exact ih (keeps first item next holds here) later

/-- A check of a list passes exactly when it passes on each item. -/
theorem forM_eq_ok_iff {ε ι : Type} {items : List ι} {body : ι → Except ε Unit} :
    items.forM body = .ok () ↔ ∀ item ∈ items, body item = .ok () := by
  constructor
  · intro passed
    induction items with
    | nil => exact fun _ member => absurd member List.not_mem_nil
    | cons item rest ih =>
        rw [List.forM_eq_forM, List.forM_cons, bind_eq_ok] at passed
        obtain ⟨_, here, later⟩ := passed
        intro item' member
        rcases List.mem_cons.mp member with rfl | member
        · exact here
        · exact ih later item' member
  · exact forM_eq_ok

/-- The results of checks that all passed are those of the items. -/
theorem mem_of_mapM_eq_ok {ε ι β : Type} {body : ι → Except ε β} {items : List ι}
    {results : List β} (returned : items.mapM body = .ok results) :
    (∀ item ∈ items, ∃ result ∈ results, body item = .ok result) ∧
      ∀ result ∈ results, ∃ item ∈ items, body item = .ok result := by
  induction items generalizing results with
  | nil =>
      cases returned
      simp
  | cons item rest ih =>
      rw [List.mapM_cons] at returned
      obtain ⟨result, first, continued⟩ := bind_eq_ok.mp returned
      obtain ⟨results', later, same⟩ := bind_eq_ok.mp continued
      cases same
      obtain ⟨each, from'⟩ := ih later
      constructor
      · intro item' member
        rcases List.mem_cons.mp member with rfl | member
        · exact ⟨result, List.mem_cons_self, first⟩
        · obtain ⟨result', listed, passed⟩ := each item' member
          exact ⟨result', List.mem_cons_of_mem _ listed, passed⟩
      · intro result' member
        rcases List.mem_cons.mp member with rfl | member
        · exact ⟨item, List.mem_cons_self, first⟩
        · obtain ⟨item', listed, passed⟩ := from' result' member
          exact ⟨item', List.mem_cons_of_mem _ listed, passed⟩

end Folds

/-! ## Runs of an event system -/

section Runs

variable {ε : Type u} {σ : Type v} {ι : Type w} (step : ι → σ → Outcome ε σ Unit)

/-- The state after a list of events, errors included. -/
def runEvents (events : List ι) (s : σ) : σ :=
  events.foldl (fun s event => (step event s).state) s

@[simp] theorem runEvents_nil (s : σ) : runEvents step [] s = s := rfl

@[simp] theorem runEvents_cons (event : ι) (events : List ι) (s : σ) :
    runEvents step (event :: events) s = runEvents step events (step event s).state := rfl

theorem runEvents_append (first second : List ι) (s : σ) :
    runEvents step (first ++ second) s = runEvents step second (runEvents step first s) := by
  simp only [runEvents, List.foldl_append]

/-- Every event of a run meets `condition` in the state it starts from. -/
def EveryStep (condition : ι → σ → Prop) : List ι → σ → Prop
  | [], _ => True
  | event :: events, s => condition event s ∧ EveryStep condition events (step event s).state

instance EveryStep.decidable {condition : ι → σ → Prop}
    [∀ event s, Decidable (condition event s)] :
    ∀ (events : List ι) (s : σ), Decidable (EveryStep step condition events s)
  | [], _ => instDecidableTrue
  | event :: events, s =>
      have : Decidable (EveryStep step condition events (step event s).state) :=
        EveryStep.decidable events _
      instDecidableAnd

variable {step}

/-- **Invariants of runs.** What the start state has and each step keeps, every
state of a run has. -/
theorem runEvents_invariant {P : σ → Prop} (keeps : ∀ event s, P s → P (step event s).state)
    (events : List ι) (s : σ) (holds : P s) : P (runEvents step events s) := by
  induction events generalizing s with
  | nil => exact holds
  | cons event events ih => exact ih _ (keeps event s holds)

/-- Invariants of the runs whose every step meets a condition. -/
theorem runEvents_invariant_of_everyStep {P : σ → Prop} {condition : ι → σ → Prop}
    (keeps : ∀ event s, P s → condition event s → P (step event s).state)
    (events : List ι) (s : σ) (holds : P s) (every : EveryStep step condition events s) :
    P (runEvents step events s) := by
  induction events generalizing s with
  | nil => exact holds
  | cons event events ih => exact ih _ (keeps event s holds every.1) every.2

/-- Invariants of the runs whose every event meets a condition. -/
theorem runEvents_invariant_of_forall {P : σ → Prop} {condition : ι → Prop}
    (keeps : ∀ event s, P s → condition event → P (step event s).state)
    (events : List ι) (s : σ) (holds : P s) (all : ∀ event ∈ events, condition event) :
    P (runEvents step events s) := by
  induction events generalizing s with
  | nil => exact holds
  | cons event events ih =>
      exact ih _ (keeps event s holds (all event List.mem_cons_self))
        fun later member => all later (List.mem_cons_of_mem _ member)

theorem EveryStep.append_left {condition : ι → σ → Prop} {first second : List ι} {s : σ}
    (every : EveryStep step condition (first ++ second) s) :
    EveryStep step condition first s := by
  induction first generalizing s with
  | nil => trivial
  | cons event events ih => exact ⟨every.1, ih every.2⟩

theorem EveryStep.append_right {condition : ι → σ → Prop} {first second : List ι} {s : σ}
    (every : EveryStep step condition (first ++ second) s) :
    EveryStep step condition second (runEvents step first s) := by
  induction first generalizing s with
  | nil => exact every
  | cons event events ih => exact ih every.2

end Runs

end Distlab.Foundations
