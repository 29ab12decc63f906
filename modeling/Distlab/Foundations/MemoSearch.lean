import Mathlib.Data.List.Basic
import Distlab.Foundations.Dict
import Distlab.Foundations.Outcome

/-!
# Depth-first search that remembers failures

A problem has goals and labelled moves, in the order in which they are tried. The
search returns the labels of a way to a goal. It remembers the states from which
it found none. It gives up after it has expanded so many states, and when its calls
are nested too deep.

What holds of a search follows from what a call keeps (`Rule.search`). It is exact where
it returns (`search_answers`): what it returns leads to a goal, and when it returns nothing
no labels lead to one. The memory may hold any states without a way to a goal
(`Memo.Sound`), so it never changes an answer. It has frames enough where no way of as many
labels leads away from its state (`search_returns`); where it has not, it returns no failure
(`shallow_of_search`) and no way of as many labels as frames (`length_lt_of_search`).
-/

set_option autoImplicit false

namespace Distlab.Foundations.MemoSearch

universe u v

/-- Where a search stops, and the moves it tries. -/
structure Problem (σ : Type u) (l : Type v) where
  isGoal : σ → Bool
  moves : σ → List (l × σ)

variable {σ : Type u} {l : Type v}

/-- The labels lead from a state to another. -/
inductive Problem.Path (P : Problem σ l) : σ → List l → σ → Prop
  | here {s : σ} : P.Path s [] s
  | move {s t u : σ} {label : l} {labels : List l} (listed : (label, t) ∈ P.moves s)
      (rest : P.Path t labels u) : P.Path s (label :: labels) u

/-- The labels lead from a state to a goal. -/
def Problem.Leads (P : Problem σ l) (s : σ) (labels : List l) : Prop :=
  ∃ t, P.Path s labels t ∧ P.isGoal t = true

/-- Every move goes one level up. -/
def Problem.Leveled (P : Problem σ l) (level : σ → ℕ) : Prop :=
  ∀ s, ∀ move ∈ P.moves s, level move.2 = level s + 1

/-- Every way from a state has fewer labels, and one to spare. -/
def Problem.Shallow (P : Problem σ l) (frames : ℕ) (s : σ) : Prop :=
  ∀ labels t, P.Path s labels t → labels.length + 1 < frames

/-- The states known to fail, and the number of states expanded. -/
structure Memo (σ : Type u) where
  failed : List σ := []
  expanded : ℕ := 0

/-- The states known to fail do fail. -/
def Memo.Sound (P : Problem σ l) (memo : Memo σ) : Prop :=
  ∀ s ∈ memo.failed, ∀ labels, ¬ P.Leads s labels

/-- The states known to fail are shallow, the more so the higher they are. -/
def Memo.Shallow (P : Problem σ l) (level : σ → ℕ) (top : ℕ) (memo : Memo σ) : Prop :=
  ∀ s ∈ memo.failed, P.Shallow (top - level s) s

/-- What a search from a state may answer. -/
def Problem.Answers (P : Problem σ l) (s : σ) : Option (List l) → Prop
  | some labels => P.Leads s labels
  | none => ∀ labels, ¬ P.Leads s labels

/-- Why a search gives up. -/
inductive GivesUp where
  /-- It has expanded as many states as it may. -/
  | states
  /-- Its calls are nested as deep as they may be. -/
  | frames
  deriving DecidableEq

/-- A search returns an answer, or raises when it gives up. -/
abbrev Search (σ : Type u) (l : Type v) := Outcome GivesUp (Memo σ) (Option (List l))

/-- Try moves in order, up to the first that leads to a goal. -/
def firstSuccess (explore : σ → Memo σ → Search σ l) : List (l × σ) → Memo σ → Search σ l
  | [], memo => .returns none memo
  | (label, t) :: rest, memo =>
      (explore t memo).bind fun answer memo =>
        match answer with
        | some labels => .returns (some (label :: labels)) memo
        | none => firstSuccess explore rest memo

variable [DecidableEq σ]

/-- The search from a state. It expands at most `limit` states and nests at most so many
calls: its own, those of the states it goes to, and one to find the moves of a state. -/
def search (P : Problem σ l) (limit : Option ℕ) : ℕ → σ → Memo σ → Search σ l
  | 0, _, memo => .raises .frames memo
  | frames + 1, s, memo =>
      if P.isGoal s then .returns (some []) memo
      else if s ∈ memo.failed then .returns none memo
      else if limit.any (· ≤ memo.expanded) then .raises .states memo
      else if frames = 0 then .raises .frames memo
      else
        (firstSuccess (search P limit frames) (P.moves s)
            { memo with expanded := memo.expanded + 1 }).bind fun answer memo =>
          match answer with
          | some labels => .returns (some labels) memo
          | none => .returns none { memo with failed := s :: memo.failed }

variable {P : Problem σ l}

/-! ## The rule of the search -/

omit [DecidableEq σ] in
/-- What the first success among moves answers, if each is explored by a rule. -/
theorem firstSuccess_rule {keeps : Memo σ → Prop} {answers : σ → Option (List l) → Prop}
    {explore : σ → Memo σ → Search σ l} {moves : List (l × σ)}
    (explored : ∀ move ∈ moves, ∀ memo, keeps memo → ∀ answer after,
      explore move.2 memo = .returns answer after → keeps after ∧ answers move.2 answer)
    {memo after : Memo σ} {answer : Option (List l)} (kept : keeps memo)
    (returned : firstSuccess explore moves memo = .returns answer after) :
    keeps after ∧ ((answer = none ∧ ∀ move ∈ moves, answers move.2 none) ∨
      ∃ label t rest, (label, t) ∈ moves ∧ answer = some (label :: rest) ∧
        answers t (some rest)) := by
  induction moves generalizing memo with
  | nil =>
      cases returned
      exact ⟨kept, .inl ⟨rfl, fun _ member => absurd member List.not_mem_nil⟩⟩
  | cons move rest ih =>
      obtain ⟨label, t⟩ := move
      rw [firstSuccess, Outcome.bind_eq_returns] at returned
      obtain ⟨first, between, tried, continued⟩ := returned
      obtain ⟨kept', here⟩ := explored _ List.mem_cons_self memo kept first between tried
      cases first with
      | some labels =>
          cases continued
          exact ⟨kept', .inr ⟨label, t, labels, List.mem_cons_self, rfl, here⟩⟩
      | none =>
          obtain ⟨kept'', none' | ⟨label', t', rest', listed, same, found⟩⟩ :=
            ih (fun move member => explored move (List.mem_cons_of_mem _ member)) kept' continued
          · exact ⟨kept'', .inl ⟨none'.1, List.forall_mem_cons.mpr ⟨here, none'.2⟩⟩⟩
          · exact ⟨kept'', .inr ⟨label', t', rest', List.mem_cons_of_mem _ listed, same, found⟩⟩

/-- What every call of a search keeps of the memory, and what it answers. -/
structure Rule (P : Problem σ l) (inside : ℕ → σ → Prop) (keeps : Memo σ → Prop)
    (answers : ℕ → σ → Option (List l) → Prop) : Prop where
  moves : ∀ frames s, inside (frames + 1) s → ∀ move ∈ P.moves s, inside frames move.2
  counts : ∀ memo, keeps memo → keeps { memo with expanded := memo.expanded + 1 }
  goal : ∀ frames s, P.isGoal s = true → answers (frames + 1) s (some [])
  known : ∀ frames s memo, inside (frames + 1) s → keeps memo → s ∈ memo.failed →
    answers (frames + 1) s none
  finds : ∀ frames s label t rest, (label, t) ∈ P.moves s → answers frames t (some rest) →
    answers (frames + 1) s (some (label :: rest))
  fails : ∀ frames s, P.isGoal s = false → 0 < frames →
    (∀ move ∈ P.moves s, answers frames move.2 none) → answers (frames + 1) s none
  remembers : ∀ frames s memo, inside (frames + 1) s → keeps memo →
    answers (frames + 1) s none → keeps { memo with failed := s :: memo.failed }

/-- **The rule of the search.** What the calls keep and answer, the search does. -/
theorem Rule.search {inside : ℕ → σ → Prop} {keeps : Memo σ → Prop}
    {answers : ℕ → σ → Option (List l) → Prop} (rule : Rule P inside keeps answers)
    {limit : Option ℕ} {frames : ℕ} {s : σ} {memo after : Memo σ} {answer : Option (List l)}
    (here : inside frames s) (kept : keeps memo)
    (returned : search P limit frames s memo = .returns answer after) :
    keeps after ∧ answers frames s answer := by
  induction frames generalizing s memo answer after with
  | zero => cases returned
  | succ frames ih =>
      unfold MemoSearch.search at returned
      split at returned
      next goal =>
        cases returned
        exact ⟨kept, rule.goal frames s goal⟩
      next notGoal =>
        split at returned
        next known =>
          cases returned
          exact ⟨kept, rule.known frames s memo here kept known⟩
        next =>
          split at returned
          next => cases returned
          split at returned
          next => cases returned
          next some' =>
            obtain ⟨first, between, tried, continued⟩ := Outcome.bind_eq_returns.mp returned
            obtain ⟨kept', found⟩ := firstSuccess_rule
              (fun move listed memo kept answer after explored =>
                ih (rule.moves frames s here move listed) kept explored)
              (rule.counts memo kept) tried
            rcases found with ⟨rfl, failed⟩ | ⟨label, t, rest, listed, rfl, leads⟩
            · cases continued
              have fails := rule.fails frames s (Bool.not_eq_true _ ▸ notGoal)
                (Nat.pos_of_ne_zero some') failed
              exact ⟨rule.remembers frames s between here kept' fails, fails⟩
            · cases continued
              exact ⟨kept', rule.finds frames s label t rest listed leads⟩

/-! ## What the search answers -/

omit [DecidableEq σ] in
theorem Problem.Leads.goal {s : σ} (done : P.isGoal s = true) : P.Leads s [] := ⟨s, .here, done⟩

omit [DecidableEq σ] in
theorem Problem.Leads.move {s t : σ} {label : l} {labels : List l}
    (listed : (label, t) ∈ P.moves s) (rest : P.Leads t labels) : P.Leads s (label :: labels) := by
  obtain ⟨u, path, done⟩ := rest
  exact ⟨u, .move listed path, done⟩

omit [DecidableEq σ] in
theorem Problem.leads_cases {s : σ} {labels : List l} (leads : P.Leads s labels)
    (open' : P.isGoal s = false) :
    ∃ label t rest, (label, t) ∈ P.moves s ∧ labels = label :: rest ∧ P.Leads t rest := by
  obtain ⟨u, path, done⟩ := leads
  cases path with
  | here =>
      rw [open'] at done
      cases done
  | move listed rest => exact ⟨_, _, _, listed, rfl, u, rest, done⟩

omit [DecidableEq σ] in
theorem answers_rule : Rule P (fun _ _ => True) (Memo.Sound P) fun _ => P.Answers where
  moves _ _ _ _ _ := trivial
  counts _ sound := sound
  goal _ _ done := .goal done
  known _ s _ _ sound known := sound s known
  finds _ _ _ _ _ listed leads := .move listed leads
  fails := by
    intro _ s open' _ failed labels leads
    obtain ⟨label, t, rest, listed, _, leads'⟩ := Problem.leads_cases leads open'
    exact failed _ listed rest leads'
  remembers := by
    intro _ s memo _ sound fails state member
    rcases List.mem_cons.mp member with rfl | old
    · exact fails
    · exact sound state old

/-- **The search is exact.** What it returns is a correct answer. -/
theorem search_answers {limit : Option ℕ} {frames : ℕ} {s : σ} {after : Memo σ}
    {answer : Option (List l)}
    (returned : search P limit frames s {} = .returns answer after) : P.Answers s answer :=
  (answers_rule.search trivial (fun _ member => absurd member List.not_mem_nil) returned).2

/-! ## The depth of the search -/

omit [DecidableEq σ] in
theorem Problem.Path.level {level : σ → ℕ} (leveled : P.Leveled level) {s t : σ}
    {labels : List l} (path : P.Path s labels t) : level t = level s + labels.length := by
  induction path with
  | here => rfl
  | move listed _ ih =>
      have up := leveled _ _ listed
      rw [ih, up, List.length_cons]
      omega

omit [DecidableEq σ] in
theorem firstSuccess_returns {explore : σ → Memo σ → Search σ l} {moves : List (l × σ)}
    (returns : ∀ move ∈ moves, ∀ memo, ∃ answer after, explore move.2 memo = .returns answer after)
    (memo : Memo σ) : ∃ answer after, firstSuccess explore moves memo = .returns answer after := by
  induction moves generalizing memo with
  | nil => exact ⟨none, memo, rfl⟩
  | cons move rest ih =>
      obtain ⟨answer, between, explored⟩ := returns move List.mem_cons_self memo
      rw [firstSuccess, explored]
      cases answer with
      | some labels => exact ⟨_, _, rfl⟩
      | none => exact ih (fun later member => returns later (List.mem_cons_of_mem _ member)) between

/-- **A search without a limit on states returns** when every way to a state that is no goal
has fewer labels than the search has frames, and one to spare. -/
theorem search_returns {frames : ℕ} {s : σ} (some' : 0 < frames)
    (shallow : ∀ labels t, P.Path s labels t → P.isGoal t = false → labels.length + 1 < frames)
    (memo : Memo σ) : ∃ answer after, search P none frames s memo = .returns answer after := by
  induction frames generalizing s memo with
  | zero => exact absurd some' (Nat.lt_irrefl _)
  | succ frames ih =>
      unfold search
      split
      next => exact ⟨_, _, rfl⟩
      next notGoal =>
        have spare : 0 < frames :=
          Nat.lt_of_succ_lt_succ (shallow [] s .here (Bool.not_eq_true _ ▸ notGoal))
        split
        next => exact ⟨_, _, rfl⟩
        next =>
          have explored : ∀ move ∈ P.moves s, ∀ memo,
              ∃ answer after, search P none frames move.2 memo = .returns answer after := by
            intro move listed
            refine ih spare fun labels t path open' => ?_
            exact Nat.lt_of_succ_lt_succ (shallow _ t (.move listed path) open')
          obtain ⟨answer, between, tried⟩ :=
            firstSuccess_returns explored { memo with expanded := memo.expanded + 1 }
          rw [if_neg (by simp), if_neg spare.ne', tried]
          cases answer with
          | some labels => exact ⟨_, _, rfl⟩
          | none => exact ⟨_, _, rfl⟩

omit [DecidableEq σ] in
theorem shallow_rule {level : σ → ℕ} (leveled : P.Leveled level) (top : ℕ) :
    Rule P (fun frames s => frames + level s = top) (Memo.Shallow P level top)
      fun frames s answer => answer = none → P.Shallow frames s where
  moves := by
    intro frames s here move listed
    have up := leveled s move listed
    omega
  counts _ shallow := shallow
  goal _ _ _ := nofun
  known := by
    intro frames s memo here shallow known _
    have bound := shallow s known
    rwa [show top - level s = frames + 1 by omega] at bound
  finds _ _ _ _ _ _ _ := nofun
  fails := by
    intro frames s _ spare failed _ labels t path
    cases path with
    | here => exact Nat.succ_lt_succ spare
    | move listed rest => exact Nat.succ_lt_succ (failed _ listed rfl _ t rest)
  remembers := by
    intro frames s memo here shallow fails state member
    rcases List.mem_cons.mp member with rfl | old
    · rw [show top - level state = frames + 1 by omega]
      exact fails rfl
    · exact shallow state old

/-- **A search that finds nothing** has followed every way to its end. -/
theorem shallow_of_search {level : σ → ℕ} (leveled : P.Leveled level) {limit : Option ℕ}
    {frames : ℕ} {s : σ} {after : Memo σ}
    (returned : search P limit frames s {} = .returns none after) : P.Shallow frames s :=
  ((shallow_rule leveled (frames + level s)).search rfl
    (fun _ member => absurd member List.not_mem_nil) returned).2 rfl

omit [DecidableEq σ] in
theorem length_rule : Rule P (fun _ _ => True) (fun _ => True)
    fun frames _ answer => ∀ labels, answer = some labels → labels.length < frames where
  moves _ _ _ _ _ := trivial
  counts _ _ := trivial
  goal := by
    rintro frames _ _ _ ⟨⟩
    exact Nat.succ_pos frames
  known _ _ _ _ _ _ _ := nofun
  finds := by
    rintro frames _ _ _ rest _ short _ ⟨⟩
    exact Nat.succ_lt_succ (short rest rfl)
  fails _ _ _ _ _ _ := nofun
  remembers _ _ _ _ _ _ := trivial

/-- What a search returns has fewer labels than the search has frames. -/
theorem length_lt_of_search {limit : Option ℕ} {frames : ℕ} {s : σ} {memo after : Memo σ}
    {labels : List l} (returned : search P limit frames s memo = .returns (some labels) after) :
    labels.length < frames :=
  (length_rule.search trivial trivial returned).2 labels rfl

end Distlab.Foundations.MemoSearch
