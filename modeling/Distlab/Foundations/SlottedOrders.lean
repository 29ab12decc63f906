import Mathlib.Data.List.Nodup
import Mathlib.Data.List.Range
import Mathlib.Order.Monotone.Basic
import Distlab.Foundations.Linearizability

/-!
# Orders that a log gives

A replicated object executes the writes of one log. A write takes effect with an entry of
the log, and a read sees the state after some number of entries, its stamp. The log has a
slot for each number of entries: the reads of that stamp in the order of their answers, and
then the write of the next entry. The slots in order are a linearization
(`Slots.Explains.linearizes`).

What makes it one in time is a frontier: how far the log was known at each time. An
operation stands beyond the frontier of its invocation, and the frontier of its answer
is beyond the operation.
-/

set_option autoImplicit false

namespace Distlab.Foundations.Linearizability

universe u v

variable {ι : Type u} {σ : Type v}

/-! ## Sequential runs -/

section Runs

variable {step : ι → σ → Option σ} {s t : σ} {order : List ι}

/-- A run that ends in a state is legal. -/
theorem legal_of_foldlM (ran : order.foldlM (fun s a => step a s) s = some t) :
    Legal step s order := by
  induction order generalizing s with
  | nil => trivial
  | cons a rest ih =>
      rw [List.foldlM_cons] at ran
      obtain ⟨s', stepped, later⟩ := Option.bind_eq_some_iff.mp ran
      exact ⟨s', stepped, ih later⟩

/-- Operations that leave the state alone. -/
theorem foldlM_of_fixed (fixed : ∀ a ∈ order, step a s = some s) :
    order.foldlM (fun s a => step a s) s = some s := by
  induction order with
  | nil => rfl
  | cons a rest ih =>
      rw [List.foldlM_cons, fixed a List.mem_cons_self]
      exact ih fun b member => fixed b (List.mem_cons_of_mem _ member)

end Runs

/-! ## Frontiers -/

section Frontiers

variable {frontier : ℕ → ℕ} {now later K K' n : ℕ}

/-- The frontier has come to `K` at the time `now`, and stands there from then on. -/
structure Reaches (frontier : ℕ → ℕ) (now K : ℕ) : Prop where
  monotone : Monotone frontier
  onward : ∀ n, now ≤ n → frontier n = K

/-- The frontier moves on to `K'` at the time `now`. -/
def advance (frontier : ℕ → ℕ) (now K' : ℕ) : ℕ → ℕ := fun n => if n < now then frontier n else K'

theorem advance_of_lt (early : n < now) : advance frontier now K' n = frontier n := if_pos early

namespace Reaches

theorem start : Reaches (fun _ => 0) now 0 := ⟨monotone_const, fun _ _ => rfl⟩

variable (reaches : Reaches frontier now K)
include reaches

theorem here : frontier now = K := reaches.onward now le_rfl

/-- A frontier of the past is not beyond the present one. -/
theorem le (n : ℕ) : frontier n ≤ K := by
  rw [← reaches.onward (max n now) (le_max_right _ _)]
  exact reaches.monotone (le_max_left _ _)

/-- Time passes. -/
theorem wait (passes : now ≤ later) : Reaches frontier later K :=
  ⟨reaches.monotone, fun n late => reaches.onward n (passes.trans late)⟩

theorem advance (further : K ≤ K') : Reaches (advance frontier now K') now K' := by
  refine ⟨fun m n le => ?_, fun n late => if_neg (not_lt.mpr late)⟩
  by_cases early : n < now
  · rw [advance_of_lt early, advance_of_lt (le.trans_lt early)]
    exact reaches.monotone le
  · rw [Linearizability.advance, Linearizability.advance, if_neg early]
    split
    · exact (reaches.le m).trans further
    · exact le_rfl

end Reaches

end Frontiers

/-! ## Slots -/

/-- The states of a log, the operations that its entries execute, and the reads with the
number of entries that each one saw. -/
structure Slots (ι : Type u) (σ : Type v) where
  length : ℕ
  states : ℕ → σ
  writer : ℕ → Option ι
  reads : List ι
  stamp : ι → ℕ

namespace Slots

/-- The reads that saw `k` entries, and the write of the next entry. -/
def slot (S : Slots ι σ) (k : ℕ) : List ι :=
  S.reads.filter (fun a => S.stamp a = k) ++ (S.writer k).toList

/-- The slots in order. -/
def order (S : Slots ι σ) : List ι := (List.range (S.length + 1)).flatMap S.slot

/-- The slots explain an observation. -/
structure Explains (S : Slots ι σ) (O : Observation ι) (step : ι → σ → Option σ)
    (frontier : ℕ → ℕ) : Prop where
  monotone : Monotone frontier
  writes : ∀ k a, S.writer k = some a →
    k < S.length ∧ step a (S.states k) = some (S.states (k + 1))
  idle : ∀ k < S.length, S.writer k = none → S.states (k + 1) = S.states k
  once : ∀ j k a, S.writer j = some a → S.writer k = some a → j = k
  effective : ∀ k a, S.writer k = some a → (O.responded a).isSome ∨ O.optional a
  writtenAfter : ∀ k a, S.writer k = some a → frontier (O.invoked a) ≤ k
  writtenBefore : ∀ k a, S.writer k = some a → ∀ time ∈ O.responded a, k < frontier time
  distinct : S.reads.Nodup
  apart : ∀ k a, S.writer k = some a → a ∉ S.reads
  answered : ∀ a ∈ S.reads, (O.responded a).isSome
  within : ∀ a ∈ S.reads, S.stamp a ≤ S.length
  sees : ∀ a ∈ S.reads, step a (S.states (S.stamp a)) = some (S.states (S.stamp a))
  readAfter : ∀ a ∈ S.reads, frontier (O.invoked a) ≤ S.stamp a
  readBefore : ∀ a ∈ S.reads, ∀ time ∈ O.responded a, S.stamp a ≤ frontier time
  inTurn : S.reads.Pairwise fun a b => ¬ O.Precedes b a
  complete : ∀ a, (O.responded a).isSome → a ∈ S.reads ∨ ∃ k, S.writer k = some a

variable {S : Slots ι σ} {O : Observation ι} {step : ι → σ → Option σ} {frontier : ℕ → ℕ}

theorem mem_slot {k : ℕ} {a : ι} :
    a ∈ S.slot k ↔ (a ∈ S.reads ∧ S.stamp a = k) ∨ S.writer k = some a := by
  simp [slot]

theorem mem_order {a : ι} : a ∈ S.order ↔ ∃ k ≤ S.length, a ∈ S.slot k := by
  simp only [order, List.mem_flatMap, List.mem_range, Nat.lt_succ_iff]

namespace Explains

variable (explains : S.Explains O step frontier)
include explains

/-- The read and the write of a slot stand beyond the frontier of their invocations. -/
theorem after {k : ℕ} {a : ι} (member : a ∈ S.slot k) : frontier (O.invoked a) ≤ k := by
  obtain ⟨read, rfl⟩ | write := mem_slot.mp member
  · exact explains.readAfter a read
  · exact explains.writtenAfter k a write

/-- When they were answered, the frontier had reached the slot. -/
theorem before {k : ℕ} {a : ι} (member : a ∈ S.slot k) {time : ℕ}
    (answer : time ∈ O.responded a) : k ≤ frontier time := by
  obtain ⟨read, rfl⟩ | write := mem_slot.mp member
  · exact explains.readBefore a read time answer
  · exact (explains.writtenBefore k a write time answer).le

/-- An operation of a later slot was not answered before one of an earlier slot was
invoked. -/
theorem not_precedes {j k : ℕ} (earlier : j < k) {a b : ι} (first : a ∈ S.slot j)
    (second : b ∈ S.slot k) : ¬ O.Precedes b a := by
  rintro ⟨time, answer, invoked⟩
  have reached : k ≤ frontier (O.invoked a) :=
    (explains.before second answer).trans (explains.monotone invoked.le)
  exact absurd (reached.trans (explains.after first)) (not_le.mpr earlier)

/-- The read of a slot may stand before its write. -/
theorem not_precedes_read {k : ℕ} {a b : ι} (read : a ∈ S.slot k) (write : S.writer k = some b) :
    ¬ O.Precedes b a := by
  rintro ⟨time, answer, invoked⟩
  have reached : k < frontier (O.invoked a) :=
    (explains.writtenBefore k b write time answer).trans_le (explains.monotone invoked.le)
  exact absurd (explains.after read) (not_le.mpr reached)

theorem pairwise_slot (k : ℕ) : (S.slot k).Pairwise fun a b => ¬ O.Precedes b a := by
  refine List.pairwise_append.mpr ⟨explains.inTurn.filter _, ?_, fun a read b write => ?_⟩
  · cases S.writer k with
    | none => exact .nil
    | some a => exact List.pairwise_singleton _ a
  · have inside : a ∈ S.slot k := List.mem_append_left _ read
    exact explains.not_precedes_read inside (Option.mem_toList.mp write)

theorem nodup_slot (k : ℕ) : (S.slot k).Nodup := by
  refine List.nodup_append.mpr ⟨explains.distinct.filter _, ?_, ?_⟩
  · cases S.writer k with
    | none => exact .nil
    | some a => exact List.nodup_singleton a
  · rintro a read b write rfl
    exact explains.apart k a (Option.mem_toList.mp write) (List.mem_of_mem_filter read)

/-- An operation has one slot. -/
theorem slot_unique {j k : ℕ} {a : ι} (first : a ∈ S.slot j) (second : a ∈ S.slot k) : j = k := by
  obtain ⟨read, stamp⟩ | write := mem_slot.mp first
  · obtain ⟨_, stamp'⟩ | write' := mem_slot.mp second
    · exact stamp.symm.trans stamp'
    · exact absurd read (explains.apart k a write')
  · obtain ⟨read', _⟩ | write' := mem_slot.mp second
    · exact absurd read' (explains.apart j a write)
    · exact explains.once j k a write write'

/-- **What a slot executes** leads from the state of its number to the next one. -/
theorem foldlM_slot {k : ℕ} (within : k < S.length) :
    (S.slot k).foldlM (fun s a => step a s) (S.states k) = some (S.states (k + 1)) := by
  have reads : (S.reads.filter fun a => S.stamp a = k).foldlM (fun s a => step a s) (S.states k) =
      some (S.states k) := by
    refine foldlM_of_fixed fun a member => ?_
    obtain ⟨read, stamp⟩ := List.mem_filter.mp member
    have sees := explains.sees a read
    rwa [of_decide_eq_true stamp] at sees
  rw [slot, List.foldlM_append, reads, Option.bind_eq_bind, Option.bind_some]
  cases write : S.writer k with
  | none => exact congrArg some (explains.idle k within write).symm
  | some a =>
      rw [Option.toList_some, List.foldlM_cons, (explains.writes k a write).2]
      rfl

theorem foldlM_slots {n : ℕ} (within : n ≤ S.length) :
    ((List.range n).flatMap S.slot).foldlM (fun s a => step a s) (S.states 0) =
      some (S.states n) := by
  induction n with
  | zero => rfl
  | succ n ih =>
      rw [List.range_succ, List.flatMap_append, List.foldlM_append, ih (Nat.le_of_succ_le within),
        Option.bind_eq_bind, Option.bind_some, List.flatMap_singleton]
      exact explains.foldlM_slot within

theorem legal : Legal step (S.states 0) S.order := by
  refine legal_of_foldlM (t := S.states S.length) ?_
  rw [order, List.range_succ, List.flatMap_append, List.foldlM_append, explains.foldlM_slots le_rfl,
    Option.bind_eq_bind, Option.bind_some, List.flatMap_singleton]
  -- The last slot has no write.
  refine foldlM_of_fixed fun a member => ?_
  obtain ⟨read, stamp⟩ | write := mem_slot.mp member
  · have sees := explains.sees a read
    rwa [stamp] at sees
  · exact absurd (explains.writes _ a write).1 (lt_irrefl _)

/-- **The slots in order are a linearization.** -/
theorem linearizes : Linearizes O step (S.states 0) S.order where
  nodup := by
    refine List.nodup_flatMap.mpr ⟨fun k _ => explains.nodup_slot k, ?_⟩
    refine List.pairwise_lt_range.imp fun earlier a first second => ?_
    exact absurd (explains.slot_unique first second) earlier.ne
  complete a answer := by
    rw [mem_order]
    obtain read | ⟨k, write⟩ := explains.complete a answer
    · exact ⟨S.stamp a, explains.within a read, mem_slot.mpr (.inl ⟨read, rfl⟩)⟩
    · exact ⟨k, (explains.writes k a write).1.le, mem_slot.mpr (.inr write)⟩
  allowed a member := by
    obtain ⟨k, _, inside⟩ := mem_order.mp member
    obtain ⟨read, _⟩ | write := mem_slot.mp inside
    · exact .inl (explains.answered a read)
    · exact explains.effective k a write
  inTime := by
    refine List.pairwise_flatMap.mpr ⟨fun k _ => explains.pairwise_slot k, ?_⟩
    refine List.pairwise_lt_range.imp fun earlier a first b second => ?_
    exact explains.not_precedes earlier first second
  legal := explains.legal

end Explains

end Slots

end Distlab.Foundations.Linearizability
