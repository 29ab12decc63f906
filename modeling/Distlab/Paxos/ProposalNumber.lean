import Mathlib.Data.Prod.Lex
import Mathlib.Order.Basic

/-!
# Proposal numbers and the records kept under them

Proposal numbers (ballots) are ordered by round, then by proposer. Acceptors
and learners of the replicated log keep one record for each slot.
-/

set_option autoImplicit false

namespace Distlab.Paxos


/-- `ProposalNumber`: a round and the proposer that owns it. -/
structure ProposalNumber (ν : Type) where
  round : ℕ
  proposerId : ν
  deriving DecidableEq

namespace ProposalNumber

variable {ν : Type}

/-- The fields in the order in which they are compared. -/
def key (p : ProposalNumber ν) : ℕ ×ₗ ν := toLex (p.round, p.proposerId)

theorem key_injective : Function.Injective (key : ProposalNumber ν → ℕ ×ₗ ν) := by
  rintro ⟨r, p⟩ ⟨r', p'⟩ same
  cases same
  rfl

instance [LinearOrder ν] : LinearOrder (ProposalNumber ν) :=
  LinearOrder.lift' key key_injective

end ProposalNumber

/-- `SlotAcceptedValue`: what an acceptor accepted at a slot. -/
structure SlotAcceptedValue (ν : Type) (α : Type) where
  slot : ℕ
  proposal : ProposalNumber ν
  value : α
  deriving DecidableEq

/-- `SlotLearnedDecision`: what a learner learned at a slot. -/
structure SlotLearnedDecision (ν : Type) (α : Type) where
  slot : ℕ
  proposal : ProposalNumber ν
  value : α
  deriving DecidableEq

end Distlab.Paxos
