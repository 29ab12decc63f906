import Mathlib.Data.Finset.Card
import Distlab.Raft.LogIndex

/-!
# Commands and snapshots

The commands of log entries, and the durable snapshots of the state machine.
Where the program keeps a set of voters as a sorted tuple, the model keeps the set.
-/

set_option autoImplicit false

namespace Distlab.Raft

/-- `KVOperation`: `Put` or `Delete`. -/
inductive KVOperation where
  | put (key value : String)
  | delete (key : String)
  deriving DecidableEq

/-- The command of a log entry. -/
inductive Command (ν : Type) where
  /-- A bare `Put` or `Delete`. -/
  | operation (operation : KVOperation)
  /-- `ClientRequest`. -/
  | clientRequest (clientId : String) (requestId : ℕ) (operation : KVOperation)
  /-- `CommitRecoveryBarrier`. -/
  | commitRecoveryBarrier
  /-- `JointConsensusCommand`. -/
  | jointConsensus (newVoters : Finset ν)
  /-- `StableConsensusCommand`. -/
  | stableConsensus (voters : Finset ν)
  /-- Any other payload, which no replicated state machine accepts. -/
  | other (payload : String)
  deriving DecidableEq

/-- The command changes the voting configuration. -/
def Command.isMembership {ν : Type} : Command ν → Bool
  | .jointConsensus _ | .stableConsensus _ => true
  | _ => false

/-- `SnapshotClientRequest`. -/
structure SnapshotClientRequest where
  clientId : String
  requestId : ℕ
  operation : KVOperation
  deriving DecidableEq

/-- `SnapshotVotingConfiguration`. -/
structure SnapshotVotingConfiguration (ν : Type) where
  committedIndex : ℕ
  oldVoters : Finset ν
  newVoters : Option (Finset ν)
  deriving DecidableEq

/-- `KVSnapshot`. -/
structure KVSnapshot (ν : Type) where
  lastIncludedIndex : ℕ
  lastIncludedTerm : ℕ
  state : List (String × String)
  clientRequests : List SnapshotClientRequest
  votingConfiguration : Option (SnapshotVotingConfiguration ν)
  deriving DecidableEq

/-- `VotingConfiguration`. -/
structure VotingConfiguration (ν : Type) where
  oldVoters : Finset ν
  newVoters : Option (Finset ν) := none
  deriving DecidableEq

namespace VotingConfiguration

variable {ν : Type} [DecidableEq ν]

/-- `is_joint`. -/
def isJoint (c : VotingConfiguration ν) : Bool := c.newVoters.isSome

/-- `voters`. -/
def voters (c : VotingConfiguration ν) : Finset ν := c.oldVoters ∪ c.newVoters.getD ∅

/-- `_has_majority`. -/
def hasMajority (voters votes : Finset ν) : Bool := voters.card / 2 + 1 ≤ (voters ∩ votes).card

/-- `has_quorum`. -/
def hasQuorum (c : VotingConfiguration ν) (votes : Finset ν) : Bool :=
  hasMajority c.oldVoters votes ∧ ∀ new ∈ c.newVoters, hasMajority new votes

end VotingConfiguration

end Distlab.Raft
