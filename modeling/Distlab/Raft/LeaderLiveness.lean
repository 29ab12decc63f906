import Mathlib.Data.Finset.Sort
import Distlab.Raft.Events

/-!
# Leader liveness

`LeaderQuorumMonitor`: a leader confirms that a quorum of the active voters still
follows it in its term, or steps down. The monitor names its replicator by the
position in the cluster's list.

While a round waits, the simulator runs. What runs then is a list of events: the
deliveries that the network makes, and whatever else drives the cluster.
-/

set_option autoImplicit false

namespace Distlab.Raft

open Foundations

variable {ν : Type} [LinearOrder ν] (C : Config ν)

/-! ## Errors and evidence -/

/-- What a round raises. -/
inductive LivenessError (ν : Type) where
  /-- `ValueError`: "max_attempts_per_peer must be positive", "response_timeout must be
  positive". -/
  | notPositive
  /-- `LeaderAuthorityLost`. -/
  | authorityLost
  /-- `LeaderQuorumUnavailable`. -/
  | quorumUnavailable
  /-- `LeaderQuorumMembershipChanged`. -/
  | membershipChanged
  /-- An error that the round does not catch. -/
  | uncaught (error : Error ν)
  deriving DecidableEq

/-- A round of a monitor. -/
abbrev Round (ν : Type) (β : Type) := Outcome (LivenessError ν) (Cluster ν) β

/-- The error is a `ReplicationError`. -/
def Error.isReplication : Error ν → Bool
  | .replicationNotCurrent _ | .responseMissing _ | .snapshotUnavailable _ => true
  | _ => false

/-- A call that a round makes without catching anything. -/
def unguarded {β : Type} : Op ν β → Round ν β
  | .returns b s => .returns b s
  | .raises error s => .raises (.uncaught error) s

/-- A call of the replicator: `_raise_authority_loss` takes its `ReplicationError`. -/
def replicatorCall {β : Type} : Op ν β → Round ν β
  | .returns b s => .returns b s
  | .raises error s =>
      if error.isReplication then .raises .authorityLost s else .raises (.uncaught error) s

/-- `quorum_mode`. -/
inductive QuorumMode where
  | stable
  | joint
  deriving DecidableEq

/-- `LeaderQuorumEvidence`. -/
structure LeaderQuorumEvidence (ν : Type) where
  leader : ν
  term : ℕ
  acknowledgedPeers : List ν
  acknowledgedVoters : List ν
  quorumMode : QuorumMode
  oldMajority : ℕ
  newMajority : Option ℕ
  deriving DecidableEq

/-! ## The monitored quorum -/

/-- The record of an installed voting configuration. -/
def TraceRecord.isInstallation : TraceRecord ν → Bool
  | .membershipJoint _ _ _ _ | .membershipStable _ _ _ _ => true
  | _ => false

/-- The voting configuration that a round began with. The program compares the objects:
every installation makes a new one and records it. -/
structure RoundConfiguration (ν : Type) where
  configuration : VotingConfiguration ν
  installations : ℕ

/-- The voting configuration of the moment. -/
def roundConfiguration (s : Cluster ν) : RoundConfiguration ν :=
  ⟨s.votingConfiguration, s.trace.countP (·.isInstallation)⟩

/-- `cluster.voting_configuration is configuration`; a cluster of fixed membership has none. -/
def sameConfiguration (began : RoundConfiguration ν) (s : Cluster ν) : Bool :=
  match C.kind with
  | .fixed => true
  | .reconfigurable _ =>
      decide (s.votingConfiguration = began.configuration ∧
        s.trace.countP (·.isInstallation) = began.installations)

/-- `active_voters` -/
def RoundConfiguration.activeVoters (began : RoundConfiguration ν) : Finset ν :=
  match C.kind with
  | .fixed => C.nodeIds.toFinset
  | .reconfigurable _ => began.configuration.voters

/-- The quorum test of a round. -/
def RoundConfiguration.hasQuorum (began : RoundConfiguration ν) (acknowledged : Finset ν) : Bool :=
  match C.kind with
  | .fixed => C.nodeIds.length / 2 + 1 ≤ acknowledged.card
  | .reconfigurable _ => began.configuration.hasQuorum acknowledged

/-- The evidence of a round. -/
def RoundConfiguration.evidence (began : RoundConfiguration ν) (r : LeaderReplicator ν)
    (acknowledged : Finset ν) (acknowledgedPeers : List ν) : LeaderQuorumEvidence ν where
  leader := r.leader
  term := r.term
  acknowledgedPeers := acknowledgedPeers
  acknowledgedVoters := (acknowledged ∩ began.activeVoters C).sort (· ≤ ·)
  quorumMode := match C.kind with
    | .fixed => .stable
    | .reconfigurable _ => if began.configuration.isJoint then .joint else .stable
  oldMajority := match C.kind with
    | .fixed => C.nodeIds.length / 2 + 1
    | .reconfigurable _ => began.configuration.oldVoters.card / 2 + 1
  newMajority := match C.kind with
    | .fixed => none
    | .reconfigurable _ => began.configuration.newVoters.map (·.card / 2 + 1)

/-! ## The parts of a round -/

/-- `_require_current_leader`. -/
def requireMonitoredLeader (r : LeaderReplicator ν) (s : Cluster ν) : Round ν Unit :=
  if ¬ s.alive r.leader ∨ s.role r.leader ≠ .leader ∨ s.currentTerm r.leader ≠ r.term then
    .raises .authorityLost s
  else .returns () s

/-- The leader steps down, then the round raises. -/
def retireAndRaise {β : Type} (error : LivenessError ν) (r : LeaderReplicator ν) (s : Cluster ν) :
    Round ν β :=
  (unguarded (stepDown C r.leader s)).bind fun _ s => .raises error s

/-- `require_same_configuration`. -/
def requireSameConfiguration (began : RoundConfiguration ν) (r : LeaderReplicator ν)
    (s : Cluster ν) : Round ν Unit :=
  if sameConfiguration C began s then .returns () s
  else if s.role r.leader = .leader ∧ s.currentTerm r.leader = r.term then
    retireAndRaise C .membershipChanged r s
  else .raises .membershipChanged s

/-- The monitored replicator as it is now. -/
def monitored (i : ℕ) (r : LeaderReplicator ν) (s : Cluster ν) : LeaderReplicator ν :=
  s.replicators[i]?.getD r

/-- `Simulator.run` or `run_until_time`, with what runs. -/
def runWindow (window : List (Event ν)) (s : Cluster ν) : Op ν Unit :=
  Outcome.forEach window (step C) s

/-- `probe_activity`. -/
def probeActivity (i : ℕ) (r : LeaderReplicator ν) (peer : ν) (window : List (Event ν))
    (s : Cluster ν) : Op ν Bool :=
  (beginActivityProbe C (monitored i r s) peer s).bind fun probe s =>
    (runWindow C window s).bind fun _ s => finishActivityProbe C (monitored i r s) probe s

/-! ## `check` -/

/-- The attempts to probe one peer, with what runs in each: the peer answered. -/
def probePeer (began : RoundConfiguration ν) (i : ℕ) (r : LeaderReplicator ν) (peer : ν)
    (windows : ℕ → List (Event ν)) : ℕ → Cluster ν → Round ν Bool
  | 0, s => .returns false s
  | attempts + 1, s =>
      (requireMonitoredLeader r s).bind fun _ s =>
        (requireSameConfiguration C began r s).bind fun _ s =>
          (replicatorCall (probeActivity C i r peer (windows attempts) s)).bind fun active s =>
            if active then
              (requireSameConfiguration C began r s).bind fun _ s => .returns true s
            else probePeer began i r peer windows attempts s

/-- The peers of a round, up to a quorum: those that answered. -/
def probePeers (began : RoundConfiguration ν) (i : ℕ) (r : LeaderReplicator ν) (attempts : ℕ)
    (windows : ν → ℕ → List (Event ν)) : List ν → List ν → Cluster ν → Round ν (List ν)
  | [], acknowledgedPeers, s => .returns acknowledgedPeers s
  | peer :: rest, acknowledgedPeers, s =>
      (requireSameConfiguration C began r s).bind fun _ s =>
        if began.hasQuorum C (insert r.leader acknowledgedPeers.toFinset) then
          .returns acknowledgedPeers s
        else
          (probePeer C began i r peer (windows peer) attempts s).bind fun active s =>
            probePeers began i r attempts windows rest
              (if active then acknowledgedPeers ++ [peer] else acknowledgedPeers) s

/-- The peers that a round probes. -/
def RoundConfiguration.probed (began : RoundConfiguration ν) (r : LeaderReplicator ν) : List ν :=
  ascending C (began.activeVoters C \ {r.leader})

/-- The head of a round: a leader that is no active voter steps down. -/
def requireVoter (began : RoundConfiguration ν) (r : LeaderReplicator ν) (s : Cluster ν) :
    Round ν Unit :=
  if r.leader ∉ began.activeVoters C then retireAndRaise C .authorityLost r s
  else .returns () s

/-- The end of a round: evidence of a quorum, or the leader steps down. -/
def concludeRound (began : RoundConfiguration ν) (r : LeaderReplicator ν)
    (acknowledgedPeers : List ν) (s : Cluster ν) : Round ν (LeaderQuorumEvidence ν) :=
  let acknowledged := insert r.leader acknowledgedPeers.toFinset
  if ¬ began.hasQuorum C acknowledged then retireAndRaise C .quorumUnavailable r s
  else .returns (began.evidence C r acknowledged acknowledgedPeers) s

/-- `check`, with what runs in each attempt to probe a peer. -/
def checkQuorum (i : ℕ) (r : LeaderReplicator ν) (maxAttemptsPerPeer : ℕ)
    (windows : ν → ℕ → List (Event ν)) (s : Cluster ν) : Round ν (LeaderQuorumEvidence ν) :=
  if maxAttemptsPerPeer = 0 then .raises .notPositive s
  else
    (requireMonitoredLeader r s).bind fun _ s =>
      let began := roundConfiguration s
      (requireVoter C began r s).bind fun _ s =>
        (probePeers C began i r maxAttemptsPerPeer windows (began.probed C r) [] s).bind
          fun acknowledgedPeers s =>
            (requireMonitoredLeader r s).bind fun _ s =>
              (requireSameConfiguration C began r s).bind fun _ s =>
                concludeRound C began r acknowledgedPeers s

/-! ## `check_window` -/

/-- The probes of a window, in the order of their peers. -/
def beginProbes (i : ℕ) (r : LeaderReplicator ν) :
    List ν → Cluster ν → Round ν (List (AppendProbe ν))
  | [], s => .returns [] s
  | peer :: rest, s =>
      (replicatorCall (beginActivityProbe C (monitored i r s) peer s)).bind fun probe s =>
        (beginProbes i r rest s).bind fun probes s => .returns (probe :: probes) s

/-- The probes of a window that were answered. -/
def finishProbes (i : ℕ) (r : LeaderReplicator ν) :
    List (AppendProbe ν) → Cluster ν → Round ν (List ν)
  | [], s => .returns [] s
  | probe :: rest, s =>
      (replicatorCall (finishActivityProbe C (monitored i r s) probe s)).bind fun active s =>
        (finishProbes i r rest s).bind fun peers s =>
          .returns (if active then probe.peer :: peers else peers) s

/-- The configuration did not change, or the leader of a window steps down. -/
def requireWindowConfiguration (began : RoundConfiguration ν) (r : LeaderReplicator ν)
    (s : Cluster ν) : Round ν Unit :=
  if sameConfiguration C began s then .returns () s
  else retireAndRaise C .membershipChanged r s

/-- `check_window`, with what runs until the deadline. -/
def checkQuorumWindow (i : ℕ) (r : LeaderReplicator ν) (responseTimeout : ℕ)
    (window : List (Event ν)) (s : Cluster ν) : Round ν (LeaderQuorumEvidence ν) :=
  if responseTimeout = 0 then .raises .notPositive s
  else
    (requireMonitoredLeader r s).bind fun _ s =>
      let began := roundConfiguration s
      (requireVoter C began r s).bind fun _ s =>
        (beginProbes C i r (began.probed C r) s).bind fun probes s =>
          let deadline := s.time + responseTimeout
          (unguarded (runWindow C window s)).bind fun _ s =>
            let s := s.elapse (deadline - s.time)
            (requireMonitoredLeader r s).bind fun _ s =>
              (requireWindowConfiguration C began r s).bind fun _ s =>
                (finishProbes C i r probes s).bind fun acknowledgedPeers s =>
                  (requireWindowConfiguration C began r s).bind fun _ s =>
                    concludeRound C began r acknowledgedPeers s

end Distlab.Raft
