import Mathlib.Algebra.GroupWithZero.Nat
import Distlab.MultiPaxos.Deployment

/-!
# What handling a message can send

Every message has a weight and every cluster a potential, which counts the
pending proposals and the attempts that the recovery episodes have left. The
network may queue a message twice, so sending one costs twice its weight.

An operation spends from the potential and from a budget of its own: what it
sends and the potential that it leaves add up to at most the potential before
and the budget. A message's budget is below its weight, so handling it leaves
less behind than there was.
-/

set_option autoImplicit false

namespace Distlab.MultiPaxos

open Foundations Paxos

variable {ν : Type} {α : Type}

/-! ## Weights and potential -/

/-- A request is answered by one message, in at most two copies. -/
def Payload.weight : Payload ν α → ℕ
  | .leaderPrepare _ | .leaderAccept _ | .decisionRecoveryRequest _ => 3
  | _ => 1

theorem Payload.weight_pos (payload : Payload ν α) : 0 < payload.weight := by
  cases payload <;> exact Nat.zero_lt_succ _

/-- The cost of sending messages that the network may duplicate. -/
def outlay (sent : List (Message ν α)) : ℕ := (sent.map fun m => 2 * m.payload.weight).sum

/-- A pending proposal pays for the decisions that it ends in, an attempt for
its requests and its timer. -/
def nodePotential (M : Membership ν) (w : Volatile ν α) : ℕ :=
  w.pending.keys.length * (2 * M.nodeIds.length) +
    (recoveryAttempts - w.recoveryAttempt) * (6 * M.nodeIds.length + 2)

/-- The potential of a cluster. -/
def potential (M : Membership ν) (s : Cluster ν α) : ℕ :=
  (M.nodeIds.map fun n => nodePotential M (s.volatile n)).sum

@[simp] theorem outlay_nil : outlay ([] : List (Message ν α)) = 0 := rfl

@[simp] theorem outlay_append (first second : List (Message ν α)) :
    outlay (first ++ second) = outlay first + outlay second := by
  simp only [outlay, List.map_append, List.sum_append]

theorem outlay_broadcast (src : ν) (dsts : List ν) (payload : Payload ν α) :
    outlay (dsts.map fun dst => (⟨src, dst, payload⟩ : Message ν α)) =
      dsts.length * (2 * payload.weight) := by
  induction dsts with
  | nil => simp
  | cons dst dsts ih =>
      simp only [outlay, List.map_cons, List.sum_cons, List.length_cons] at ih ⊢
      rw [ih, Nat.add_comm, ← Nat.succ_mul]

/-- The volatile state of a node: its recovery episode made at most as many
attempts as it has, and its ballot is a member's. -/
structure Volatile.Regular (M : Membership ν) (w : Volatile ν α) : Prop where
  attempts : w.recoveryAttempt ≤ recoveryAttempts
  leader : ∀ ballot, w.leaderBallot = some ballot → ballot.proposerId ∈ M.nodeIds

/-- The volatile state of every node is regular. -/
def Regular (M : Membership ν) (s : Cluster ν α) : Prop := ∀ n, (s.volatile n).Regular M

/-- What an operation sends, to nodes of the cluster only, and the potential it
leaves are paid by the potential before it and its budget. -/
structure Spends (M : Membership ν) (budget : ℕ) (s s' : Cluster ν α) : Prop where
  pays : ∃ sent : List (Message ν α), s'.network = s.network ++ sent ∧
    (∀ m ∈ sent, m.dst ∈ M.nodeIds) ∧ outlay sent + potential M s' ≤ potential M s + budget
  regular : Regular M s'

variable {M : Membership ν} {s t u : Cluster ν α} {first second : ℕ}

theorem Regular.spends (regular : Regular M s) : Spends M 0 s s where
  pays := ⟨[], by simp, by simp, by simp⟩
  regular := regular

theorem Spends.trans (spends : Spends M first s t) (after : Spends M second t u) :
    Spends M (first + second) s u where
  pays := by
    obtain ⟨sent, network, members, paid⟩ := spends.pays
    obtain ⟨sent', network', members', paid'⟩ := after.pays
    refine ⟨sent ++ sent', by rw [network', network, List.append_assoc], ?_, ?_⟩
    · intro m member
      exact (List.mem_append.mp member).elim (members m) (members' m)
    · rw [outlay_append]
      omega
  regular := after.regular

theorem Spends.mono (spends : Spends M first s t) (enough : first ≤ second) :
    Spends M second s t where
  pays := by
    obtain ⟨sent, network, members, paid⟩ := spends.pays
    exact ⟨sent, network, members, by omega⟩
  regular := spends.regular

/-- The cluster changed nowhere that counts. -/
theorem Spends.of_same (regular : Regular M s) (network : t.network = s.network)
    (volatile : t.volatile = s.volatile) : Spends M 0 s t where
  pays := ⟨[], by simp [network], by simp, by simp [potential, volatile]⟩
  regular n := by
    rw [volatile]
    exact regular n

theorem Spends.send (regular : Regular M s) (src : ν) {dst : ν} (member : dst ∈ M.nodeIds)
    (payload : Payload ν α) : Spends M (2 * payload.weight) s (s.send src dst payload) where
  pays := by
    refine ⟨[⟨src, dst, payload⟩], rfl, ?_, ?_⟩
    · intro m sent
      rw [List.mem_singleton.mp sent]
      exact member
    · simp [outlay, potential, Nat.add_comm]
  regular := regular

theorem Spends.sendAll (regular : Regular M s) (src : ν) {dsts : List ν}
    (members : ∀ dst ∈ dsts, dst ∈ M.nodeIds) (payload : Payload ν α) :
    Spends M (dsts.length * (2 * payload.weight)) s (s.sendAll src dsts payload) where
  pays := by
    refine ⟨dsts.map fun dst => ⟨src, dst, payload⟩, rfl, ?_, ?_⟩
    · intro m sent
      obtain ⟨dst, member, rfl⟩ := List.mem_map.mp sent
      exact members dst member
    · rw [outlay_broadcast, Nat.add_comm]
      exact le_rfl
  regular := regular

/-! ## Changes of the volatile state -/

section Volatile

variable [DecidableEq ν]

theorem sum_update (items : List ν) (nodup : items.Nodup) {n : ν} (member : n ∈ items)
    (f : ν → ℕ) (value : ℕ) :
    (items.map (Function.update f n value)).sum + f n = (items.map f).sum + value := by
  induction items with
  | nil => cases member
  | cons head rest ih =>
      obtain ⟨fresh, nodup⟩ := List.nodup_cons.mp nodup
      simp only [List.map_cons, List.sum_cons]
      by_cases same : head = n
      · subst same
        have others : rest.map (Function.update f head value) = rest.map f := by
          refine List.map_congr_left fun other present => ?_
          have distinct : other ≠ head := fun same => fresh (same ▸ present)
          exact Function.update_of_ne distinct _ _
        rw [Function.update_self, others]
        omega
      · have inRest : n ∈ rest := (List.mem_cons.mp member).resolve_left fun eq => same eq.symm
        rw [Function.update_of_ne same]
        have := ih nodup inRest
        omega

theorem potential_updateVolatile {n : ν} (member : n ∈ M.nodeIds)
    (g : Volatile ν α → Volatile ν α) :
    potential M (s.updateVolatile n g) + nodePotential M (s.volatile n) =
      potential M s + nodePotential M (g (s.volatile n)) := by
  have updated : (fun m => nodePotential M ((s.updateVolatile n g).volatile m)) =
      Function.update (fun m => nodePotential M (s.volatile m)) n
        (nodePotential M (g (s.volatile n))) := by
    funext m
    rw [Function.update_apply, Cluster.updateVolatile_volatile]
    split <;> rfl
  unfold potential
  rw [updated]
  exact sum_update M.nodeIds M.nodup member _ _

/-- A change of one node's volatile state costs the potential it adds. -/
theorem Spends.updateVolatile (budget : ℕ) (regular : Regular M s) {n : ν}
    (member : n ∈ M.nodeIds) {g : Volatile ν α → Volatile ν α}
    (keeps : (g (s.volatile n)).Regular M)
    (cost : nodePotential M (g (s.volatile n)) ≤ nodePotential M (s.volatile n) + budget) :
    Spends M budget s (s.updateVolatile n g) where
  pays := by
    refine ⟨[], by simp, by simp, ?_⟩
    have := potential_updateVolatile (s := s) member g
    rw [outlay_nil]
    omega
  regular m := by
    rw [Cluster.updateVolatile_volatile]
    split
    next => exact keeps
    next => exact regular m

/-- A change that keeps the node's ballot, pending proposals and attempts is free. -/
theorem Spends.updateVolatile_free (regular : Regular M s) {n : ν}
    (member : n ∈ M.nodeIds) {g : Volatile ν α → Volatile ν α}
    (leader : (g (s.volatile n)).leaderBallot = (s.volatile n).leaderBallot)
    (pending : (g (s.volatile n)).pending = (s.volatile n).pending)
    (attempt : (g (s.volatile n)).recoveryAttempt = (s.volatile n).recoveryAttempt) :
    Spends M 0 s (s.updateVolatile n g) := by
  refine Spends.updateVolatile 0 regular member ⟨?_, ?_⟩ ?_
  · rw [attempt]
    exact (regular n).attempts
  · rw [leader]
    exact (regular n).leader
  · rw [nodePotential, nodePotential, pending, attempt]
    exact le_rfl

theorem peers_mem {self n : ν} (peer : n ∈ M.peers self) : n ∈ M.nodeIds :=
  (List.mem_filter.mp peer).1

theorem peers_length_lt {self : ν} (member : self ∈ M.nodeIds) :
    (M.peers self).length < M.nodeIds.length := by
  unfold Membership.peers
  refine List.length_filter_lt_length_iff_exists.mpr ⟨self, member, ?_⟩
  simp

end Volatile

end Distlab.MultiPaxos
