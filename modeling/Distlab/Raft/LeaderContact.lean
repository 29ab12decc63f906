import Distlab.Raft.Lifecycle
import Distlab.Raft.PreVotes

/-!
# Leader contact and pre-vote rounds

A node that hears from a valid leader should give up the pre-vote round that it has
open. The handler of `AppendEntries` closes the round; the handler of
`InstallSnapshot` does so only when it adopts a higher term, and no response says
which of two rounds of one prospective term it belongs to.

A run numbers its steps. The number of a round is that of the step that opened it;
its requests and the responses to them belong to it.
-/

set_option autoImplicit false

namespace Distlab.Raft

open Foundations

variable {ν : Type} [LinearOrder ν] {C : Config ν} {n : ν} {s t : Cluster ν}

/-! ## Contact -/

def Payload.installSnapshotRequest? : Payload ν → Option (InstallSnapshotRequest ν)
  | .installSnapshotRequest request => some request
  | _ => none

def Payload.preVoteResponse? : Payload ν → Option (PreVoteResponse ν)
  | .preVoteResponse response => some response
  | _ => none

/-- The node accepts the message as one of a valid leader: its term is not lower than
the node's own. -/
def LeaderContact (C : Config ν) (n : ν) (message : Message ν) (s : Cluster ν) : Bool :=
  decide (message.dst = n) && s.alive n && validEnvelope C message &&
    match message.payload with
    | .appendEntries request =>
        isVoter C s request.leaderId && decide (s.currentTerm n ≤ request.term)
    | .installSnapshotRequest request =>
        isVoter C s request.leaderId && decide (s.currentTerm n ≤ request.term)
    | _ => false

/-- In the step from `s` to `t` the node stands for election: it votes for itself. -/
def callsStartElection (n : ν) (s t : Cluster ν) : Bool :=
  (t.trace.drop s.trace.length).any fun entry => match entry with
    | .persistTermVote m _ vote => decide (m = n ∧ vote = some n)
    | _ => false

/-! ## Runs -/

/-- A cluster whose run numbers its steps: the round that each message of the network
belongs to, the latest round that each node opened, and the latest step in which it
heard from a valid leader. -/
structure Rounds (ν : Type) where
  cluster : Cluster ν
  clock : ℕ
  belongs : List ℕ
  started : ν → ℕ
  contact : ν → ℕ

namespace Rounds

/-- The next step leads to `t`. The messages that it sends belong to a round, and it
may be a contact of a node. -/
def next (r : Rounds ν) (t : Cluster ν) (round : ℕ) (heard : ν → Bool) : Rounds ν :=
  let sent := t.network.drop r.cluster.network.length
  { cluster := t
    clock := r.clock + 1
    belongs := r.belongs ++ sent.map fun _ => round
    started := fun n =>
      if sent.any fun message => message.isPreVote && decide (message.src = n) then r.clock
      else r.started n
    contact := fun n => if heard n then r.clock else r.contact n }

/-- The message that an event delivers. -/
def delivered (event : Event ν) (r : Rounds ν) : Option (Message ν) :=
  match event with
  | .deliver delivery => r.cluster.network[delivery.position]?
  | _ => none

/-- The round of the message that an event delivers. -/
def deliveredRound (event : Event ν) (r : Rounds ν) : ℕ :=
  match event with
  | .deliver delivery => r.belongs[delivery.position]?.getD r.clock
  | _ => r.clock

/-- The round of the messages that an event sends: the answer to a request belongs to
the round of the request. -/
def sentRound (event : Event ν) (r : Rounds ν) : ℕ :=
  match r.delivered event with
  | some message => if message.isPreVote then r.deliveredRound event else r.clock
  | none => r.clock

/-- A call. -/
def call (C : Config ν) (event : Event ν) (r : Rounds ν) : Rounds ν :=
  r.next (step C event r.cluster).state (r.sentRound event)
    fun n => (r.delivered event).any fun message => LeaderContact C n message r.cluster

end Rounds

/-- A new cluster. -/
def Config.rounds (C : Config ν) : Rounds ν where
  cluster := C.fresh
  clock := 1
  belongs := C.fresh.network.map fun _ => 0
  started := fun _ => 0
  contact := fun _ => 0

/-- The runs whose calls meet a condition. The drivers call the operations of the
nodes and deliver messages, one after the other; whatever else they write opens no
round. -/
inductive RoundRun (C : Config ν) (condition : Event ν → Rounds ν → Prop) : Rounds ν → Prop
  | fresh : RoundRun C condition C.rounds
  | call {r : Rounds ν} (before : RoundRun C condition r) (event : Event ν)
      (single : event.isLifecycle = true) (met : condition event r) :
      RoundRun C condition (r.call C event)
  | drive {r : Rounds ν} (before : RoundRun C condition r) (t : Cluster ν)
      (shuts : Shuts r.cluster t) :
      RoundRun C condition (r.next t r.clock fun _ => false)

/-! ## The conditions -/

/-- A snapshot of the node's own term finds no round open. -/
def SnapshotFindsNoRound (C : Config ν) (event : Event ν) (r : Rounds ν) : Prop :=
  ∀ message ∈ r.delivered event, ∀ request ∈ message.payload.installSnapshotRequest?,
    LeaderContact C message.dst message r.cluster = true →
      request.term = r.cluster.currentTerm message.dst → r.cluster.openRound message.dst = none

/-- The response may count in the open round of the node: it grants a vote, and one that the
node does not have yet unless the votes that it has are a majority by now. -/
def MayCount (C : Config ν) (n : ν) (response : PreVoteResponse ν) (s : Cluster ν) : Prop :=
  response.voteGranted = true ∧ (response.voterId ∈ (s.volatile n).preVotesReceived →
    hasElectionQuorum C s (s.volatile n).preVotesReceived = true)

/-- A response that belongs to a round from before the contact and may count finds no round of
its prospective term that was opened since. -/
def ResponseFindsNoLaterRound (C : Config ν) (event : Event ν) (r : Rounds ν) : Prop :=
  ∀ message ∈ r.delivered event, ∀ response ∈ message.payload.preVoteResponse?,
    r.deliveredRound event < r.contact message.dst →
      r.contact message.dst ≤ r.started message.dst →
        MayCount C message.dst response r.cluster →
          r.cluster.openRound message.dst ≠ some response.prospectiveTerm

/-- Both conditions. -/
def CancelsRounds (C : Config ν) (event : Event ν) (r : Rounds ν) : Prop :=
  SnapshotFindsNoRound C event r ∧ ResponseFindsNoLaterRound C event r

instance (event : Event ν) (r : Rounds ν) : Decidable (CancelsRounds C event r) := by
  unfold CancelsRounds SnapshotFindsNoRound ResponseFindsNoLaterRound MayCount
  infer_instance

/-! ## What contact closes -/

omit [LinearOrder ν] in
/-- A closed round stays closed. -/
theorem Shutting.closed {β : Type} {op : Op ν β} (shutting : Shutting s op)
    (closed : s.openRound n = none) : op.state.openRound n = none := by
  rcases shutting.state.rounds n with none | same
  · exact none
  · rw [same, closed]

/-- A leader that is deposed in its own term is reported. -/
theorem shuts_deposed (deposed : Prop) [Decidable deposed] (term : ℕ) :
    Shuts s (if deposed then notifyLeaderRetired n term s else s) := by
  split
  · exact shuts_notifyLeaderRetired _
  · exact .refl s

theorem currentTerm_advanceTerm {term : ℕ} {rearm : Bool} (current : s.currentTerm n ≤ term) :
    (advanceTerm C n term rearm s).currentTerm n = term := by
  have notified : ∀ (t : Cluster ν) (led : ℕ),
      (notifyLeaderRetired n led t).currentTerm n = t.currentTerm n := by
    intro t led
    obtain ⟨active, observers, same⟩ := notifyLeaderRetired_eq n led t
    rw [same]
    rfl
  have adopted : (clearPreVote n (adoptTerm n term s)).currentTerm n = term := by
    simp [clearPreVote, adoptTerm, retire, persistTermAndVote, Cluster.currentTerm,
      Cluster.updateVolatile, Cluster.updatePersistent, Cluster.record]
  unfold advanceTerm
  split
  next reached => exact le_antisymm current reached
  dsimp only
  by_cases led : s.role n = .leader
  · simp only [led, if_true, and_true]
    have retired := (notified (clearPreVote n (adoptTerm n term s)) (s.currentTerm n)).trans adopted
    split
    · rw [Cluster.currentTerm, persistent_resetElectionTimeout]
      exact retired
    · exact retired
  · simpa [led] using adopted

/-- A higher term is persisted without a vote. -/
theorem trace_advanceTerm {term : ℕ} {rearm : Bool} (higher : s.currentTerm n < term) :
    (advanceTerm C n term rearm s).trace = s.trace ++ [.persistTermVote n term none] := by
  have notified : ∀ (t : Cluster ν) (led : ℕ), (notifyLeaderRetired n led t).trace = t.trace := by
    intro t led
    obtain ⟨active, observers, same⟩ := notifyLeaderRetired_eq n led t
    rw [same]
  have rearmed : ∀ t : Cluster ν, (resetElectionTimeout C n t).trace = t.trace := by
    intro t
    unfold resetElectionTimeout
    split
    · unfold disableElectionTimeout
      dsimp only
      split <;> split <;> rfl
    split
    · rfl
    split <;> rfl
  unfold advanceTerm
  rw [if_neg (by omega)]
  dsimp only
  split <;> split
  · rw [rearmed, notified]
    rfl
  · rw [rearmed]
    rfl
  · rw [notified]
    rfl
  · rfl

/-- **`AppendEntries`** of a valid leader closes the round. -/
theorem handleAppendEntries_shuts (src : ν) (request : AppendEntries ν) :
    (handleAppendEntries C n src request s).Ensures (fun t => Shuts s t ∧
      (isVoter C s request.leaderId = true → s.currentTerm n ≤ request.term →
        t.openRound n = none)) fun _ _ => True := by
  unfold handleAppendEntries
  split
  next outside => exact ⟨shuts_send fun _ => rfl, fun voter => absurd voter outside⟩
  dsimp only
  have adopted := shuts_advanceTerm (C := C) (n := n) (s := s) request.term false
  split
  next stale =>
    refine ⟨adopted.trans (shuts_answerAppendEntries src request _ _), fun _ current => ?_⟩
    exact absurd (currentTerm_advanceTerm current).symm stale
  have accepted := (adopted.trans (shuts_retire (n := n))).trans (shuts_clearPreVote (n := n))
  have closed : (clearPreVote n (retire n (advanceTerm C n request.term false s))).openRound n =
      none := openRound_clearPreVote
  generalize clearPreVote n (retire n (advanceTerm C n request.term false s)) =
    a at accepted closed ⊢
  suffices rest : Shutting a _ from rest.mono (fun t shuts => ⟨accepted.trans shuts, fun _ _ => by
    rcases shuts.rounds n with none | same
    · exact none
    · rw [same, closed]⟩) fun _ _ => id
  have deposed := shuts_deposed (n := n) (s := a)
    (s.role n = .leader ∧ request.term = s.currentTerm n) (s.currentTerm n)
  refine .after (deposed.trans (shuts_resetElectionTimeout (C := C) (n := n))) ?_
  generalize resetElectionTimeout C n _ = b
  split
  · exact shuts_answerAppendEntries src request _ _
  · exact shutting_mergeAndCommit src request

/-- A snapshot of a higher term closes the round; one of the node's own term leaves it
as it is. -/
theorem closes_handleInstallSnapshotRequest {request : InstallSnapshotRequest ν}
    (voter : isVoter C s request.leaderId = true)
    (current : s.currentTerm request.followerId ≤ request.term)
    (idle : request.term = s.currentTerm request.followerId →
      s.openRound request.followerId = none) :
    (handleInstallSnapshotRequest C request s).state.openRound request.followerId = none := by
  rcases current.eq_or_lt with same | higher
  · exact (shutting_handleInstallSnapshotRequest request).closed (idle same.symm)
  · have closed : (retire request.followerId
        (advanceTerm C request.followerId request.term false s)).openRound request.followerId =
          none := by
      rcases (shuts_retire (n := request.followerId) (s := advanceTerm C request.followerId
        request.term false s)).rounds request.followerId with none | same
      · exact none
      · exact same.trans (openRound_advanceTerm higher)
    have rest : Shutting (retire request.followerId
        (advanceTerm C request.followerId request.term false s))
          (handleInstallSnapshotRequest C request s) := by
      unfold handleInstallSnapshotRequest
      dsimp only
      split
      next stale =>
        rcases stale with outside | lower
        · exact absurd voter outside
        · omega
      refine .after (shuts_resetElectionTimeout (C := C) (n := request.followerId)) ?_
      split
      · split
        · exact shuts_answerInstallSnapshot request _ _
        · exact shutting_install request
      · exact shutting_install request
    exact rest.closed closed

/-- A response makes the node stand for election only in the round of its prospective
term, and where it may count. -/
theorem openRound_of_callsStartElection {response : PreVoteResponse ν} {before : Cluster ν}
    {message : Message ν} (delivers : s.trace = before.trace ++ [.deliver message])
    (calls : callsStartElection n before (handlePreVoteResponse C n response s).state = true) :
    s.openRound n = some response.prospectiveTerm ∧ MayCount C n response s := by
  have silent : callsStartElection n before s = false := by
    simp [callsStartElection, delivers]
  unfold handlePreVoteResponse at calls
  split at calls
  · rw [Outcome.state_returns, silent] at calls
    cases calls
  split at calls
  next higher =>
    rw [Outcome.state_returns, callsStartElection, trace_advanceTerm higher, delivers,
      List.append_assoc, List.drop_left] at calls
    simp at calls
  split at calls
  · rw [Outcome.state_returns, silent] at calls
    cases calls
  next round =>
    rw [not_or, not_not] at round
    split at calls
    · rw [Outcome.state_returns, silent] at calls
      cases calls
    next granted =>
      dsimp only at calls
      split at calls
      next majority =>
        refine ⟨round.1, not_not.mp granted, fun counted => ?_⟩
        have votes : ∀ write, ((s.updateVolatile n write).volatile n) = write (s.volatile n) :=
          fun write => Function.update_self n _ _
        rwa [votes, Finset.insert_eq_of_mem counted] at majority
      · rw [Outcome.state_returns] at calls
        exact absurd (silent.symm.trans calls) Bool.false_ne_true

/-! ## Deliveries -/

/-- The delivery of a message that its live receiver handles. -/
theorem step_deliver {delivery : Delivery} {message : Message ν}
    (found : s.network[delivery.position]? = some message) (alive : s.alive message.dst = true)
    (valid : validEnvelope C message = true) :
    step C (.deliver delivery) s =
      handleMessage C message ((s.elapse delivery.elapsed).record (.deliver message)) := by
  have live : ((s.elapse delivery.elapsed).alive message.dst) = true := alive
  have there : (s.elapse delivery.elapsed).network[delivery.position]? = some message := found
  unfold step perform deliver
  dsimp only [Event.node, Option.filter]
  rw [there]
  dsimp only
  rw [if_neg (by simp [live]), if_pos valid]

/-- **Contact closes the round**, if a snapshot of the node's own term finds none. -/
theorem closes_contact {delivery : Delivery} {message : Message ν}
    (found : s.network[delivery.position]? = some message)
    (contact : LeaderContact C n message s = true)
    (idle : ∀ request, message.payload = .installSnapshotRequest request →
      request.term = s.currentTerm n → s.openRound n = none) :
    (step C (.deliver delivery) s).state.openRound n = none := by
  obtain ⟨src, dst, payload, ordinal⟩ := message
  unfold LeaderContact at contact
  simp only [Bool.and_eq_true, decide_eq_true_eq] at contact
  obtain ⟨⟨⟨rfl, alive⟩, valid⟩, accepted⟩ := contact
  rw [step_deliver found alive valid]
  unfold handleMessage
  cases payload with
  | appendEntries request =>
      simp only [Bool.and_eq_true, decide_eq_true_eq] at accepted
      exact (handleAppendEntries_shuts src request).state.2 accepted.1 accepted.2
  | installSnapshotRequest request =>
      simp only [Bool.and_eq_true, decide_eq_true_eq] at accepted
      obtain ⟨_, _, _, rfl⟩ : request.leaderId ∈ C.nodeIds ∧ request.followerId ∈ C.nodeIds ∧
          src = request.leaderId ∧ dst = request.followerId := by
        simpa [validEnvelope] using valid
      exact closes_handleInstallSnapshotRequest accepted.1 accepted.2 (idle request rfl)
  | _ => cases accepted

/-- What the handlers send and open. -/
theorem tracks_handleMessage {message : Message ν}
    (apart : message.isPreVoteTraffic = true → message.src ≠ message.dst) :
    (handleMessage C message s).Ensures (Tracks C s) fun _ _ => True := by
  have shutting : ∀ {op : Op ν Unit}, Shutting s op → op.Ensures (Tracks C s) fun _ _ => True :=
    fun shuts => shuts.mono (fun _ step => step.tracks) fun _ _ => id
  obtain ⟨src, dst, payload, ordinal⟩ := message
  unfold handleMessage
  cases payload with
  | electionTimeout generation deadline =>
      dsimp only
      unfold handleElectionTimeout
      split
      · exact (Shuts.refl s).tracks
      split
      · exact (Shuts.refl s).tracks
      split
      · exact (Shuts.refl s).tracks
      · exact tracks_startPreVote dst
  | preVote request =>
      refine ⟨[_], rfl, fun message member _ => ?_, fun _ => .inr (.inl rfl)⟩
      rw [List.mem_singleton.mp member]
      exact (apart rfl).symm
  | preVoteResponse response => exact shutting (shutting_handlePreVoteResponse response)
  | requestVote request => exact (shuts_handleRequestVote src request).tracks
  | requestVoteResponse response => exact shutting (shutting_handleRequestVoteResponse response)
  | appendEntries request =>
      exact (handleAppendEntries_shuts src request).mono (fun _ step => step.1.tracks)
        fun _ _ => id
  | appendEntriesResponse response => exact (shuts_handleAppendEntriesResponse response).tracks
  | installSnapshotRequest request =>
      exact shutting (shutting_handleInstallSnapshotRequest request)
  | installSnapshotResponse response => exact (shuts_handleInstallSnapshotResponse response).tracks

theorem tracks_deliver (delivery : Delivery)
    (apart : ∀ message ∈ s.network, message.isPreVoteTraffic = true → message.src ≠ message.dst) :
    (deliver C delivery s).Ensures (Tracks C s) fun _ _ => True := by
  have elapsed : Shuts s (s.elapse delivery.elapsed) := .of_same rfl rfl
  unfold deliver
  dsimp only
  split
  · exact elapsed.tracks
  next message found =>
  split
  · exact elapsed.tracks
  have recorded := (elapsed.trans (shuts_record (.deliver message))).tracks (C := C)
  split
  · exact (tracks_handleMessage (apart message (List.mem_of_getElem? found))).mono
      (fun _ after => recorded.trans after) fun _ _ => id
  · exact recorded

/-- **One call.** -/
theorem tracks_step {event : Event ν} (single : event.isLifecycle = true)
    (apart : ∀ message ∈ s.network, message.isPreVoteTraffic = true → message.src ≠ message.dst) :
    (step C event s).Ensures (Tracks C s) fun _ _ => True := by
  have shutting : ∀ {op : Op ν Unit}, Shutting s op → op.Ensures (Tracks C s) fun _ _ => True :=
    fun shuts => shuts.mono (fun _ step => step.tracks) fun _ _ => id
  unfold step
  split
  · exact ⟨(Shuts.refl s).tracks, trivial⟩
  cases event with
  | startElection n => exact shutting shutting_startElection
  | startPreVote n => exact tracks_startPreVote n
  | stepDown n => exact shutting shutting_stepDown
  | deliver delivery => exact tracks_deliver delivery apart
  | wait elapsed =>
      have passed : Shuts s (s.elapse elapsed) := .of_same rfl rfl
      exact passed.tracks
  | crash n => exact (shuts_crash n).tracks
  | restart n => exact (shuts_restart n).tracks
  | sendAppendEntries n peer prevLogIndex entries leaderCommit =>
      exact shutting (shutting_sendAppendEntries peer prevLogIndex entries leaderCommit)
  | sendInstallSnapshot leader follower term snapshot requestId =>
      exact shutting (shutting_sendInstallSnapshot follower term snapshot requestId)
  | _ => cases single

/-! ## The invariant -/

/-- An open round was opened after the last contact of its node. -/
structure RoundInv (C : Config ν) (r : Rounds ν) : Prop where
  later : ∀ n, r.cluster.openRound n ≠ none → r.contact n ≤ r.started n ∨ C.peers n = []
  apart : ∀ message ∈ r.cluster.network, message.isPreVoteTraffic = true →
    message.src ≠ message.dst
  clock : ∀ n, r.contact n ≤ r.clock

/-- A step that sends the requests of the rounds it opens, and closes the round of a
node that it is a contact of. -/
theorem RoundInv.next {r : Rounds ν} (inv : RoundInv C r) (tracks : Tracks C r.cluster t)
    {round : ℕ} {heard : ν → Bool} (closes : ∀ n, heard n = true → t.openRound n = none) :
    RoundInv C (r.next t round heard) := by
  obtain ⟨sent, network, apart, opened⟩ := tracks.sent
  have new : t.network.drop r.cluster.network.length = sent := by
    rw [network, List.drop_left]
  refine ⟨fun n open_ => ?_, fun message member => ?_, fun n => ?_⟩
  · have quiet : heard n = false := by
      by_contra contact
      exact open_ (closes n (by simpa using contact))
    show (if heard n then r.clock else r.contact n) ≤ (if _ then r.clock else r.started n) ∨ _
    rw [new, quiet, if_neg Bool.false_ne_true]
    rcases opened n with closed | same | alone | ⟨message, member, src, preVote⟩
    · exact absurd closed open_
    · rcases inv.later n (same ▸ open_) with later | alone
      · refine .inl ?_
        split
        · exact inv.clock n
        · exact later
      · exact .inr alone
    · exact .inr alone
    · refine .inl ?_
      rw [if_pos (List.any_eq_true.mpr ⟨message, member, by simp [src, preVote]⟩)]
      exact inv.clock n
  · intro traffic
    have listed : message ∈ t.network := member
    rw [network, List.mem_append] at listed
    exact listed.elim (fun old => inv.apart message old traffic)
      fun sent => apart message sent traffic
  · show (if heard n then r.clock else r.contact n) ≤ r.clock + 1
    split
    · exact Nat.le_succ _
    · exact (inv.clock n).trans (Nat.le_succ _)

/-- A call that meets the first condition. -/
theorem RoundInv.call {r : Rounds ν} (inv : RoundInv C r) {event : Event ν}
    (single : event.isLifecycle = true) (met : SnapshotFindsNoRound C event r) :
    RoundInv C (r.call C event) := by
  refine inv.next (tracks_step single inv.apart).state fun n heard => ?_
  cases found : r.delivered event with
  | none =>
      rw [found] at heard
      cases heard
  | some message =>
      rw [found] at heard
      have contact : LeaderContact C n message r.cluster = true := heard
      obtain rfl : message.dst = n := by
        unfold LeaderContact at contact
        simp only [Bool.and_eq_true, decide_eq_true_eq] at contact
        exact contact.1.1.1
      cases event with
      | deliver delivery =>
          refine closes_contact found contact fun request payload own => ?_
          exact met message found request (by rw [payload]; rfl) contact own
      | _ => cases found

theorem roundInv_fresh : RoundInv C C.rounds := by
  have shuts : Shuts (Config.over (fun _ => {}) C.initialConfiguration {} fun _ => {}) C.fresh := by
    unfold Config.fresh startTimers
    generalize C.nodeIds = nodes
    generalize Config.over (fun _ => {}) C.initialConfiguration {} (fun _ : ν => {}) = start
    induction nodes generalizing start with
    | nil => exact .refl start
    | cons n rest ih => exact shuts_resetElectionTimeout.trans (ih _)
  refine ⟨fun n open_ => ?_, fun message member traffic => ?_, fun n => Nat.zero_le _⟩
  · exact absurd ((shuts.rounds n).elim id id) open_
  · obtain ⟨sent, network, other⟩ := shuts.sent
    rw [show C.rounds.cluster.network = sent from network] at member
    rw [other message member] at traffic
    cases traffic

theorem RoundRun.inv {condition : Event ν → Rounds ν → Prop} {r : Rounds ν}
    (run : RoundRun C condition r)
    (conditions : ∀ event r, condition event r → SnapshotFindsNoRound C event r) :
    RoundInv C r := by
  induction run with
  | fresh => exact roundInv_fresh
  | call before event single met ih => exact ih.call single (conditions _ _ met)
  | drive before t shuts ih => exact ih.next shuts.tracks fun _ heard => absurd heard (by simp)

/-! ## Elections -/

/-- A response makes its receiver stand for election in an open round of its
prospective term, and its sender is another node. -/
theorem round_of_callsStartElection {delivery : Delivery} {message : Message ν}
    {response : PreVoteResponse ν} (found : s.network[delivery.position]? = some message)
    (payload : message.payload = .preVoteResponse response)
    (calls : callsStartElection message.dst s (step C (.deliver delivery) s).state = true) :
    validEnvelope C message = true ∧
      s.openRound message.dst = some response.prospectiveTerm ∧
        MayCount C message.dst response s := by
  have silent : ∀ t : Cluster ν, t.trace = s.trace ∨ t.trace = s.trace ++ [.deliver message] →
      callsStartElection message.dst s t = false := by
    rintro t (same | delivers)
    · simp [callsStartElection, same]
    · simp [callsStartElection, delivers]
  have there : (s.elapse delivery.elapsed).network[delivery.position]? = some message := found
  by_cases alive : s.alive message.dst = true
  · by_cases valid : validEnvelope C message = true
    · obtain ⟨src, dst, sent, ordinal⟩ := message
      subst payload
      rw [step_deliver found alive valid] at calls
      exact ⟨valid, openRound_of_callsStartElection (s := (s.elapse delivery.elapsed).record _)
        rfl calls⟩
    · unfold step perform deliver at calls
      dsimp only [Event.node, Option.filter] at calls
      rw [there] at calls
      dsimp only at calls
      have live : (s.elapse delivery.elapsed).alive message.dst = true := alive
      rw [if_neg (by simp [live]), if_neg valid, Outcome.state_returns,
        silent _ (.inr rfl)] at calls
      cases calls
  · unfold step perform deliver at calls
    dsimp only [Event.node, Option.filter] at calls
    rw [there] at calls
    dsimp only at calls
    have stopped : ¬ (s.elapse delivery.elapsed).alive message.dst = true := alive
    rw [if_pos stopped, Outcome.state_returns, silent (s.elapse delivery.elapsed) (.inl rfl)]
      at calls
    cases calls

/-- **Elections follow contact.** In every run in which no snapshot of the node's own
term finds a round open, a response makes its receiver stand for election only in a
round that it opened after it last heard from a valid leader. -/
theorem election_after_contact {condition : Event ν → Rounds ν → Prop} {r : Rounds ν}
    (run : RoundRun C condition r)
    (conditions : ∀ event r, condition event r → SnapshotFindsNoRound C event r)
    {delivery : Delivery} {message : Message ν} {response : PreVoteResponse ν}
    (found : r.cluster.network[delivery.position]? = some message)
    (payload : message.payload = .preVoteResponse response)
    (calls : callsStartElection message.dst r.cluster
      (step C (.deliver delivery) r.cluster).state = true) :
    r.contact message.dst ≤ r.started message.dst := by
  have inv := run.inv conditions
  obtain ⟨valid, round, -⟩ := round_of_callsStartElection found payload calls
  rcases inv.later message.dst (by rw [round]; exact nofun) with later | alone
  · exact later
  · -- a node without peers gets no response
    have apart := inv.apart message (List.mem_of_getElem? found)
      (by rw [Message.isPreVoteTraffic, payload])
    have source : message.src ∈ C.nodeIds := by
      unfold validEnvelope at valid
      rw [payload] at valid
      obtain ⟨member, _, same⟩ := of_decide_eq_true valid
      exact same ▸ member
    have peer : message.src ∈ C.peers message.dst :=
      List.mem_filter.mpr ⟨source, by simpa using apart⟩
    rw [alone] at peer
    cases peer

/-- **Leader contact cancels a pre-vote round.** In every run that meets the two
conditions, a response that belongs to a round from before the last contact of its
receiver does not make the receiver stand for election. -/
theorem contact_cancels_round {r : Rounds ν} (run : RoundRun C (CancelsRounds C) r)
    (delivery : Delivery) (met : CancelsRounds C (.deliver delivery) r) {message : Message ν}
    {response : PreVoteResponse ν}
    (found : r.cluster.network[delivery.position]? = some message)
    (payload : message.payload = .preVoteResponse response)
    (earlier : r.deliveredRound (.deliver delivery) < r.contact message.dst) :
    callsStartElection message.dst r.cluster (step C (.deliver delivery) r.cluster).state =
      false := by
  by_contra calls
  rw [Bool.not_eq_false] at calls
  have later := election_after_contact run (fun _ _ met => met.1) found payload calls
  obtain ⟨-, round, counts⟩ := round_of_callsStartElection found payload calls
  exact met.2 message found response (by rw [payload]; rfl) earlier later counts round

/-! ## A round that survives a snapshot -/

/-- A run of calls. -/
def Rounds.calls (C : Config ν) (events : List (Event ν)) (r : Rounds ν) : Rounds ν :=
  events.foldl (fun r event => r.call C event) r

/-- Every call of the run meets the condition. -/
def Rounds.Meets (C : Config ν) (condition : Event ν → Rounds ν → Prop) :
    List (Event ν) → Rounds ν → Prop
  | [], _ => True
  | event :: rest, r => event.isLifecycle = true ∧ condition event r ∧
      Rounds.Meets C condition rest (r.call C event)

instance Rounds.Meets.decidable {condition : Event ν → Rounds ν → Prop}
    [∀ event r, Decidable (condition event r)] :
    ∀ (events : List (Event ν)) (r : Rounds ν), Decidable (Rounds.Meets C condition events r)
  | [], _ => instDecidableTrue
  | event :: rest, r =>
      have : Decidable (Rounds.Meets C condition rest (r.call C event)) :=
        Rounds.Meets.decidable rest _
      inferInstanceAs (Decidable (_ ∧ _ ∧ _))

theorem RoundRun.calls {condition : Event ν → Rounds ν → Prop} {r : Rounds ν}
    (run : RoundRun C condition r) {events : List (Event ν)}
    (meets : r.Meets C condition events) : RoundRun C condition (r.calls C events) := by
  induction events generalizing r with
  | nil => exact run
  | cons event rest ih => exact ih (run.call event meets.1 meets.2.1) meets.2.2

/-- Two nodes of fixed membership. -/
def couple : Config ℕ where
  nodeIds := [12, 13]
  nonempty := by decide
  nodup := by decide

/-- The first node leads; the second opens a round, hears from the leader and gets the
response of its round. -/
def heartbeatInRound : List (Event ℕ) :=
  [.startElection 12, .deliver ⟨0, 0⟩, .deliver ⟨1, 0⟩, .startPreVote 13, .deliver ⟨2, 0⟩,
    .sendAppendEntries 12 13 0 [] 0, .deliver ⟨4, 0⟩]

/-- The heartbeat cancels the round. -/
theorem heartbeat_cancels_round : callsStartElection 13
    (couple.rounds.calls couple heartbeatInRound).cluster
    (step couple (.deliver ⟨3, 0⟩) (couple.rounds.calls couple heartbeatInRound).cluster).state =
      false := by
  have run : RoundRun couple (CancelsRounds couple) (couple.rounds.calls couple heartbeatInRound) :=
    RoundRun.fresh.calls (by decide +kernel)
  have found : (couple.rounds.calls couple heartbeatInRound).cluster.network[3]? =
      some ⟨12, 13, .preVoteResponse ⟨1, 12, 2, true⟩, 2⟩ := by decide +kernel
  have earlier : (couple.rounds.calls couple heartbeatInRound).deliveredRound
      (.deliver ⟨3, 0⟩) < (couple.rounds.calls couple heartbeatInRound).contact 13 := by
    decide +kernel
  exact contact_cancels_round run ⟨3, 0⟩ (by decide +kernel) found rfl earlier

/-- The first node leads and has an entry of its own. -/
def coupleLeads : Rounds ℕ :=
  couple.rounds.calls couple [.startElection 12, .deliver ⟨0, 0⟩, .deliver ⟨1, 0⟩]

def coupleAppends : Rounds ℕ :=
  coupleLeads.next (appendCurrentTerm 12 (.operation (.put "key" "value"))
    coupleLeads.cluster).state coupleLeads.clock fun _ => false

def coupleReplicates : Rounds ℕ :=
  coupleAppends.calls couple
    [.sendAppendEntries 12 13 0 [⟨1, .operation (.put "key" "value")⟩] 1, .deliver ⟨2, 0⟩]

/-- The second node applies the entry and has a snapshot. -/
def coupleApplies : Rounds ℕ :=
  coupleReplicates.next (kvApplyCommitted 13 coupleReplicates.cluster).state
    coupleReplicates.clock fun _ => false

def coupleSnapshots : Rounds ℕ :=
  coupleApplies.next (createSnapshot couple 13 coupleApplies.cluster).state
    coupleApplies.clock fun _ => false

/-- The second node leads in the next term. The first one opens a round, installs the
snapshot of the leader, and has the response of its round in the network. -/
def snapshotInRound : Rounds ℕ :=
  coupleSnapshots.calls couple
    [.startElection 13, .deliver ⟨4, 0⟩, .deliver ⟨5, 0⟩, .startPreVote 12, .deliver ⟨6, 0⟩,
      .sendInstallSnapshot 13 12 2 ⟨1, 1, [("key", "value")], [], none⟩ 1, .deliver ⟨8, 0⟩]

theorem snapshotInRound_run : RoundRun couple (fun _ _ => True) snapshotInRound := by
  have leads : RoundRun couple (fun _ _ => True) coupleLeads :=
    RoundRun.fresh.calls (by decide +kernel)
  have appends : RoundRun couple (fun _ _ => True) coupleAppends := leads.drive _ (.of_same rfl rfl)
  have replicates : RoundRun couple (fun _ _ => True) coupleReplicates :=
    appends.calls (by decide +kernel)
  have applies : RoundRun couple (fun _ _ => True) coupleApplies :=
    replicates.drive _ (.of_same rfl rfl)
  have snapshots : RoundRun couple (fun _ _ => True) coupleSnapshots :=
    applies.drive _ (.of_same rfl rfl)
  exact snapshots.calls (by decide +kernel)

/-- The snapshot does not cancel the round: the response, which belongs to a round from
before the contact, makes the node stand for election. -/
theorem snapshot_leaves_round : ∃ r : Rounds ℕ, RoundRun couple (fun _ _ => True) r ∧
    r.cluster.network[7]? = some ⟨13, 12, .preVoteResponse ⟨2, 13, 3, true⟩, 4⟩ ∧
      r.deliveredRound (.deliver ⟨7, 0⟩) < r.contact 12 ∧
        callsStartElection 12 r.cluster (step couple (.deliver ⟨7, 0⟩) r.cluster).state = true :=
  ⟨snapshotInRound, snapshotInRound_run, by decide +kernel, by decide +kernel, by decide +kernel⟩

end Distlab.Raft
