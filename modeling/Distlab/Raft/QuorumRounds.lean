import Distlab.Raft.ElectionSafety
import Distlab.Raft.LeaderLiveness

/-!
# What the evidence of a round is worth

A round ends with evidence only if a quorum of the active voters handled an
`AppendEntries` of the leader, of the leader's term, while the round ran: the trace
shows that each of them did, after the round began. Earlier responses are no
evidence, however late they arrive. A round that finds no quorum, or another
configuration, leaves a node that does not lead in the monitored term.
-/

set_option autoImplicit false

namespace Distlab.Raft

open Foundations

variable {ν : Type} [LinearOrder ν] {C : Config ν}

/-! ## Requests that were handled -/

/-- The network has an `AppendEntries` of a leader of a term to a follower. -/
def Asked (C : Config ν) (leader follower : ν) (term : ℕ) (s : Cluster ν) : Prop :=
  ∃ message request, Arrived C s message ∧ message.dst = follower ∧
    message.payload = .appendEntries request ∧ request.leaderId = leader ∧ request.term = term

/-- From a position of the trace on, a follower handled an `AppendEntries` of a leader of
a term. -/
def HandledSince (C : Config ν) (start : ℕ) (leader follower : ν) (term : ℕ) (s : Cluster ν) :
    Prop :=
  Asked C leader follower term s ∧
    ∃ index prevLogIndex entryCount success matchIndex, start ≤ index ∧
      s.trace[index]? =
        some (.appendEntries follower leader term prevLogIndex entryCount success matchIndex)

section Moves

variable {U : Licence ν} {s s' : Cluster ν}

theorem Asked.after {leader follower : ν} {term : ℕ} (asked : Asked C leader follower term s)
    (moves : Moves C U s s') : Asked C leader follower term s' := by
  obtain ⟨message, request, arrived, facts⟩ := asked
  exact ⟨message, request, arrived.after moves, facts⟩

theorem HandledSince.after {start : ℕ} {leader follower : ν} {term : ℕ}
    (handled : HandledSince C start leader follower term s) (moves : Moves C U s s') :
    HandledSince C start leader follower term s' := by
  obtain ⟨asked, index, prevLogIndex, entryCount, success, matchIndex, later, recorded⟩ := handled
  refine ⟨asked.after moves, index, prevLogIndex, entryCount, success, matchIndex, later, ?_⟩
  obtain ⟨more, grown⟩ := moves.trace_prefix
  rw [← grown, List.getElem?_append_left (List.getElem?_eq_some_iff.mp recorded).1]
  exact recorded

/-- A move adds at most one record, that of an `AppendEntries` only where it was sent. -/
theorem Move.trace_cases (move : Move C U s s') : s'.trace = s.trace ∨
    ∃ entry, s'.trace = s.trace ++ [entry] ∧
      ∀ follower leader term prevLogIndex entryCount success matchIndex,
        entry = .appendEntries follower leader term prevLogIndex entryCount success matchIndex →
          Asked C leader follower term s := by
  cases move with
  | housekeeping same =>
      have trace : (core s').trace = (core s).trace := by rw [same]
      exact .inl trace
  | advanceTerm | stand | grant | lead | send =>
      exact .inr ⟨_, rfl, fun _ _ _ _ _ _ _ same => by cases same⟩
  | record entry recordable =>
      refine .inr ⟨entry, rfl, fun follower leader term prevLogIndex entryCount success matchIndex
        same => ?_⟩
      subst same
      obtain ⟨message, request, arrived, dst, payload, own, current, -⟩ := recordable
      exact ⟨message, request, arrived, dst, payload, own, current⟩
  | _ => exact .inl rfl

/-- **What was handled was sent.** A record that the moves added is that of a request in
the network. -/
theorem Moves.asked {leader follower : ν} {term : ℕ} (moves : Moves C U s s')
    {index prevLogIndex entryCount matchIndex : ℕ} {success : Bool}
    (later : s.trace.length ≤ index)
    (recorded : s'.trace[index]? =
      some (.appendEntries follower leader term prevLogIndex entryCount success matchIndex)) :
    Asked C leader follower term s' := by
  induction moves with
  | refl =>
      have within := (List.getElem?_eq_some_iff.mp recorded).1
      omega
  | tail before move ih =>
      refine Asked.after ?_ (.one move)
      obtain same | ⟨entry, grown, only⟩ := move.trace_cases
      · exact ih (same ▸ recorded)
      rw [grown] at recorded
      rcases lt_or_ge index (List.length _) with earlier | last
      · rw [List.getElem?_append_left earlier] at recorded
        exact ih recorded
      · rw [List.getElem?_append_right last] at recorded
        exact only _ _ _ _ _ _ _ (List.mem_singleton.mp (List.mem_of_getElem? recorded)).symm

end Moves

/-! ## Probes -/

/-- The evidence of a probe shows that its peer handled it, or one like it. -/
theorem recorded_of_matchingAppendResponse {r : LeaderReplicator ν} {probe : AppendProbe ν}
    {records : List (TraceRecord ν)} (found : (matchingAppendResponse r probe records).isSome) :
    ∃ index prevLogIndex entryCount success matchIndex, probe.traceStart ≤ index ∧
      records[index]? =
        some (.appendEntries probe.peer r.leader r.term prevLogIndex entryCount success
          matchIndex) := by
  obtain ⟨answer, found⟩ := Option.isSome_iff_exists.mp found
  obtain ⟨position, _, answers⟩ := List.exists_of_findSome?_eq_some found
  unfold appendResponseAt at answers
  split at answers
  · next leader follower term success matchIndex _ =>
    split at answers
    · next checks =>
      have observed := checks.2.2.2.2.2
      unfold appendProbeObserved at observed
      obtain ⟨index, within, same⟩ := List.getElem_of_mem (List.contains_iff_mem.mp observed)
      refine ⟨probe.traceStart + index, probe.prevLogIndex, probe.entryCount, success, matchIndex,
        Nat.le_add_right _ _, ?_⟩
      rw [← List.getElem?_drop]
      exact List.getElem?_eq_some_iff.mpr ⟨within, same⟩
    · cases answers
  · cases answers

section Rounds

variable {i : ℕ} {r : LeaderReplicator ν} {s s' : Cluster ν}

/-- The cluster still has the monitored replicator. -/
def Monitors (i : ℕ) (r : LeaderReplicator ν) (s : Cluster ν) : Prop :=
  ∃ r', s.replicators[i]? = some r' ∧ r'.leader = r.leader ∧ r'.term = r.term

/-- The moves that a round may make. -/
abbrev RoundMoves (C : Config ν) : Cluster ν → Cluster ν → Prop := Moves C .unrestricted

omit [LinearOrder ν] in
theorem Monitors.monitored (monitors : Monitors i r s) :
    s.replicators[i]? = some (monitored i r s) ∧ (monitored i r s).leader = r.leader ∧
      (monitored i r s).term = r.term := by
  obtain ⟨r', found, leader, term⟩ := monitors
  rw [Raft.monitored, found]
  exact ⟨rfl, leader, term⟩

theorem Monitors.after (monitors : Monitors i r s) (moves : RoundMoves C s s') :
    Monitors i r s' := by
  obtain ⟨r', found, leader, term⟩ := monitors
  obtain ⟨r'', found', leader', term', -⟩ := moves.replicator found
  exact ⟨r'', found', leader'.trans leader, term'.trans term⟩

theorem moves_runWindow {window : List (Event ν)} (continues : ∀ event ∈ window, event.Continues) :
    RoundMoves C s (runWindow C window s).state := by
  have runs : (runWindow C window s).Ensures (RoundMoves C s) fun _ _ => True := by
    refine Outcome.ensures_forEach (fun event member t moves => ?_) s (.refl s)
    have step : Runs C .unrestricted t (step C event t) :=
      runs_step (continues event member) (.inl trivial)
        (Event.allowed_of_proposes fun _ _ => trivial)
    exact step.mono (fun _ more => moves.trans more) fun _ _ _ => trivial
  exact runs.state

theorem beginActivityProbe_returns {probe : AppendProbe ν} {peer : ν}
    (returned : beginActivityProbe C r peer s = .returns probe s') :
    probe.peer = peer ∧ probe.traceStart = s.trace.length := by
  unfold beginActivityProbe at returned
  split at returned
  · cases returned
  obtain ⟨_, s₁, required, rest⟩ := Outcome.bind_eq_returns.mp returned
  obtain ⟨rfl, -⟩ := requireCurrentLeader_returns required
  obtain ⟨_, s₂, _, same⟩ := Outcome.bind_eq_returns.mp rest
  cases same
  exact ⟨rfl, rfl⟩

theorem finishActivityProbe_returns {probe : AppendProbe ν} {active : Bool}
    (returned : finishActivityProbe C r probe s = .returns active s') :
    s' = s ∧ s.alive r.leader = true ∧ r.Current s ∧
      (active = true → (matchingAppendResponse r probe s.trace).isSome) := by
  unfold finishActivityProbe at returned
  split at returned
  · cases returned
  obtain ⟨_, s₁, required, same⟩ := Outcome.bind_eq_returns.mp returned
  unfold requireCurrentLeader at required
  split at required
  · cases required
  next current =>
    cases required
    cases same
    simp only [not_or, not_not] at current
    exact ⟨rfl, current.1, current.2, id⟩

omit [LinearOrder ν] in
theorem unguarded_returns {β : Type} {call : Op ν β} {b : β}
    (returned : unguarded call = .returns b s') : call = .returns b s' := by
  cases call with
  | returns =>
      cases returned
      rfl
  | raises => cases returned

omit [LinearOrder ν] in
theorem replicatorCall_returns {β : Type} {call : Op ν β} {b : β}
    (returned : replicatorCall call = .returns b s') : call = .returns b s' := by
  cases call with
  | returns =>
      cases returned
      rfl
  | raises error s =>
      rw [replicatorCall] at returned
      split at returned <;> cases returned

/-- The node is the live leader of the monitored term. -/
def LeaderReplicator.Leads (r : LeaderReplicator ν) (s : Cluster ν) : Prop :=
  s.alive r.leader = true ∧ r.Current s

omit [LinearOrder ν] in
theorem requireMonitoredLeader_returns (returned : requireMonitoredLeader r s = .returns () s') :
    s' = s ∧ r.Leads s := by
  unfold requireMonitoredLeader at returned
  split at returned
  · cases returned
  next current =>
    cases returned
    simp only [not_or, not_not] at current
    exact ⟨rfl, current⟩

variable {began : RoundConfiguration ν}

theorem retireAndRaise_ne_returns {β : Type} {error : LivenessError ν} {b : β} :
    retireAndRaise C error r s ≠ .returns b s' := by
  intro returned
  obtain ⟨_, _, _, raised⟩ := Outcome.bind_eq_returns.mp returned
  cases raised

theorem requireSameConfiguration_returns
    (returned : requireSameConfiguration C began r s = .returns () s') :
    s' = s ∧ sameConfiguration C began s = true := by
  unfold requireSameConfiguration at returned
  split at returned
  · next same =>
    cases returned
    exact ⟨rfl, same⟩
  · split at returned
    · exact absurd returned retireAndRaise_ne_returns
    · cases returned

theorem requireWindowConfiguration_returns
    (returned : requireWindowConfiguration C began r s = .returns () s') :
    s' = s ∧ sameConfiguration C began s = true := by
  unfold requireWindowConfiguration at returned
  split at returned
  · next same =>
    cases returned
    exact ⟨rfl, same⟩
  · exact absurd returned retireAndRaise_ne_returns

theorem requireVoter_returns (returned : requireVoter C began r s = .returns () s') :
    s' = s ∧ r.leader ∈ began.activeVoters C := by
  unfold requireVoter at returned
  split at returned
  · exact absurd returned retireAndRaise_ne_returns
  · next voter =>
    cases returned
    exact ⟨rfl, not_not.mp voter⟩

/-- **A probe that was answered.** Its peer handled a request after the probe was sent. -/
theorem probeActivity_returns {peer : ν} {window : List (Event ν)} {active : Bool}
    (monitors : Monitors i r s) (continues : ∀ event ∈ window, event.Continues)
    (returned : probeActivity C i r peer window s = .returns active s') :
    RoundMoves C s s' ∧
      (active = true → HandledSince C s.trace.length r.leader peer r.term s') := by
  obtain ⟨probe, s₁, began, rest⟩ := Outcome.bind_eq_returns.mp returned
  obtain ⟨_, s₂, ran, finished⟩ := Outcome.bind_eq_returns.mp rest
  obtain ⟨found, leader, term⟩ := monitors.monitored
  have sent : RoundMoves C s s₁ := by
    have runs : Runs C .unrestricted s (beginActivityProbe C (monitored i r s) peer s) :=
      runs_beginActivityProbe found
    rwa [began] at runs
  have waited : RoundMoves C s₁ s₂ := by
    have moves := moves_runWindow (C := C) (s := s₁) continues
    rwa [ran] at moves
  obtain ⟨rfl, start⟩ := beginActivityProbe_returns began
  obtain ⟨rfl, -, -, answered⟩ := finishActivityProbe_returns finished
  refine ⟨sent.trans waited, fun active => ?_⟩
  obtain ⟨-, leader', term'⟩ := (monitors.after (sent.trans waited)).monitored
  obtain ⟨index, prevLogIndex, entryCount, success, matchIndex, later, recorded⟩ :=
    recorded_of_matchingAppendResponse (answered active)
  rw [leader', term'] at recorded
  rw [start] at later
  exact ⟨(sent.trans waited).asked later recorded, index, prevLogIndex, entryCount, success,
    matchIndex, later, recorded⟩

/-- What a round has acknowledged when it reaches a state. -/
structure Acknowledges (C : Config ν) (start : ℕ) (i : ℕ) (r : LeaderReplicator ν)
    (peers : List ν) (s : Cluster ν) : Prop where
  monitors : Monitors i r s
  began : start ≤ s.trace.length
  handled : ∀ peer ∈ peers, HandledSince C start r.leader peer r.term s

variable {start : ℕ} {peers : List ν}

theorem HandledSince.weaken {earlier later : ℕ} {leader follower : ν} {term : ℕ}
    (handled : HandledSince C later leader follower term s) (before : earlier ≤ later) :
    HandledSince C earlier leader follower term s := by
  obtain ⟨asked, index, prevLogIndex, entryCount, success, matchIndex, beyond, recorded⟩ := handled
  exact ⟨asked, index, prevLogIndex, entryCount, success, matchIndex, before.trans beyond, recorded⟩

theorem Acknowledges.after (acknowledges : Acknowledges C start i r peers s)
    (moves : RoundMoves C s s') : Acknowledges C start i r peers s' where
  monitors := acknowledges.monitors.after moves
  began := acknowledges.began.trans moves.trace_prefix.length_le
  handled peer member := (acknowledges.handled peer member).after moves

theorem Acknowledges.append (acknowledges : Acknowledges C start i r peers s) {peer : ν}
    (handled : HandledSince C start r.leader peer r.term s) :
    Acknowledges C start i r (peers ++ [peer]) s where
  monitors := acknowledges.monitors
  began := acknowledges.began
  handled other member := (List.mem_append.mp member).elim (acknowledges.handled other) fun last =>
    List.mem_singleton.mp last ▸ handled

/-! ## `check` -/

theorem probePeer_returns {peer : ν} {windows : ℕ → List (Event ν)} {attempts : ℕ} {active : Bool}
    (continues : ∀ attempt, ∀ event ∈ windows attempt, event.Continues)
    (acknowledges : Acknowledges C start i r peers s)
    (returned : probePeer C began i r peer windows attempts s = .returns active s') :
    Acknowledges C start i r peers s' ∧
      (active = true → HandledSince C start r.leader peer r.term s') := by
  induction attempts generalizing s with
  | zero =>
      cases returned
      exact ⟨acknowledges, fun active => absurd active Bool.false_ne_true⟩
  | succ attempts ih =>
      obtain ⟨_, s₁, led, checks⟩ := Outcome.bind_eq_returns.mp returned
      obtain ⟨rfl, -⟩ := requireMonitoredLeader_returns led
      obtain ⟨_, s₂, same, probes⟩ := Outcome.bind_eq_returns.mp checks
      obtain ⟨rfl, -⟩ := requireSameConfiguration_returns same
      obtain ⟨answered, s₃, probed, ends⟩ := Outcome.bind_eq_returns.mp probes
      obtain ⟨moves, handled⟩ := probeActivity_returns acknowledges.monitors (continues attempts)
        (replicatorCall_returns probed)
      split at ends
      · next success =>
        obtain ⟨_, s₄, same, last⟩ := Outcome.bind_eq_returns.mp ends
        obtain ⟨rfl, -⟩ := requireSameConfiguration_returns same
        cases last
        exact ⟨acknowledges.after moves,
          fun _ => (handled success).weaken acknowledges.began⟩
      · exact ih (acknowledges.after moves) ends

theorem probePeers_returns {attempts : ℕ} {windows : ν → ℕ → List (Event ν)}
    {probed acknowledgedPeers : List ν}
    (continues : ∀ peer attempt, ∀ event ∈ windows peer attempt, event.Continues)
    (acknowledges : Acknowledges C start i r peers s)
    (returned : probePeers C began i r attempts windows probed peers s =
      .returns acknowledgedPeers s') :
    Acknowledges C start i r acknowledgedPeers s' ∧
      ∀ peer ∈ acknowledgedPeers, peer ∈ peers ∨ peer ∈ probed := by
  induction probed generalizing peers s with
  | nil =>
      cases returned
      exact ⟨acknowledges, fun _ => .inl⟩
  | cons peer rest ih =>
      obtain ⟨_, s₁, same, checks⟩ := Outcome.bind_eq_returns.mp returned
      obtain ⟨rfl, -⟩ := requireSameConfiguration_returns same
      split at checks
      · cases checks
        exact ⟨acknowledges, fun _ => .inl⟩
      obtain ⟨active, s₂, probed, others⟩ := Outcome.bind_eq_returns.mp checks
      obtain ⟨acknowledges', handled⟩ := probePeer_returns (continues peer) acknowledges probed
      split at others
      · next success =>
        obtain ⟨after, known⟩ := ih (acknowledges'.append (handled success)) others
        refine ⟨after, fun other member => ?_⟩
        rcases known other member with listed | later
        · rw [List.mem_append, List.mem_singleton] at listed
          exact listed.imp_right fun same => by
            rw [same]
            exact List.mem_cons_self
        · exact .inr (List.mem_cons_of_mem _ later)
      · obtain ⟨after, known⟩ := ih acknowledges' others
        exact ⟨after, fun other member => (known other member).imp_right (List.mem_cons_of_mem _)⟩

/-! ## `check_window` -/

/-- The probes of a window were sent after it began. -/
theorem beginProbes_returns {probed : List ν} {probes : List (AppendProbe ν)}
    (acknowledges : Acknowledges C start i r peers s)
    (returned : beginProbes C i r probed s = .returns probes s') :
    RoundMoves C s s' ∧ ∀ probe ∈ probes, start ≤ probe.traceStart ∧ probe.peer ∈ probed := by
  induction probed generalizing s probes with
  | nil =>
      cases returned
      exact ⟨.refl _, fun _ member => absurd member List.not_mem_nil⟩
  | cons peer rest ih =>
      obtain ⟨probe, s₁, began, next⟩ := Outcome.bind_eq_returns.mp returned
      obtain ⟨others, s₂, more, same⟩ := Outcome.bind_eq_returns.mp next
      cases same
      have begins := replicatorCall_returns began
      have sent : RoundMoves C s s₁ := by
        have runs : Runs C .unrestricted s (beginActivityProbe C (monitored i r s) peer s) :=
          runs_beginActivityProbe acknowledges.monitors.monitored.1
        rwa [begins] at runs
      obtain ⟨moves, later⟩ := ih (acknowledges.after sent) more
      refine ⟨sent.trans moves, fun probe' member => ?_⟩
      obtain ⟨own, first⟩ := beginActivityProbe_returns begins
      rcases List.mem_cons.mp member with same | member
      · rw [same, own, first]
        exact ⟨acknowledges.began, List.mem_cons_self⟩
      · exact (later probe' member).imp_right (List.mem_cons_of_mem _)

/-- A window acknowledges the peers of the probes that were answered. -/
theorem finishProbes_returns {before : Cluster ν} {probes : List (AppendProbe ν)}
    {probed acknowledgedPeers : List ν} (moves : RoundMoves C before s) (monitors : Monitors i r s)
    (sent : ∀ probe ∈ probes, before.trace.length ≤ probe.traceStart ∧ probe.peer ∈ probed)
    (returned : finishProbes C i r probes s = .returns acknowledgedPeers s') :
    s' = s ∧ ∀ peer ∈ acknowledgedPeers,
      HandledSince C before.trace.length r.leader peer r.term s ∧ peer ∈ probed := by
  induction probes generalizing acknowledgedPeers s' with
  | nil =>
      cases returned
      exact ⟨rfl, fun _ member => absurd member List.not_mem_nil⟩
  | cons probe rest ih =>
      obtain ⟨active, s₁, finished, next⟩ := Outcome.bind_eq_returns.mp returned
      obtain ⟨rfl, -, -, answered⟩ := finishActivityProbe_returns (replicatorCall_returns finished)
      obtain ⟨others, s₂, more, same⟩ := Outcome.bind_eq_returns.mp next
      cases same
      obtain ⟨rfl, handled⟩ :=
        ih (fun probe member => sent probe (List.mem_cons_of_mem _ member)) more
      refine ⟨rfl, fun peer member => ?_⟩
      split at member
      · next success =>
        rcases List.mem_cons.mp member with rfl | member
        · obtain ⟨-, leader, term⟩ := monitors.monitored
          obtain ⟨index, prevLogIndex, entryCount, ok, matchIndex, later, recorded⟩ :=
            recorded_of_matchingAppendResponse (answered success)
          rw [leader, term] at recorded
          obtain ⟨after, known⟩ := sent probe List.mem_cons_self
          have since : before.trace.length ≤ index := after.trans later
          exact ⟨⟨moves.asked since recorded, index, prevLogIndex, entryCount, ok, matchIndex,
            since, recorded⟩, known⟩
        · exact handled peer member
      · exact handled peer member

/-! ## Evidence -/

/-- What the evidence of a round is worth, in the state it ends in. -/
structure Confirmed (C : Config ν) (r : LeaderReplicator ν) (s s' : Cluster ν)
    (evidence : LeaderQuorumEvidence ν) : Prop where
  leader : evidence.leader = r.leader
  term : evidence.term = r.term
  leads : r.Leads s'
  configuration : sameConfiguration C (roundConfiguration s) s' = true
  /-- The acknowledged voters are active voters. -/
  active : ∀ voter ∈ evidence.acknowledgedVoters, voter ∈ (roundConfiguration s).activeVoters C
  /-- They are a quorum: of the nodes, or of the voters of each configuration. -/
  quorum : (roundConfiguration s).hasQuorum C evidence.acknowledgedVoters.toFinset = true
  /-- Each of them but the leader handled a request of the leader's term since. -/
  handled : ∀ voter ∈ evidence.acknowledgedVoters, voter = r.leader ∨
    HandledSince C s.trace.length r.leader voter r.term s'

theorem concludeRound_returns {evidence : LeaderQuorumEvidence ν}
    (returned : concludeRound C began r peers s = .returns evidence s') :
    s' = s ∧ evidence.leader = r.leader ∧ evidence.term = r.term ∧
      evidence.acknowledgedVoters =
        (insert r.leader peers.toFinset ∩ began.activeVoters C).sort (· ≤ ·) ∧
      began.hasQuorum C (insert r.leader peers.toFinset) = true := by
  unfold concludeRound at returned
  dsimp only at returned
  split at returned
  · exact absurd returned retireAndRaise_ne_returns
  · next quorum =>
    cases returned
    exact ⟨rfl, rfl, rfl, rfl, not_not.mp quorum⟩

theorem mem_probed {peer : ν} (probed : peer ∈ began.probed C r) :
    peer ∈ began.activeVoters C := by
  unfold RoundConfiguration.probed ascending at probed
  rw [List.mem_insertionSort, List.mem_filter, decide_eq_true_eq, Finset.mem_sdiff] at probed
  exact probed.2.1

/-- A round that concludes with evidence confirms it. -/
theorem confirmed_of_conclude {evidence : LeaderQuorumEvidence ν} {t : Cluster ν}
    (leads : r.Leads t) (same : sameConfiguration C (roundConfiguration s) t = true)
    (voter : r.leader ∈ (roundConfiguration s).activeVoters C)
    (handled : ∀ peer ∈ peers, HandledSince C s.trace.length r.leader peer r.term t)
    (known : ∀ peer ∈ peers, peer ∈ (roundConfiguration s).probed C r)
    (returned : concludeRound C (roundConfiguration s) r peers t = .returns evidence s') :
    Confirmed C r s s' evidence := by
  obtain ⟨rfl, leader, term, voters, quorum⟩ := concludeRound_returns returned
  have active : insert r.leader peers.toFinset ∩ (roundConfiguration s).activeVoters C =
      insert r.leader peers.toFinset := by
    refine Finset.inter_eq_left.mpr fun n member => ?_
    rcases Finset.mem_insert.mp member with rfl | member
    · exact voter
    · exact mem_probed (known n (List.mem_toFinset.mp member))
  rw [active] at voters
  refine ⟨leader, term, leads, same, fun n member => ?_, ?_, fun n member => ?_⟩
  · rw [voters, Finset.mem_sort, ← active] at member
    exact (Finset.mem_inter.mp member).2
  · rw [voters, Finset.sort_toFinset]
    exact quorum
  · rw [voters, Finset.mem_sort] at member
    exact (Finset.mem_insert.mp member).imp_right fun member =>
      handled n (List.mem_toFinset.mp member)

theorem confirmed_checkQuorum {maxAttempts : ℕ} {windows : ν → ℕ → List (Event ν)}
    {evidence : LeaderQuorumEvidence ν} (monitors : Monitors i r s)
    (continues : ∀ peer attempt, ∀ event ∈ windows peer attempt, event.Continues)
    (returned : checkQuorum C i r maxAttempts windows s = .returns evidence s') :
    Confirmed C r s s' evidence := by
  unfold checkQuorum at returned
  split at returned
  · cases returned
  obtain ⟨_, s₁, led, votes⟩ := Outcome.bind_eq_returns.mp returned
  obtain ⟨rfl, -⟩ := requireMonitoredLeader_returns led
  obtain ⟨_, s₂, votes, probes⟩ := Outcome.bind_eq_returns.mp votes
  obtain ⟨rfl, voter⟩ := requireVoter_returns votes
  obtain ⟨peers, s₃, probed, leads⟩ := Outcome.bind_eq_returns.mp probes
  obtain ⟨acknowledges, known⟩ := probePeers_returns continues
    (⟨monitors, le_rfl, fun _ member => absurd member List.not_mem_nil⟩ :
      Acknowledges C s₂.trace.length i r [] s₂) probed
  obtain ⟨_, s₄, led', configured⟩ := Outcome.bind_eq_returns.mp leads
  obtain ⟨rfl, leads'⟩ := requireMonitoredLeader_returns led'
  obtain ⟨_, s₅, same, concluded⟩ := Outcome.bind_eq_returns.mp configured
  obtain ⟨rfl, same'⟩ := requireSameConfiguration_returns same
  exact confirmed_of_conclude leads' same' voter acknowledges.handled
    (fun peer member => (known peer member).resolve_left List.not_mem_nil) concluded

theorem confirmed_checkQuorumWindow {responseTimeout : ℕ} {window : List (Event ν)}
    {evidence : LeaderQuorumEvidence ν} (monitors : Monitors i r s)
    (continues : ∀ event ∈ window, event.Continues)
    (returned : checkQuorumWindow C i r responseTimeout window s = .returns evidence s') :
    Confirmed C r s s' evidence := by
  unfold checkQuorumWindow at returned
  split at returned
  · cases returned
  obtain ⟨_, s₁, led, votes⟩ := Outcome.bind_eq_returns.mp returned
  obtain ⟨rfl, -⟩ := requireMonitoredLeader_returns led
  obtain ⟨_, s₂, votes, probes⟩ := Outcome.bind_eq_returns.mp votes
  obtain ⟨rfl, voter⟩ := requireVoter_returns votes
  obtain ⟨probes, s₃, begun, waits⟩ := Outcome.bind_eq_returns.mp probes
  obtain ⟨sent, later⟩ := beginProbes_returns
    (⟨monitors, le_rfl, fun _ member => absurd member List.not_mem_nil⟩ :
      Acknowledges C s₂.trace.length i r [] s₂) begun
  obtain ⟨_, s₄, ran, leads⟩ := Outcome.bind_eq_returns.mp waits
  have waited : RoundMoves C s₃ s₄ := by
    have moves := moves_runWindow (C := C) (s := s₃) continues
    rwa [unguarded_returns ran] at moves
  obtain ⟨_, s₅, led', configured⟩ := Outcome.bind_eq_returns.mp leads
  obtain ⟨rfl, leads'⟩ := requireMonitoredLeader_returns led'
  obtain ⟨_, s₆, same, finishes⟩ := Outcome.bind_eq_returns.mp configured
  obtain ⟨rfl, -⟩ := requireWindowConfiguration_returns same
  obtain ⟨peers, s₇, finished, configured'⟩ := Outcome.bind_eq_returns.mp finishes
  have moves : RoundMoves C s₂ (s₄.elapse (s₃.time + responseTimeout - s₄.time)) :=
    (sent.trans waited).trans (.same rfl)
  obtain ⟨rfl, handled⟩ := finishProbes_returns moves (monitors.after moves) later finished
  obtain ⟨_, s₈, same', concluded⟩ := Outcome.bind_eq_returns.mp configured'
  obtain ⟨rfl, same''⟩ := requireWindowConfiguration_returns same'
  exact confirmed_of_conclude leads' same'' voter (fun peer member => (handled peer member).1)
    (fun peer member => (handled peer member).2) concluded

/-! ## Retired leaders -/

/-- After these errors the node does not lead in the monitored term. -/
def Retires (r : LeaderReplicator ν) (error : LivenessError ν) (s : Cluster ν) : Prop :=
  error = .quorumUnavailable ∨ error = .membershipChanged → ¬ r.Current s

/-- The round retires the leader where its error says so. -/
abbrev Retiring {β : Type} (r : LeaderReplicator ν) (round : Round ν β) : Prop :=
  round.Ensures (fun _ => True) (Retires r)

omit [LinearOrder ν] in
theorem Retiring.bind {β γ : Type} {round : Round ν β} {next : β → Cluster ν → Round ν γ}
    (first : Retiring r round) (rest : ∀ b s, Retiring r (next b s)) :
    Retiring r (round.bind next) :=
  Outcome.Ensures.bind first (fun b s _ _ => rest b s) fun _ => id

omit [LinearOrder ν] in
theorem retiring_unguarded {β : Type} (call : Op ν β) : Retiring r (unguarded call) := by
  cases call with
  | returns => trivial
  | raises => exact ⟨trivial, fun named => by rcases named with same | same <;> cases same⟩

omit [LinearOrder ν] in
theorem retiring_replicatorCall {β : Type} (call : Op ν β) : Retiring r (replicatorCall call) := by
  cases call with
  | returns => trivial
  | raises error s =>
      rw [replicatorCall]
      split <;> exact ⟨trivial, fun named => by rcases named with same | same <;> cases same⟩

omit [LinearOrder ν] in
theorem retiring_requireMonitoredLeader : Retiring r (requireMonitoredLeader r s) := by
  unfold requireMonitoredLeader
  split
  · exact ⟨trivial, fun named => by rcases named with same | same <;> cases same⟩
  · trivial

/-- A leader that steps down leads no more. -/
theorem stepDown_returns {n : ν} {stepped : Bool}
    (returned : stepDown C n s = .returns stepped s') :
    s'.role n ≠ .leader := by
  unfold stepDown at returned
  split at returned
  · cases returned
  split at returned
  · next other =>
    cases returned
    exact other
  · cases returned
    intro leads
    rw [role_resetElectionTimeout_of_follower] at leads
    · cases leads
    · rw [Cluster.role, volatile_notifyLeaderRetired]
      simp [clearPreVote, retire, Cluster.updateVolatile]

theorem retiring_retireAndRaise {β : Type} (error : LivenessError ν) :
    Retiring r (retireAndRaise C error r s : Round ν β) := by
  unfold retireAndRaise
  cases stepped : stepDown C r.leader s with
  | returns b t => exact ⟨trivial, fun _ current => stepDown_returns stepped current.1⟩
  | raises error t => exact ⟨trivial, fun named => by rcases named with same | same <;> cases same⟩

theorem retiring_requireSameConfiguration : Retiring r (requireSameConfiguration C began r s) := by
  unfold requireSameConfiguration
  split
  · trivial
  split
  · exact retiring_retireAndRaise _
  · next retired => exact ⟨trivial, fun _ => retired⟩

theorem retiring_requireWindowConfiguration :
    Retiring r (requireWindowConfiguration C began r s) := by
  unfold requireWindowConfiguration
  split
  · trivial
  · exact retiring_retireAndRaise _

theorem retiring_requireVoter : Retiring r (requireVoter C began r s) := by
  unfold requireVoter
  split
  · exact retiring_retireAndRaise _
  · trivial

theorem retiring_probePeer {peer : ν} {windows : ℕ → List (Event ν)} (attempts : ℕ)
    (s : Cluster ν) : Retiring r (probePeer C began i r peer windows attempts s) := by
  induction attempts generalizing s with
  | zero => trivial
  | succ attempts ih =>
      rw [probePeer]
      refine retiring_requireMonitoredLeader.bind fun _ s => ?_
      refine retiring_requireSameConfiguration.bind fun _ s => ?_
      refine (retiring_replicatorCall _).bind fun active s => ?_
      split
      · exact retiring_requireSameConfiguration.bind fun _ s => trivial
      · exact ih s

theorem retiring_probePeers {attempts : ℕ} {windows : ν → ℕ → List (Event ν)} (probed : List ν)
    (peers : List ν) (s : Cluster ν) :
    Retiring r (probePeers C began i r attempts windows probed peers s) := by
  induction probed generalizing peers s with
  | nil => trivial
  | cons peer rest ih =>
      rw [probePeers]
      refine retiring_requireSameConfiguration.bind fun _ s => ?_
      split
      · trivial
      · exact (retiring_probePeer attempts s).bind fun active s => ih _ s

theorem retiring_concludeRound : Retiring r (concludeRound C began r peers s) := by
  unfold concludeRound
  dsimp only
  split
  · exact retiring_retireAndRaise _
  · trivial

theorem retiring_checkQuorum {maxAttempts : ℕ} {windows : ν → ℕ → List (Event ν)} :
    Retiring r (checkQuorum C i r maxAttempts windows s) := by
  unfold checkQuorum
  split
  · exact ⟨trivial, fun named => by rcases named with same | same <;> cases same⟩
  refine retiring_requireMonitoredLeader.bind fun _ s => ?_
  refine retiring_requireVoter.bind fun _ s => ?_
  refine (retiring_probePeers _ _ s).bind fun peers s => ?_
  refine retiring_requireMonitoredLeader.bind fun _ s => ?_
  exact retiring_requireSameConfiguration.bind fun _ s => retiring_concludeRound

theorem retiring_beginProbes (probed : List ν) (s : Cluster ν) :
    Retiring r (beginProbes C i r probed s) := by
  induction probed generalizing s with
  | nil => trivial
  | cons peer rest ih =>
      rw [beginProbes]
      exact (retiring_replicatorCall _).bind fun _ s => (ih s).bind fun _ _ => trivial

theorem retiring_finishProbes (probes : List (AppendProbe ν)) (s : Cluster ν) :
    Retiring r (finishProbes C i r probes s) := by
  induction probes generalizing s with
  | nil => trivial
  | cons probe rest ih =>
      rw [finishProbes]
      exact (retiring_replicatorCall _).bind fun _ s => (ih s).bind fun _ _ => trivial

theorem retiring_checkQuorumWindow {responseTimeout : ℕ} {window : List (Event ν)} :
    Retiring r (checkQuorumWindow C i r responseTimeout window s) := by
  unfold checkQuorumWindow
  split
  · exact ⟨trivial, fun named => by rcases named with same | same <;> cases same⟩
  refine retiring_requireMonitoredLeader.bind fun _ s => ?_
  refine retiring_requireVoter.bind fun _ s => ?_
  refine (retiring_beginProbes _ s).bind fun probes s => ?_
  refine (retiring_unguarded _).bind fun _ s => ?_
  refine retiring_requireMonitoredLeader.bind fun _ s => ?_
  refine retiring_requireWindowConfiguration.bind fun _ s => ?_
  refine (retiring_finishProbes probes s).bind fun peers s => ?_
  exact retiring_requireWindowConfiguration.bind fun _ s => retiring_concludeRound

end Rounds

/-- **Evidence of a quorum is fresh.** From every state and with whatever runs while they
wait, `check` and `check_window` return evidence only if the node is still the live
leader of the term, the voting configuration is the one the round began with, and a
quorum of its active voters handled an `AppendEntries` of this leader and term after the
round began; and where they raise `LeaderQuorumUnavailable` or
`LeaderQuorumMembershipChanged`, the node does not lead in that term. -/
theorem quorum_evidence_fresh {i : ℕ} {r : LeaderReplicator ν} {s : Cluster ν}
    (monitors : Monitors i r s) :
    (∀ maxAttempts (windows : ν → ℕ → List (Event ν)),
      (∀ peer attempt, ∀ event ∈ windows peer attempt, event.Continues) → ∀ s',
        (∀ evidence, checkQuorum C i r maxAttempts windows s = .returns evidence s' →
          Confirmed C r s s' evidence) ∧
        ∀ error, checkQuorum C i r maxAttempts windows s = .raises error s' →
          error = .quorumUnavailable ∨ error = .membershipChanged → ¬ r.Current s') ∧
    ∀ responseTimeout (window : List (Event ν)), (∀ event ∈ window, event.Continues) → ∀ s',
      (∀ evidence, checkQuorumWindow C i r responseTimeout window s = .returns evidence s' →
        Confirmed C r s s' evidence) ∧
      ∀ error, checkQuorumWindow C i r responseTimeout window s = .raises error s' →
        error = .quorumUnavailable ∨ error = .membershipChanged → ¬ r.Current s' := by
  constructor
  · intro maxAttempts windows continues s'
    refine ⟨fun evidence => confirmed_checkQuorum monitors continues, fun error raised => ?_⟩
    have retires : Retiring r (checkQuorum C i r maxAttempts windows s) := retiring_checkQuorum
    rw [raised] at retires
    exact retires.2
  · intro responseTimeout window continues s'
    refine ⟨fun evidence => confirmed_checkQuorumWindow monitors continues, fun error raised => ?_⟩
    have retires : Retiring r (checkQuorumWindow C i r responseTimeout window s) :=
      retiring_checkQuorumWindow
    rw [raised] at retires
    exact retires.2

/-- The first of three nodes leads and has a replicator. -/
def monitoredCluster : Cluster ℕ :=
  run threeNodes [.startElection 0, .deliver ⟨0, 0⟩, .deliver ⟨2, 0⟩, .newReplicator 0 false false]

/-- Its replicator. -/
def monitoredReplicator : LeaderReplicator ℕ := runtimeReplicator 0 false monitoredCluster

/-- A probe to the second node and its response arrive. -/
theorem monitored_quorum : ∃ evidence s',
    checkQuorum threeNodes 0 monitoredReplicator 1
        (fun _ _ => [.deliver ⟨3, 0⟩, .deliver ⟨4, 0⟩]) monitoredCluster =
      .returns evidence s' ∧ evidence.acknowledgedPeers = [1] ∧
      Confirmed threeNodes monitoredReplicator monitoredCluster s' evidence := by
  have monitors : Monitors 0 monitoredReplicator monitoredCluster := by
    cases found : monitoredCluster.replicators[0]? with
    | none =>
        have some : monitoredCluster.replicators[0]?.isSome = true := by decide +kernel
        rw [found] at some
        cases some
    | some r =>
        have same : monitoredCluster.replicators[0]?.all (fun r =>
            decide (r.leader = monitoredReplicator.leader ∧ r.term = monitoredReplicator.term)) =
              true := by decide +kernel
        rw [found] at same
        exact ⟨r, found, of_decide_eq_true same⟩
  obtain ⟨checks, -⟩ := quorum_evidence_fresh (C := threeNodes) monitors
  have returned : (checkQuorum threeNodes 0 monitoredReplicator 1
      (fun _ _ => [.deliver ⟨3, 0⟩, .deliver ⟨4, 0⟩]) monitoredCluster).value?.map
        (·.acknowledgedPeers) = some [1] := by decide +kernel
  obtain ⟨evidence, value, peers⟩ := Option.map_eq_some_iff.mp returned
  have outcome := Outcome.eq_returns_of_value? value
  refine ⟨evidence, _, outcome, peers, (checks 1 _ (fun _ _ event member => ?_) _).1
    evidence outcome⟩
  simp only [List.mem_cons, List.not_mem_nil, or_false] at member
  rcases member with rfl | rfl <;> trivial

end Distlab.Raft
