import Distlab.Raft.LeaderTenure
import Distlab.Raft.Sparing

/-!
# The stages of a run

An operation of a cluster of fixed membership is a sequence of stages: what the protocol
does between the calls of the state machine, an entry that a driver appends, and these
calls themselves. A node applies, creates and compacts when a driver asks for it, and
installs what a leader has sent it. A permit says which commands are appended, and whether
the stages may write the replicators: messages never do.
-/

set_option autoImplicit false

namespace Distlab.Raft

open Foundations

/-- What the stages of an operation may do. -/
structure Permit (ν : Type) where
  appends : Command ν → Prop
  tends : Prop

variable {ν : Type} [LinearOrder ν] {C : Config ν} {P : Permit ν} {s t u : Cluster ν} {n : ν}

/-! ## Calls of the state machine -/

omit [LinearOrder ν] in
/-- The call sends nothing and takes no entry into a log. -/
structure Silent (s t : Cluster ν) : Prop where
  network : t.network = s.network
  transitions : t.transitions = s.transitions
  entries : ∀ n, (t.logView n).entries ⊆ (s.logView n).entries
  replicators : t.replicators = s.replicators

omit [LinearOrder ν] in
theorem Silent.refl (s : Cluster ν) : Silent s s :=
  ⟨rfl, rfl, fun _ => List.Subset.refl _, rfl⟩

omit [LinearOrder ν] in
theorem Silent.trans (first : Silent s t) (second : Silent t u) : Silent s u :=
  ⟨second.network.trans first.network, second.transitions.trans first.transitions,
    fun n => List.Subset.trans (second.entries n) (first.entries n),
    second.replicators.trans first.replicators⟩

omit [LinearOrder ν] in
/-- A call that leaves the durable state alone. -/
theorem Silent.of_same (persistent : t.persistent = s.persistent) (network : t.network = s.network)
    (transitions : t.transitions = s.transitions) (replicators : t.replicators = s.replicators) :
    Silent s t :=
  ⟨network, transitions, fun n => by rw [Cluster.logView, persistent]; exact List.Subset.refl _,
    replicators⟩

/-- A durable write that takes no entry into the log. -/
theorem silent_updatePersistent {f : Persistent ν → Persistent ν}
    (entries : (f (s.persistent n)).log.entries ⊆ (s.logView n).entries) :
    Silent s (s.updatePersistent n f) := by
  refine ⟨rfl, rfl, fun m => ?_, rfl⟩
  by_cases same : m = n
  · subst same
    simpa [Cluster.logView, Cluster.updatePersistent] using entries
  · simp [Cluster.logView, Cluster.updatePersistent, same]

/-- Every outcome of the call sends nothing and takes no entry into a log. -/
abbrev Silences {β : Type} (s : Cluster ν) (op : Op ν β) : Prop :=
  op.Ensures (Silent s) fun _ _ => True

omit [LinearOrder ν] in
theorem Silences.bind {β γ : Type} {op : Op ν β} {next : β → Cluster ν → Op ν γ}
    (first : Silences s op) (rest : ∀ b t, Silences t (next b t)) : Silences s (op.bind next) :=
  Outcome.Ensures.bind first
    (fun b t _ silent => (rest b t).mono (fun _ after => silent.trans after) fun _ _ => id)
    fun _ => id

omit [LinearOrder ν] in
theorem Silences.after {β : Type} {op : Op ν β} (first : Silent s t) (rest : Silences t op) :
    Silences s op := rest.mono (fun _ after => first.trans after) fun _ _ => id

theorem silences_applyEach (indexes : List ℕ) : Silences s (applyEach n indexes s) := by
  induction indexes generalizing s with
  | nil => exact Silent.refl s
  | cons index rest ih =>
      unfold applyEach
      split
      · exact ⟨.refl s, trivial⟩
      split
      · exact ⟨.refl s, trivial⟩
      next entry _ _ applier _ =>
        have written : Silent s (writeApplied n index entry { s with applier := applier }) := by
          refine ⟨rfl, rfl, fun m => ?_, rfl⟩
          by_cases same : m = n
          · subst same
            simp [writeApplied, Cluster.logView, Cluster.updatePersistent]
          · simp [writeApplied, Cluster.logView, Cluster.updatePersistent, same]
        exact .after written (ih.bind fun _ t => Silent.refl t)

theorem silences_applyCommands (entries : List (LogEntry (Command ν))) :
    Silences s (applyCommands n entries s) := by
  induction entries generalizing s with
  | nil => exact Silent.refl s
  | cons entry rest ih =>
      unfold applyCommands
      split
      · exact ⟨.refl s, trivial⟩
      next image _ =>
        have executed : Silent s { s with kv := Function.update s.kv n image } :=
          .of_same rfl rfl rfl rfl
        exact Silences.after executed ih

theorem silences_kvApplyCommitted : Silences s (kvApplyCommitted n s) := by
  have applies : Silences s (applierApplyCommitted n s) := by
    unfold applierApplyCommitted
    dsimp only
    split
    · exact Silent.refl s
    split
    · exact ⟨.refl s, trivial⟩
    split
    · exact ⟨.refl s, trivial⟩
    · exact silences_applyEach _
  unfold kvApplyCommitted
  dsimp only
  split
  · exact ⟨.refl s, trivial⟩
  split
  · exact ⟨.refl s, trivial⟩
  split
  · exact ⟨.refl s, trivial⟩
  · exact applies.bind fun _ t => (silences_applyCommands _).bind fun _ u => Silent.refl u

theorem silences_createSnapshot : Silences s (createSnapshot C n s) := by
  unfold createSnapshot
  dsimp only
  split
  · exact ⟨.refl s, trivial⟩
  split
  · exact ⟨.refl s, trivial⟩
  split
  · exact ⟨.refl s, trivial⟩
  split
  · exact ⟨.refl s, trivial⟩
  split
  · exact ⟨.refl s, trivial⟩
  · exact silent_updatePersistent (List.Subset.refl _)

omit [LinearOrder ν] in
theorem entries_compactThrough (view : RaftLogView (Command ν)) (index : ℕ) :
    (view.compactThrough index).entries ⊆ view.entries := by
  unfold RaftLogView.compactThrough
  split
  · exact List.Subset.refl _
  · exact List.drop_subset _ _

theorem silences_compactSnapshot : Silences s (compactSnapshot C n s) := by
  unfold compactSnapshot
  refine silences_createSnapshot.bind fun snapshot t => ?_
  dsimp only
  split
  · exact ⟨.refl t, trivial⟩
  have compacted : Silent t (t.updatePersistent n fun p =>
      { p with log := (t.logView n).compactThrough snapshot.lastIncludedIndex }) :=
    silent_updatePersistent (entries_compactThrough _ _)
  refine .after compacted (Silences.bind ?_ fun _ u => Silent.refl u)
  generalize (t.updatePersistent n _) = u
  unfold applierCompactThrough
  dsimp only
  split
  · exact ⟨.refl u, trivial⟩
  split
  · split
    · exact ⟨.refl u, trivial⟩
    · exact Silent.refl u
  split
  · exact ⟨.refl u, trivial⟩
  · refine ⟨rfl, rfl, fun m => ?_, rfl⟩
    by_cases same : m = n
    · subst same
      simp [writeCompacted, Cluster.logView, Cluster.updatePersistent]
    · simp [writeCompacted, Cluster.logView, Cluster.updatePersistent, same]

omit [LinearOrder ν] in
theorem entries_retainedSuffix {snapshot : KVSnapshot ν} {preserve : Bool}
    {suffix : List (LogEntry (Command ν))}
    (retained : retainedSuffix n snapshot preserve s = .ok suffix) :
    suffix ⊆ (s.logView n).entries := by
  unfold retainedSuffix at retained
  dsimp only at retained
  split at retained
  · cases retained
    exact List.nil_subset _
  split at retained
  · cases retained
    exact List.drop_subset _ _
  · cases retained

theorem silences_installSnapshot (snapshot : KVSnapshot ν) (preserve : Bool) :
    Silences s (installSnapshot C n snapshot preserve s) := by
  unfold installSnapshot
  dsimp only
  split
  · exact ⟨.refl s, trivial⟩
  split
  · split
    · exact ⟨.refl s, trivial⟩
    · exact Silent.refl s
  split
  · exact ⟨.refl s, trivial⟩
  split
  · exact ⟨.refl s, trivial⟩
  next suffix retained =>
  split
  · exact ⟨.refl s, trivial⟩
  split
  · exact ⟨.refl s, trivial⟩
  have written : Silent s (writeSnapshot n snapshot suffix s) := by
    refine ⟨rfl, rfl, fun m => ?_, rfl⟩
    by_cases same : m = n
    · subst same
      simpa [writeSnapshot, Cluster.logView, Cluster.updatePersistent] using
        entries_retainedSuffix retained
    · simp [writeSnapshot, Cluster.logView, Cluster.updatePersistent, same]
  refine .after written (Silences.bind ?_ fun _ t => Silences.bind ?_ fun _ u => ?_)
  · split
    · unfold advanceNodeCommit
      split
      · exact ⟨.refl _, trivial⟩
      split
      · exact Silent.refl _
      · exact Silent.of_same rfl rfl rfl rfl
    · exact Silent.refl _
  · unfold assertLogMatching
    split
    · exact Silent.refl t
    · exact ⟨.refl t, trivial⟩
  · unfold assertStateMachineSafety
    split
    · exact Silent.refl u
    · exact ⟨.refl u, trivial⟩

/-! ## Stages -/

/-- One stage. -/
inductive Stage (C : Config ν) (P : Permit ν) (s : Cluster ν) : Cluster ν → Prop
  | spare {t : Cluster ν} (moves : Moves C .protocol s t) (spares : Spares P.tends s t)
      (tracks : Tracked s → Tracked t) : Stage C P s t
  | append (n : ν) (command : Command ν) (allowed : P.appends command) :
      Stage C P s (appendCurrentTerm n command s).state
  | apply (n : ν) (member : n ∈ C.nodeIds) : Stage C P s (kvApplyCommitted n s).state
  | create (n : ν) (member : n ∈ C.nodeIds) : Stage C P s (createSnapshot C n s).state
  | compact (n : ν) (member : n ∈ C.nodeIds) : Stage C P s (compactSnapshot C n s).state
  | install (message : Message ν) (request : InstallSnapshotRequest ν)
      (arrived : Arrived C s message) (payload : message.payload = .installSnapshotRequest request)
      (dst : message.dst = request.followerId)
      (term : request.term = s.currentTerm request.followerId)
      (follows : s.role request.followerId = .follower) :
      Stage C P s (installSnapshot C request.followerId request.snapshot true s).state

/-- Any number of stages. -/
def Stages (C : Config ν) (P : Permit ν) : Cluster ν → Cluster ν → Prop :=
  Relation.ReflTransGen (Stage C P)

/-- A follower installs the snapshot of a request of its term. -/
theorem runs_installRequested {message : Message ν} {request : InstallSnapshotRequest ν}
    (arrived : Arrived C s message) (payload : message.payload = .installSnapshotRequest request)
    (dst : message.dst = request.followerId)
    (term : request.term = s.currentTerm request.followerId)
    (follows : s.role request.followerId = .follower) {U : Licence ν} :
    Runs C U s (installSnapshot C request.followerId request.snapshot true s) := by
  refine runs_installSnapshot fun suffix newer beyond retained applied valid compatible => ?_
  rw [← dst] at term follows newer beyond retained applied compatible ⊢
  exact .one (.install message request suffix arrived payload term follows newer beyond retained
    applied valid compatible)

/-- **Stages are moves.** -/
theorem Stage.moves (fixed : C.kind = .fixed) (stage : Stage C P s t) :
    Moves C .protocol s t := by
  cases stage with
  | spare moves => exact moves
  | append n command =>
      exact (runs_appendCurrentTerm (U := .protocol) ⟨.inl fixed, fun _ => trivial⟩).state
  | apply n member => exact (runs_kvApplyCommitted member s).state
  | create n member => exact (runs_createSnapshot member s).state
  | compact n member => exact (runs_compactSnapshot member s).state
  | install message request arrived payload dst term follows =>
      exact (runs_installRequested arrived payload dst term follows).state

/-- A stage takes entries from logs and messages, or appends an allowed command. -/
theorem Stage.carries (stage : Stage C P s t) {entry : LogEntry (Command ν)}
    (carries : HasEntry t entry) : HasEntry s entry ∨ P.appends entry.command := by
  have quiet : ∀ {t : Cluster ν}, Silent s t → HasEntry t entry → HasEntry s entry := by
    rintro t silent (⟨n, member⟩ | ⟨message, member, rest⟩)
    · exact .inl ⟨n, silent.entries n member⟩
    · exact .inr ⟨message, silent.network ▸ member, rest⟩
  cases stage with
  | spare moves spares => exact .inl (spares.carries carries)
  | append n command allowed =>
      unfold appendCurrentTerm at carries
      split at carries
      · exact .inl carries
      split at carries
      · exact .inl carries
      obtain ⟨m, member⟩ | sent := carries
      · by_cases same : m = n
        · subst same
          have listed : entry ∈ (s.logView m).entries ∨
              entry = ⟨s.currentTerm m, command⟩ := by
            simpa [Cluster.logView, Cluster.updatePersistent] using member
          obtain own | rfl := listed
          · exact .inl (.inl ⟨m, own⟩)
          · exact .inr allowed
        · refine .inl (.inl ⟨m, ?_⟩)
          simpa [Cluster.logView, Cluster.updatePersistent, same] using member
      · exact .inl (.inr sent)
  | apply n => exact .inl (quiet (Outcome.Ensures.state silences_kvApplyCommitted) carries)
  | create n => exact .inl (quiet (Outcome.Ensures.state silences_createSnapshot) carries)
  | compact n => exact .inl (quiet (Outcome.Ensures.state silences_compactSnapshot) carries)
  | install message request =>
      exact .inl (quiet (Outcome.Ensures.state (silences_installSnapshot _ _)) carries)

/-- A stage that may not write the replicators leaves them alone. -/
theorem Stage.replicators (stage : Stage C P s t) (leaves : ¬ P.tends) :
    t.replicators = s.replicators := by
  cases stage with
  | spare _ spares => exact spares.replicators.resolve_left leaves
  | append n command =>
      unfold appendCurrentTerm
      split
      · rfl
      split <;> rfl
  | apply n => exact (Outcome.Ensures.state silences_kvApplyCommitted).replicators
  | create n => exact (Outcome.Ensures.state silences_createSnapshot).replicators
  | compact n => exact (Outcome.Ensures.state silences_compactSnapshot).replicators
  | install message request =>
      exact (Outcome.Ensures.state (silences_installSnapshot request.snapshot true)).replicators

/-- A stage keeps what the replicators have committed. -/
theorem Stage.tracked (fixed : C.kind = .fixed) (stage : Stage C P s t) (tracked : Tracked s) :
    Tracked t := by
  have moves := stage.moves fixed
  -- Only what the protocol does beside the calls writes the replicators.
  have leaves : Stage C ⟨P.appends, False⟩ s t → Tracked t := fun stage =>
    tracked.moves moves (stage.replicators id)
  cases stage with
  | spare _ _ tracks => exact tracks tracked
  | append n command allowed => exact leaves (.append n command allowed)
  | apply n member => exact leaves (.apply n member)
  | create n member => exact leaves (.create n member)
  | compact n member => exact leaves (.compact n member)
  | install message request arrived payload dst term follows =>
      exact leaves (.install message request arrived payload dst term follows)

/-- Stages begin no transition of the membership. -/
theorem Stage.transitions (stage : Stage C P s t) : t.transitions = s.transitions := by
  cases stage with
  | spare moves spares => exact spares.transitions
  | append n command =>
      unfold appendCurrentTerm
      split
      · rfl
      split <;> rfl
  | apply n => exact (Outcome.Ensures.state silences_kvApplyCommitted).transitions
  | create n => exact (Outcome.Ensures.state silences_createSnapshot).transitions
  | compact n => exact (Outcome.Ensures.state silences_compactSnapshot).transitions
  | install message request =>
      exact (Outcome.Ensures.state (silences_installSnapshot _ _)).transitions

namespace Stages

theorem refl (s : Cluster ν) : Stages C P s s := Relation.ReflTransGen.refl

theorem one (stage : Stage C P s t) : Stages C P s t := Relation.ReflTransGen.single stage

theorem trans (first : Stages C P s t) (second : Stages C P t u) : Stages C P s u :=
  Relation.ReflTransGen.trans first second

/-- What the protocol does beside the replicators. -/
theorem spare (moves : Moves C .protocol s t) (spares : Spares False s t) : Stages C P s t :=
  one (.spare moves (spares.mono False.elim) fun tracked =>
    tracked.moves moves (spares.replicators.resolve_left id))

/-- What each stage keeps, a sequence of stages keeps. -/
theorem invariant {Q : Cluster ν → Prop} (keeps : ∀ s t, Stage C P s t → Q s → Q t)
    (stages : Stages C P s t) (holds : Q s) : Q t := by
  induction stages with
  | refl => exact holds
  | tail _ stage ih => exact keeps _ _ stage ih

theorem moves (fixed : C.kind = .fixed) (stages : Stages C P s t) : Moves C .protocol s t := by
  induction stages with
  | refl => exact .refl s
  | tail _ stage ih => exact ih.trans (stage.moves fixed)

/-- Stages that may not write the replicators leave them alone. -/
theorem replicators (stages : Stages C P s t) (leaves : ¬ P.tends) :
    t.replicators = s.replicators := by
  induction stages with
  | refl => rfl
  | tail _ stage ih => exact (stage.replicators leaves).trans ih

theorem tracked (fixed : C.kind = .fixed) (stages : Stages C P s t) (tracked : Tracked s) :
    Tracked t := stages.invariant (fun _ _ stage => stage.tracked fixed) tracked

theorem transitions (stages : Stages C P s t) : t.transitions = s.transitions := by
  induction stages with
  | refl => rfl
  | tail _ stage ih => exact stage.transitions.trans ih

theorem carries (stages : Stages C P s t) {entry : LogEntry (Command ν)}
    (carries : HasEntry t entry) : HasEntry s entry ∨ P.appends entry.command := by
  induction stages with
  | refl => exact .inl carries
  | tail _ stage ih =>
      obtain earlier | allowed := stage.carries carries
      · exact ih earlier
      · exact .inr allowed

end Stages

/-! ## Operations -/

/-- Every outcome of the operation is reached in stages. -/
abbrev Staged (C : Config ν) (P : Permit ν) {β : Type} (s : Cluster ν) (op : Op ν β) :
    Prop :=
  op.Ensures (Stages C P s) fun _ _ => True

theorem Staged.bind {β γ : Type} {op : Op ν β} {next : β → Cluster ν → Op ν γ}
    (first : Staged C P s op)
    (rest : ∀ b t, op = .returns b t → Stages C P s t → Staged C P t (next b t)) :
    Staged C P s (op.bind next) :=
  Outcome.Ensures.bind first
    (fun b t returned stages =>
      (rest b t returned stages).mono (fun _ after => stages.trans after) fun _ _ => id)
    fun _ => id

theorem Staged.after {β : Type} {op : Op ν β} (first : Stages C P s t) (rest : Staged C P t op) :
    Staged C P s op := rest.mono (fun _ after => first.trans after) fun _ _ => id

theorem Staged.raised {β : Type} (violation : Error ν) (s : Cluster ν) :
    Staged C P s (.raises violation s : Op ν β) := ⟨.refl s, trivial⟩

/-- An operation that leaves the state machine to its own calls is one stage. -/
theorem Sparing.staged {β : Type} {op : Op ν β} (sparing : Sparing False s op)
    (runs : Runs C .protocol s op) : Staged C P s op := by
  cases op with
  | returns b t => exact .spare runs sparing
  | raises violation t => exact ⟨.spare runs.1 sparing.1, trivial⟩

/-- An operation that writes the replicators and keeps what they have committed. -/
theorem Sparing.tended {β : Type} {op : Op ν β} (sparing : Sparing P.tends s op)
    (runs : Runs C .protocol s op)
    (tracks : Tracked s → op.Ensures Tracked fun _ _ => True) : Staged C P s op := by
  cases op with
  | returns b t => exact .one (.spare runs sparing tracks)
  | raises violation t => exact ⟨.one (.spare runs.1 sparing.1 fun tracked => (tracks tracked).1),
      trivial⟩

/-- A call is one stage. -/
theorem Stage.staged {β : Type} {op : Op ν β} (stage : Stage C P s op.state) : Staged C P s op := by
  cases op with
  | returns b t => exact .one stage
  | raises violation t => exact ⟨.one stage, trivial⟩

/-! ## Messages -/

theorem staged_installRequested {message : Message ν} {request : InstallSnapshotRequest ν}
    (arrived : Arrived C s message) (payload : message.payload = .installSnapshotRequest request)
    (dst : message.dst = request.followerId)
    (term : request.term = s.currentTerm request.followerId)
    (follows : s.role request.followerId = .follower) :
    Staged C P s (handleInstallSnapshotRequest.install C request s) := by
  have installs : Staged C P s (installSnapshot C request.followerId request.snapshot true s) :=
    Stage.staged (.install message request arrived payload dst term follows)
  have runs : Runs C .protocol s
      (installSnapshot C request.followerId request.snapshot true s) :=
    runs_installRequested arrived payload dst term follows
  unfold handleInstallSnapshotRequest.install
  cases outcome : installSnapshot C request.followerId request.snapshot true s with
  | returns _ t =>
      rw [outcome] at installs runs
      obtain ⟨latest, same⟩ := installSnapshot_returns outcome
      refine Stages.trans installs (.spare (moves_answerInstallSnapshot fun _ => ⟨?_, le_rfl⟩)
        (spares_answerInstallSnapshot _ _ _))
      exact ⟨message, arrived.after runs, dst, payload, by rw [same, term], request.snapshot,
        latest, le_rfl⟩
  | raises violation t =>
      rw [outcome] at installs
      dsimp only
      split
      · exact installs.1.trans (.spare (moves_answerInstallSnapshot fun succeeded =>
          absurd succeeded Bool.false_ne_true) (spares_answerInstallSnapshot _ _ _))
      · exact ⟨installs.1, trivial⟩

/-- A follower that hears from the leader of a request has its term. -/
theorem term_contacted {request : InstallSnapshotRequest ν}
    (reached : s.currentTerm request.followerId ≤ request.term) :
    request.term = (resetElectionTimeout C request.followerId (retire request.followerId
      (advanceTerm C request.followerId request.term false s))).currentTerm
        request.followerId := by
  rw [Cluster.currentTerm, persistent_resetElectionTimeout, persistent_retire]
  unfold advanceTerm
  split
  · next same => exact Nat.le_antisymm same reached
  · have adopted : (clearPreVote request.followerId
        (adoptTerm request.followerId request.term s)).currentTerm request.followerId =
        request.term := by
      simp [clearPreVote, adoptTerm, retire, persistTermAndVote, Cluster.currentTerm,
        Cluster.updatePersistent, Cluster.record]
    dsimp only
    rw [if_neg (by simp)]
    split
    · rw [persistent_notifyLeaderRetired]
      exact adopted.symm
    · exact adopted.symm

theorem staged_handleInstallSnapshotRequest {message : Message ν}
    {request : InstallSnapshotRequest ν} (arrived : Arrived C s message)
    (payload : message.payload = .installSnapshotRequest request)
    (dst : message.dst = request.followerId) :
    Staged C P s (handleInstallSnapshotRequest C request s) := by
  unfold handleInstallSnapshotRequest
  dsimp only
  split
  · exact Stages.spare (moves_answerInstallSnapshot fun succeeded =>
      absurd succeeded Bool.false_ne_true) (spares_answerInstallSnapshot _ _ _)
  next authority =>
    rw [not_or, not_lt] at authority
    have moves : Moves C .protocol s (resetElectionTimeout C request.followerId
        (retire request.followerId (advanceTerm C request.followerId request.term false s))) :=
      (moves_advanceTerm _ _ _ s).trans ((moves_retire _ _).trans (moves_resetElectionTimeout _ _))
    have spares : Spares False s (resetElectionTimeout C request.followerId
        (retire request.followerId (advanceTerm C request.followerId request.term false s))) :=
      ((spares_advanceTerm _ _).trans spares_retire).trans spares_resetElectionTimeout
    have term := term_contacted (C := C) authority.2
    have follows : (resetElectionTimeout C request.followerId (retire request.followerId
        (advanceTerm C request.followerId request.term false s))).role request.followerId =
        .follower := role_resetElectionTimeout_of_follower _ _ (role_retire _ _)
    refine .after (.spare moves spares) ?_
    have arrived' := arrived.after moves
    generalize resetElectionTimeout C request.followerId _ = t at term follows arrived' ⊢
    split
    · next latest stored =>
      split
      · next older =>
        refine Stages.spare (moves_answerInstallSnapshot fun _ => ⟨?_, older.le⟩)
          (spares_answerInstallSnapshot _ _ _)
        exact ⟨message, arrived', dst, payload, term, latest, stored, older.le⟩
      · exact staged_installRequested arrived' payload dst term follows
    · exact staged_installRequested arrived' payload dst term follows

theorem staged_handleMessage {message : Message ν} (arrived : Arrived C s message) :
    Staged C P s (handleMessage C message s) := by
  have runs : Runs C .protocol s (handleMessage C message s) := runs_handleMessage arrived
  have valid := arrived.2
  unfold validEnvelope at valid
  unfold handleMessage at runs ⊢
  cases payload : message.payload with
  | electionTimeout generation deadline =>
      rw [payload] at runs
      exact Sparing.staged (sparing_handleElectionTimeout _ _) runs
  | preVote request =>
      rw [payload] at runs
      exact .spare runs (spares_handlePreVote _ _)
  | preVoteResponse response =>
      rw [payload] at runs
      exact Sparing.staged (sparing_handlePreVoteResponse _) runs
  | requestVote request =>
      rw [payload] at runs
      exact .spare runs (spares_handleRequestVote _ _)
  | requestVoteResponse response =>
      rw [payload] at runs
      exact Sparing.staged (sparing_handleRequestVoteResponse _) runs
  | appendEntries request =>
      rw [payload] at runs
      exact Sparing.staged (sparing_handleAppendEntries arrived.1 payload) runs
  | appendEntriesResponse response =>
      rw [payload] at runs
      exact .spare runs (spares_handleAppendEntriesResponse _)
  | installSnapshotRequest request =>
      simp only [payload, decide_eq_true_eq] at valid
      exact staged_handleInstallSnapshotRequest arrived payload valid.2.2.2
  | installSnapshotResponse response =>
      rw [payload] at runs
      exact .spare runs (spares_handleInstallSnapshotResponse _)

theorem staged_deliver (delivery : Delivery) : Staged C P s (deliver C delivery s) := by
  unfold deliver
  dsimp only
  have elapse : Stages C P s (s.elapse delivery.elapsed) :=
    .spare (.same rfl) (.of_same rfl rfl rfl rfl rfl rfl)
  refine .after elapse ?_
  generalize s.elapse delivery.elapsed = t
  split
  · exact Stages.refl t
  next message found =>
  split
  · exact Stages.refl t
  have sent : message ∈ t.network := List.mem_of_getElem? found
  have recorded : Stages C P t (t.record (.deliver message)) :=
    .spare (moves_record sent) (spares_record _)
  refine .after recorded ?_
  split
  · next valid => exact staged_handleMessage ⟨sent, valid⟩
  · exact Stages.refl _

theorem staged_simulate (deliveries : List Delivery) : Staged C P s (simulate C deliveries s) := by
  unfold simulate
  refine Outcome.ensures_forEach (fun delivery _ t stages => ?_) s (.refl s)
  exact Staged.after stages (staged_deliver delivery)

/-! ## Replication -/

section Replication

variable (tends : P.tends) (fixed : C.kind = .fixed)
include tends fixed

theorem staged_advanceCommitIndex (i : ℕ) : Staged C P s (advanceCommitIndex C i s) :=
  (sparing_advanceCommitIndex tends fixed i).tended (runs_advanceCommitIndex i s)
    fun tracked => tracked.advanceCommitIndex fixed i

theorem staged_acknowledgePeer {i : ℕ} {r : LeaderReplicator ν} {peer : ν} {matchIndex : ℕ}
    (found : s.replicators[i]? = some r) (evidence : MatchEvidence s r peer matchIndex) :
    Staged C P s (acknowledgePeer C i peer matchIndex s) :=
  (sparing_acknowledgePeer tends fixed i peer matchIndex).tended
    (runs_acknowledgePeer found evidence) fun tracked =>
      tracked.acknowledgePeer fixed i peer matchIndex

theorem staged_replicateSnapshot {i : ℕ} {r : LeaderReplicator ν} {peer : ν}
    {deliveries : List Delivery} (found : s.replicators[i]? = some r) :
    Staged C P s (replicateSnapshot C i r peer deliveries s) := by
  unfold replicateSnapshot
  dsimp only
  split
  · exact .raised _ s
  next snapshot _ =>
  split
  · exact .raised _ s
  next boundary =>
  simp only [not_or, not_not] at boundary
  generalize max r.snapshotRequestId (snapshotRequestIdFloor r s.trace) + 1 = requestId
  have number : Moves C .protocol s
      (s.updateReplicator i fun r => { r with snapshotRequestId := requestId }) :=
    moves_probe fun r => ⟨rfl, rfl, rfl, rfl, fun _ => rfl⟩
  have ask : Moves C .protocol s ((s.updateReplicator i fun r =>
      { r with snapshotRequestId := requestId }).record
        (.replicationSnapshot r.leader peer r.term requestId)) :=
    number.trans (moves_record (by trivial))
  have asks : Spares P.tends s ((s.updateReplicator i fun r =>
      { r with snapshotRequestId := requestId }).record
        (.replicationSnapshot r.leader peer r.term requestId)) :=
    (spares_updateReplicator tends i _).trans (spares_record _)
  have tracks : Tracked s → Tracked ((s.updateReplicator i fun r =>
      { r with snapshotRequestId := requestId }).record
        (.replicationSnapshot r.leader peer r.term requestId)) := by
    intro tracked
    have numbered : Tracked (s.updateReplicator i fun r =>
        { r with snapshotRequestId := requestId }) :=
    tracked.updateReplicator fun r => ⟨rfl, rfl, rfl⟩
    exact fun r member => (numbered r member).of_same rfl rfl rfl
  refine .after (.one (.spare ask asks tracks))
    ((sparing_sendInstallSnapshot.staged runs_sendInstallSnapshot).bind fun _ t _ sent => ?_)
  refine (staged_simulate deliveries).bind fun _ u _ delivered => ?_
  have moves := (ask.trans (sent.moves fixed)).trans (delivered.moves fixed)
  obtain ⟨r', found', leader, term, -⟩ := moves.replicator found
  split
  · exact .raised _ u
  split
  · exact .raised _ u
  · exact Stages.refl u
  next matchIndex answered =>
    obtain ⟨response, recorded, own, peers, term', success, reached, requested⟩ :=
      matchingSnapshotResponse_record answered
    have compacted := moves.baseIndex_le r.leader
    have evidence : MatchEvidence u r peer matchIndex :=
      .inr ⟨response, recorded, own, peers, term', success, reached, by
        rw [requested, boundary.2.1]
        exact compacted⟩
    exact staged_acknowledgePeer tends fixed found' (evidence.of_same leader term)

omit tends fixed in
/-- A replicator sends the entries that its peer is next to have. -/
theorem staged_sendSuffix {i : ℕ} {r : LeaderReplicator ν} {peer : ν}
    (found : s.replicators[i]? = some r) (current : r.Current s)
    (retained : (s.logView r.leader).baseIndex < (r.progress peer).nextIndex) :
    Staged C P s (sendAppendEntries C r.leader peer ((r.progress peer).nextIndex - 1)
      ((s.logView r.leader).suffixFrom (r.progress peer).nextIndex) r.commitIndex s) := by
  refine (sparing_sendAppendEntries (List.drop_subset _ _)).staged
    (runs_sendAppendEntries fun prevLogTerm matched => .inr ⟨?_, r, ?_, rfl, current, rfl⟩)
  · exact agrees_suffixFrom retained rfl rfl rfl matched
  · exact List.mem_of_getElem? found

theorem staged_replicateAppend {i : ℕ} {r : LeaderReplicator ν} {peer : ν}
    {deliveries : List Delivery} (found : s.replicators[i]? = some r) (current : r.Current s)
    (retained : (s.logView r.leader).baseIndex < (r.progress peer).nextIndex) :
    Staged C P s (replicateAppend C i r peer deliveries s) := by
  unfold replicateAppend
  dsimp only
  split
  · exact .raised _ s
  refine (staged_sendSuffix found current retained).bind fun _ t _ sent => ?_
  refine (staged_simulate deliveries).bind fun _ u _ delivered => ?_
  obtain ⟨r', found', leader, term, -⟩ :=
    ((sent.moves fixed).trans (delivered.moves fixed)).replicator found
  split
  · exact .raised _ u
  · next matchIndex answered =>
    have evidence : MatchEvidence u r peer matchIndex :=
      .inl (matchingAppendResponse_record answered)
    exact (staged_acknowledgePeer tends fixed found' (evidence.of_same leader term)).bind
      fun _ v _ _ => Stages.refl v
  · exact .one (.spare (moves_backtrackPeer i peer u) (spares_updateReplicator tends i _)
      fun tracked => tracked.updateReplicator fun r => ⟨rfl, rfl, rfl⟩)

theorem staged_replicateAttempt {i : ℕ} {r : LeaderReplicator ν} {peer : ν}
    {deliveries : List Delivery} (found : s.replicators[i]? = some r) :
    Staged C P s (replicateAttempt C i r peer deliveries s) := by
  unfold replicateAttempt
  refine ((sparing_requireCurrentLeader r).staged (runs_requireCurrentLeader r s)).bind
    fun _ t returned _ => ?_
  obtain ⟨rfl, current⟩ := requireCurrentLeader_returns returned
  split
  · exact (staged_replicateSnapshot tends fixed found).bind fun _ u _ _ => Stages.refl u
  · next retained => exact staged_replicateAppend tends fixed found current (not_le.mp retained)

theorem staged_replicateLoop {i : ℕ} {peer : ν} (schedules : List (List Delivery))
    (maxAttempts : Option ℕ) : Staged C P s (replicateLoop C i peer schedules maxAttempts s) := by
  induction schedules generalizing maxAttempts s with
  | nil => exact Stages.refl s
  | cons deliveries rest ih =>
      rw [replicateLoop]
      split
      · exact Stages.refl s
      split
      · exact Stages.refl s
      next r found =>
      refine (staged_replicateAttempt tends fixed found).bind fun done t _ _ => ?_
      split
      · exact Stages.refl t
      · exact ih _

theorem staged_replicate {i : ℕ} {peer : ν} {maxAttempts : Option ℕ}
    {schedules : List (List Delivery)} :
      Staged C P s (replicate C i peer maxAttempts schedules s) := by
  unfold replicate
  split
  · exact .raised _ s
  split
  · exact .raised _ s
  · exact staged_replicateLoop tends fixed schedules maxAttempts

omit tends fixed in
theorem staged_recoverCheck (i : ℕ) (peer : ν) (remaining : Option ℕ) :
    Staged C P s (recoverCheck i peer remaining s) := by
  unfold recoverCheck
  split
  · exact Stages.refl s
  next r _ =>
  refine ((sparing_requireCurrentLeader r).staged (runs_requireCurrentLeader r s)).bind
    fun _ t _ _ => ?_
  split
  · exact Stages.refl t
  split <;> exact Stages.refl t

theorem staged_recoverLoop {i : ℕ} {peer : ν} (schedules : List (List Delivery))
    (maxAttempts : Option ℕ) : Staged C P s (recoverLoop C i peer schedules maxAttempts s) := by
  induction schedules generalizing maxAttempts s with
  | nil => exact (staged_recoverCheck i peer maxAttempts).bind fun _ t _ _ => Stages.refl t
  | cons deliveries rest ih =>
      refine (staged_recoverCheck i peer maxAttempts).bind fun done t _ _ => ?_
      cases done with
      | some result => exact Stages.refl t
      | none => exact (staged_replicate tends fixed).bind fun _ u _ _ => ih _

theorem staged_recoverPeer {i : ℕ} {peer : ν} {maxAttempts : Option ℕ}
    {schedules : List (List Delivery)} :
    Staged C P s (recoverPeer C i peer maxAttempts schedules s) := by
  unfold recoverPeer
  split
  · exact .raised _ s
  split
  · exact .raised _ s
  · exact staged_recoverLoop tends fixed schedules maxAttempts

end Replication

/-! ## Events -/

/-- The event is a call of the KV store where it applies entries, and appends allowed
commands. -/
def Event.Served (P : Command ν → Prop) : Event ν → Prop
  | .applyCommitted _ => False
  | .appendCurrentTerm _ command => P command
  | _ => True

omit [LinearOrder ν] in
theorem Sparing.dropValue {R : Prop} {β : Type} {op : Op ν β} (sparing : Sparing R s op) :
    Sparing R s (dropValue op) :=
  Sparing.bind sparing fun _ t _ => Spares.refl t

omit [LinearOrder ν] in
theorem sparing_withReplicator {R : Prop} {β : Type} {i : ℕ}
    {operation : LeaderReplicator ν → Cluster ν → Op ν β}
    (sparing : ∀ r, Sparing R s (operation r s)) :
    Sparing R s (withReplicator i operation s) := by
  unfold withReplicator
  split
  · exact Spares.refl s
  · next r _ => exact (sparing r).dropValue

theorem Staged.dropValue {β : Type} {op : Op ν β} (staged : Staged C P s op) :
    Staged C P s (dropValue op) := staged.bind fun _ t _ _ => Stages.refl t

/-- **An event is a sequence of stages**, while no transition of the membership has begun. -/
theorem staged_perform (tends : P.tends) (fixed : C.kind = .fixed) (empty : s.transitions = [])
    {event : Event ν} (continues : event.Continues) (protocol : event.Protocol (C := C))
    (served : event.Served P.appends)
    (members : ∀ n, event.node = some n → n ∈ C.nodeIds) : Staged C P s (perform C event s) := by
  have none : ∀ i : ℕ, s.transitions[i]? = none := fun i => by rw [empty, List.getElem?_nil]
  have runs : Runs C .protocol s (perform C event s) :=
    runs_perform continues (.inr protocol) (Event.allowed_of_proposes fun _ _ => trivial) members
  cases event with
  | startElection n => exact Sparing.staged sparing_startElection runs
  | startPreVote n => exact Sparing.staged sparing_startPreVote runs
  | stepDown n => exact Sparing.staged (Sparing.dropValue sparing_stepDown) runs
  | deliver delivery => exact staged_deliver delivery
  | wait elapsed => exact Stages.spare runs (.of_same rfl rfl rfl rfl rfl rfl)
  | crash n => exact Stages.spare runs (spares_crash n)
  | restart n => exact Stages.spare runs (spares_restart n)
  | sendAppendEntries | installSnapshot => cases protocol
  | sendInstallSnapshot leader follower term snapshot requestId =>
      exact Sparing.staged sparing_sendInstallSnapshot runs
  | appendCurrentTerm n command => exact Staged.dropValue (Stage.staged (.append n command served))
  | newReplicator leader =>
      exact Sparing.tended (sparing_newReplicator tends _ _) runs fun tracked =>
        tracked.newReplicator _ _
  | beginActivityProbe i peer =>
      exact Sparing.staged (sparing_withReplicator fun r => sparing_beginActivityProbe r peer) runs
  | replicate i peer => exact Staged.dropValue (staged_replicate tends fixed)
  | recoverPeer i peer => exact Staged.dropValue (staged_recoverPeer tends fixed)
  | advanceCommitIndex i => exact Staged.dropValue (staged_advanceCommitIndex tends fixed i)
  | applyCommitted => cases served
  | kvApplyCommitted n => exact Staged.dropValue (Stage.staged (.apply n (members n rfl)))
  | createSnapshot n => exact Staged.dropValue (Stage.staged (.create n (members n rfl)))
  | compactSnapshot n => exact Staged.dropValue (Stage.staged (.compact n (members n rfl)))
  | newTransition leader =>
      have refused : Sparing False s (newTransition C leader s) := by
        unfold newTransition
        rw [fixed]
        exact .raised _ s
      exact Sparing.staged refused runs
  | proposeJoint i =>
      refine Sparing.staged (Sparing.dropValue ?_) runs
      unfold proposeJoint
      rw [none i]
      exact Spares.refl s
  | proposeFinalize i =>
      refine Sparing.staged (Sparing.dropValue ?_) runs
      unfold proposeFinalize
      rw [none i]
      exact Spares.refl s
  | activateIfCommitted i position =>
      refine Sparing.staged (sparing_withReplicator fun r => ?_) runs
      unfold activateIfCommitted
      rw [none i]
      exact Spares.refl s
  | finalizeIfCommitted i position =>
      refine Sparing.staged (sparing_withReplicator fun r => ?_) runs
      unfold finalizeIfCommitted
      rw [none i]
      exact Spares.refl s
  | replicateAndActivate i =>
      refine Sparing.staged (Sparing.dropValue ?_) runs
      unfold replicateAndActivate
      rw [none i]
      exact Spares.refl s
  | replicateAndFinalize i =>
      refine Sparing.staged (Sparing.dropValue ?_) runs
      unfold replicateAndFinalize
      rw [none i]
      exact Spares.refl s
  | recreate => cases continues
  | checkpoint => exact Sparing.staged sparing_checkpoint runs

theorem staged_step (tends : P.tends) (fixed : C.kind = .fixed) (empty : s.transitions = [])
    {event : Event ν} (continues : event.Continues) (protocol : event.Protocol (C := C))
    (served : event.Served P.appends) :
    Staged C P s (step C event s) := by
  unfold step
  split
  · exact .raised _ s
  next known =>
  refine staged_perform tends fixed empty continues protocol served fun n here => ?_
  rw [here] at known
  by_contra outside
  simp [Option.filter, outside] at known

theorem transitions_startTimers (s : Cluster ν) :
    (startTimers C s).transitions = s.transitions := by
  unfold startTimers
  generalize C.nodeIds = nodes
  induction nodes generalizing s with
  | nil => rfl
  | cons n rest ih =>
      exact (ih _).trans (spares_resetElectionTimeout (R := False)).transitions

/-- No transition of the membership begins in a run of fixed membership. -/
theorem transitions_run (tends : P.tends) (fixed : C.kind = .fixed) {events : List (Event ν)}
    (continues : ∀ event ∈ events, event.Continues)
    (protocol : ∀ event ∈ events, event.Protocol (C := C))
    (served : ∀ event ∈ events, event.Served P.appends) : (run C events).transitions = [] := by
  induction events using List.reverseRecOn with
  | nil => exact transitions_startTimers _
  | append_singleton events event ih =>
      have empty := ih (fun e member => continues e (List.mem_append_left _ member))
        (fun e member => protocol e (List.mem_append_left _ member))
        fun e member => served e (List.mem_append_left _ member)
      have last : event ∈ events ++ [event] := List.mem_append_right _ List.mem_cons_self
      have stages : Stages C P (run C events) (step C event (run C events)).state :=
        Outcome.Ensures.state (staged_step tends fixed empty (continues event last)
          (protocol event last) (served event last))
      unfold run at stages empty ⊢
      rw [runEvents_append]
      exact stages.transitions.trans empty

/-- **The events of a run are stages.** -/
theorem stages_run {events rest : List (Event ν)} (tends : P.tends) (fixed : C.kind = .fixed)
    (continues : ∀ event ∈ events ++ rest, event.Continues)
    (protocol : ∀ event ∈ events ++ rest, event.Protocol (C := C))
    (served : ∀ event ∈ events ++ rest, event.Served P.appends) :
    Stages C P (run C events) (run C (events ++ rest)) := by
  induction rest using List.reverseRecOn with
  | nil =>
      rw [List.append_nil]
      exact .refl _
  | append_singleton rest event ih =>
      rw [← List.append_assoc] at continues protocol served ⊢
      have before := ih (fun e member => continues e (List.mem_append_left _ member))
        (fun e member => protocol e (List.mem_append_left _ member))
        fun e member => served e (List.mem_append_left _ member)
      have empty := transitions_run tends fixed
        (fun e member => continues e (List.mem_append_left _ member))
        (fun e member => protocol e (List.mem_append_left _ member))
        fun e member => served e (List.mem_append_left _ member)
      have last : event ∈ events ++ rest ++ [event] := List.mem_append_right _ List.mem_cons_self
      refine before.trans ?_
      have stages : Stages C P (run C (events ++ rest))
          (step C event (run C (events ++ rest))).state :=
        Outcome.Ensures.state (staged_step tends fixed empty (continues event last)
          (protocol event last) (served event last))
      unfold run at stages ⊢
      rw [runEvents_append _ (events ++ rest) [event]]
      exact stages

end Distlab.Raft
