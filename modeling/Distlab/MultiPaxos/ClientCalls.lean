import Distlab.MultiPaxos.ApplicationCalls

/-!
# The calls of the client, the checks and the lifecycle

`submit`, `poll` and `execute` keep the invariant of the application, and so do
crashes, restarts and reconstructions. Under the invariant `assert_safety`
passes.
-/

set_option autoImplicit false

namespace Distlab.MultiPaxos

open Foundations Paxos Clients

variable {ν : Type}

/-! ## The journal -/

namespace ClientJournal

variable {journal after : ClientJournal} {request : MultiPaxosRequest}

/-- A registration keeps what was registered, and the requests distinct. -/
theorem register_registered (distinct : Distinct journal.registered)
    (registers : (journal.register request : Except (ApplicationError ν) ClientJournal) =
      .ok after) :
    journal.registered ⊆ after.registered ∧ Distinct after.registered := by
  unfold register at registers
  cases found : journal.requests.values.reverse.find? fun previous =>
      previous.identity = request.identity ∨ previous.operationId = request.operationId with
  | some previous =>
      rw [found] at registers
      dsimp only at registers
      split at registers
      next => cases registers
      next =>
        cases registers
        exact ⟨subset_rfl, distinct⟩
  | none =>
      rw [found] at registers
      have other : ∀ r ∈ journal.registered,
          r.identity ≠ request.identity ∧ r.operationId ≠ request.operationId := by
        intro r member
        have listed : r ∈ journal.requests.values.reverse :=
          List.mem_reverse.mpr (Dict.mem_values.mpr ⟨_, member⟩)
        have differs := List.find?_eq_none.mp found r listed
        simpa only [decide_eq_true_eq, not_or] using differs
      obtain ⟨history, rfl⟩ : ∃ history, after =
          { history := history,
            requests := journal.requests.insert request.operationId request } := by
        cases operation : request.operation.history? with
        | none =>
            rw [operation] at registers
            cases registers
            exact ⟨_, rfl⟩
        | some op =>
            rw [operation] at registers
            dsimp only at registers
            cases invoked : journal.history.invoke request.operationId request.clientId op with
            | error e =>
                rw [invoked] at registers
                cases registers
            | ok history =>
                rw [invoked] at registers
                cases registers
                exact ⟨_, rfl⟩
      have members : ∀ r ∈ registered
          { history := history, requests := journal.requests.insert request.operationId request },
          r = request ∨ r ∈ journal.registered := by
        intro r member
        rcases Dict.of_lookup_insert member with ⟨_, same⟩ | ⟨_, old⟩
        · exact .inl same
        · exact .inr old
      refine ⟨fun r member => ?_, fun r first r' second same => ?_,
        fun r first r' second same => ?_⟩
      · exact (Dict.lookup_insert ..).trans ((if_neg (other r member).2).trans member)
      · rcases members r first with rfl | old <;> rcases members r' second with rfl | old'
        · rfl
        · exact absurd same.symm (other r' old').1
        · exact absurd same (other r old).1
        · exact distinct.identity r old r' old' same
      · rcases members r first with rfl | old <;> rcases members r' second with rfl | old'
        · rfl
        · exact absurd same.symm (other r' old').2
        · exact absurd same (other r old).2
        · exact distinct.operationId r old r' old' same

end ClientJournal

variable [LinearOrder ν] {M : Membership ν}

namespace Application

omit [LinearOrder ν] in
theorem acknowledgeResponse_requests {request : MultiPaxosRequest} {result : Option String}
    {journal after : ClientJournal}
    (acknowledges : (acknowledgeResponse request result journal :
      Except (ApplicationError ν) ClientJournal) = .ok after) :
    after.requests = journal.requests := by
  unfold acknowledgeResponse at acknowledges
  cases operation : request.operation.history? with
  | none =>
      rw [operation] at acknowledges
      cases acknowledges
      rfl
  | some op =>
      rw [operation] at acknowledges
      dsimp only at acknowledges
      cases completed : journal.history.completed request.operationId with
      | none =>
          rw [completed] at acknowledges
          dsimp only at acknowledges
          cases responded : journal.history.respond request.operationId result with
          | error e =>
              rw [responded] at acknowledges
              cases acknowledges
          | ok history =>
              rw [responded] at acknowledges
              cases acknowledges
              rfl
      | some completion =>
          rw [completed] at acknowledges
          dsimp only at acknowledges
          split at acknowledges
          next => cases acknowledges
          next =>
            cases acknowledges
            rfl

variable {a : Application ν} (sound : Sound M a)

include sound

/-! ## Calls of the client -/

theorem reply_advances (status : ClientStatus) (n : ν) (request : MultiPaxosRequest)
    (slot : Option ℕ) (value : Option String) (ballot : Option (ProposalNumber ν)) :
    Advances (M := M) a (reply M status n request slot value ballot a) :=
  Advances.bind (sound.require _) fun _ _ checked => checked.sound.follows

/-- A journal with the same requests. -/
theorem Sound.setHistory {journal : ClientJournal} (same : journal.requests = a.journal.requests) :
    Follows M a (a.setJournal journal) := by
  have registered : journal.registered = a.journal.registered := by
    unfold ClientJournal.registered
    rw [same]
  exact sound.setJournal registered.ge (registered ▸ sound.distinct)

theorem observeApplied_advances (n : ν) (request : MultiPaxosRequest) (record : AppliedRequest)
    (acknowledge : Bool) :
    Advances (M := M) a (observeApplied M n request record acknowledge a) := by
  unfold observeApplied
  split
  next => exact reply_advances sound ..
  next =>
    refine Advances.bind (sound.require _) fun applied b checked => ?_
    cases applied[record.slot - 1]? with
    | none => exact checked.sound.follows.raises _
    | some decision =>
        dsimp only
        split
        next => exact checked.sound.follows.raises _
        next =>
          cases acknowledged : (if acknowledge then
              acknowledgeResponse request record.result b.journal else .ok b.journal :
              Except (ApplicationError ν) ClientJournal) with
          | error e => exact checked.sound.follows.raises e
          | ok journal =>
              have same : journal.requests = b.journal.requests := by
                split at acknowledged
                next => exact acknowledgeResponse_requests acknowledged
                next =>
                  cases acknowledged
                  rfl
              have written := checked.sound.setHistory same
              exact written.then (reply_advances written.sound ..)

theorem poll_advances (n : ν) (request : MultiPaxosRequest)
    (expectedBallot : Option (ProposalNumber ν)) (apply acknowledge : Bool) :
    Advances (M := M) a (poll M n request expectedBallot apply acknowledge a) := by
  unfold poll
  split
  next => exact sound.follows.raises _
  next =>
    split
    next => exact sound.follows.raises _
    next =>
      refine Advances.bind (sound.require _) fun authority b checked => ?_
      split
      next => exact reply_advances checked.sound ..
      next =>
        split
        next => exact reply_advances checked.sound ..
        next =>
          refine Advances.bind ?_ fun _ c advanced => ?_
          · split
            next => exact Advances.bind (applyReady_advances checked.sound n) fun _ c applied =>
              applied.sound.follows
            next => exact checked.sound.follows
          · refine Advances.bind (clientRequests_advances advanced.sound n)
              fun requests d read => ?_
            cases requests.lookup request.identity with
            | some record => exact observeApplied_advances read.sound ..
            | none =>
                dsimp only
                split
                next => exact reply_advances read.sound ..
                next => exact reply_advances read.sound ..

/-- `poll` returns for registered requests only. -/
theorem registered_of_poll {n : ν} {request : MultiPaxosRequest}
    {expectedBallot : Option (ProposalNumber ν)} {apply acknowledge : Bool}
    {result : ClientResult ν} {b : Application ν}
    (returned : poll M n request expectedBallot apply acknowledge a = .returns result b) :
    request ∈ b.journal.registered := by
  have follows : Follows M a b := by
    have advances := poll_advances sound n request expectedBallot apply acknowledge
    rw [returned] at advances
    exact advances
  refine follows.registered
    (show a.journal.requests.lookup request.operationId = some request from ?_)
  by_contra unknown
  rw [poll, if_pos unknown] at returned
  cases returned

theorem sendRequest_advances (n : ν) {request : MultiPaxosRequest} (slot : Option ℕ)
    (known : request ∈ a.journal.registered) :
    Advances (M := M) a (sendRequest M n request slot a) := by
  unfold sendRequest
  cases (pendingProposals a.cluster n).find? (·.value = .request request) with
  | some pending =>
      exact Advances.bind (retryProposal_advances sound n pending.slot) fun _ b retried =>
        reply_advances retried.sound ..
  | none =>
      dsimp only
      split
      next => exact reply_advances sound ..
      next =>
        have carries : (Value.request request).Carries a.journal.registered := known
        exact Advances.bind (propose_advances sound n _ carries) fun _ b proposed =>
          reply_advances proposed.sound ..

theorem submit_advances (n : ν) (request : MultiPaxosRequest) (slot : Option ℕ) :
    Advances (M := M) a (submit M n request slot a) := by
  unfold submit
  split
  next => exact sound.follows.raises _
  next =>
    split
    next => exact sound.follows.raises _
    next =>
      cases registers :
          (a.journal.register request : Except (ApplicationError ν) ClientJournal) with
      | error e =>
          cases e with
          | conflict => exact reply_advances sound ..
          | _ => exact sound.follows.raises _
      | ok journal =>
          obtain ⟨more, distinct⟩ := ClientJournal.register_registered sound.distinct registers
          have written := sound.setJournal more distinct
          refine written.then ?_
          dsimp only
          split
          next => exact reply_advances written.sound ..
          next =>
            refine Advances.bind (written.sound.require _) fun authority b checked => ?_
            split
            next => exact reply_advances checked.sound ..
            next =>
              refine Outcome.Ensures.bind
                (poll_advances checked.sound n request none false false)
                (fun observed c returned polled => polled.then ?_) fun _ => id
              split
              next => exact polled.sound.follows
              next =>
                exact sendRequest_advances polled.sound n slot
                  (registered_of_poll checked.sound returned)

theorem repairPrefix_advances (n : ν) : Advances (M := M) a (repairPrefix M n a) := by
  unfold repairPrefix
  refine Advances.bind (sound.require _) fun authority b checked => ?_
  split
  next => exact checked.sound.follows
  next =>
    refine Advances.bind (checked.sound.require _) fun applied c read => ?_
    refine Outcome.ensures_forEach (P := Follows M c) (fun slot _ d repaired => ?_) c
      read.sound.follows
    refine repaired.then ?_
    split
    next => exact repaired.sound.follows
    next =>
      split
      next => exact retryProposal_advances repaired.sound n slot
      next => exact propose_advances repaired.sound n slot trivial

theorem deliverAll_advances (positions : List ℕ) :
    Advances (M := M) a (deliverAll M positions a) := by
  refine Outcome.ensures_forEach (P := Follows M a) (fun position _ b delivered => ?_) a
    sound.follows
  exact delivered.then (delivered.sound.event trivial fun _ same => by cases same)

theorem applyEverywhere_advances : Advances (M := M) a (applyEverywhere M a) := by
  refine Outcome.ensures_forEach (P := Follows M a) (fun peer _ b applied => ?_) a sound.follows
  refine applied.then ?_
  split
  next => exact Advances.bind (applyReady_advances applied.sound peer) fun _ c ready =>
    ready.sound.follows
  next => exact applied.sound.follows

/-- The rounds of `execute`, by induction on the rounds that are left. -/
theorem executeRounds_advances (n : ν) (request : MultiPaxosRequest) (rounds : List (List ℕ))
    (result : ClientResult ν) :
    Advances (M := M) a (executeRounds M n request rounds result a) := by
  induction rounds generalizing a result with
  | nil =>
      unfold executeRounds
      split
      next => exact reply_advances sound ..
      next => exact sound.follows
  | cons positions rounds ih =>
      unfold executeRounds
      split
      next => exact sound.follows
      next =>
        refine Advances.bind (repairPrefix_advances sound n) fun _ b repaired => ?_
        refine Advances.bind (deliverAll_advances repaired.sound positions) fun _ c delivered => ?_
        refine Advances.bind (applyEverywhere_advances delivered.sound) fun _ d applied => ?_
        refine Advances.bind (poll_advances applied.sound n request none true true)
          fun polled e observed => ?_
        split
        next => exact observed.sound.follows
        next =>
          exact Advances.bind (submit_advances observed.sound n request none) fun result f again =>
            ih again.sound result

theorem execute_advances (n : ν) (request : MultiPaxosRequest) (rounds : List (List ℕ)) :
    Advances (M := M) a (execute M n request rounds a) :=
  Advances.bind (submit_advances sound n request none) fun result _ submitted =>
    executeRounds_advances submitted.sound n request rounds result

/-! ## Safety -/

omit sound in
theorem sameItems_self {κ β : Type} [DecidableEq κ] [DecidableEq β] (d : Dict κ β) :
    sameItems d d = true := by
  have found : d.entries.all (fun entry => d.lookup entry.1 = some entry.2) = true :=
    List.all_eq_true.mpr fun entry member => decide_eq_true (AList.mem_lookup_iff.mpr member)
  rw [sameItems, found]
  rfl

/-- The reference of `assert_safety` has recorded values. -/
def Recorded (a : Application ν) (reference : Reference ν) : Prop :=
  ∀ slot n value, reference.lookup slot = some (n, value) →
    ∃ d, a.cluster.chosen.lookup slot = some d ∧ d.value = value

theorem assertApplied_ok {n : ν} {reference : Reference ν} (recorded : Recorded a reference)
    {i : ℕ} {decision : SlotLearnedDecision ν Value}
    (applied : (a.applied n)[i]? = some decision) :
    ∃ after, assertApplied M n a reference decision = .ok after ∧ Recorded a after := by
  have learned := sound.learned n i decision applied
  obtain ⟨d, chosen, same⟩ := sound.recorded learned
  have atSlot := sound.slot applied
  unfold assertApplied
  rw [sound.requireChosen_ok learned]
  simp only [bind, Except.bind]
  cases found : reference.lookup decision.slot with
  | some canonical =>
      obtain ⟨d', chosen', same'⟩ := recorded _ canonical.1 canonical.2 found
      rw [atSlot, chosen] at chosen'
      cases chosen'
      exact ⟨reference, if_neg (not_not.mpr (same'.symm.trans same)), recorded⟩
  | none =>
      refine ⟨_, rfl, fun slot m value entered => ?_⟩
      rcases Dict.of_lookup_insert entered with ⟨rfl, ⟨⟩⟩ | ⟨_, old⟩
      · exact ⟨d, atSlot ▸ chosen, same⟩
      · exact recorded slot m value old

theorem assertNode_ok {reference : Reference ν} (recorded : Recorded a reference) (n : ν) :
    ∃ after, assertNode M a reference n = .ok after ∧ Recorded a after := by
  obtain ⟨image, done, _⟩ := sound.replay_ok n
  have replays : replayed (ν := ν) (a.applied n) = .ok image := by
    rw [replayed, done]
    rfl
  have each : ∀ decisions : List (SlotLearnedDecision ν Value),
      (∀ d ∈ decisions, d ∈ a.applied n) → ∀ reference, Recorded a reference →
      ∃ after, decisions.foldlM (assertApplied M n a) reference = .ok after ∧ Recorded a after := by
    intro decisions
    induction decisions with
    | nil => exact fun _ reference recorded => ⟨reference, rfl, recorded⟩
    | cons decision rest ih =>
        intro members reference recorded
        obtain ⟨i, found⟩ := List.getElem?_of_mem (members decision List.mem_cons_self)
        obtain ⟨after, passes, recorded'⟩ := assertApplied_ok sound recorded found
        rw [List.foldlM_cons, passes]
        exact ih (fun d member => members d (List.mem_cons_of_mem _ member)) after recorded'
  obtain ⟨after, passes, recorded'⟩ := each _ (fun _ => id) reference recorded
  unfold assertNode
  rw [sound.durableApplied_ok n]
  simp only [bind, Except.bind, passes, replays]
  cases loaded : a.machine n with
  | none => exact ⟨after, rfl, recorded'⟩
  | some machine =>
      obtain ⟨through, replay⟩ := sound.machine n machine loaded
      obtain rfl : image = machine.image := Except.ok.inj (done.symm.trans replay)
      refine ⟨after, if_neg ?_, recorded'⟩
      simp [through, sameItems_self]

/-- **`assert_safety` never raises** under the invariant. -/
theorem assertSafety_ok : assertSafety M a = .ok () := by
  have start : Recorded a (∅ : Reference ν) := fun slot n value found => by
    rw [AList.lookup_empty] at found
    cases found
  obtain ⟨reference, passes, _⟩ : ∃ reference,
      M.nodeIds.foldlM (assertNode M a) ∅ = .ok reference ∧ Recorded a reference :=
    exists_foldlM_eq_ok (fun reference n _ recorded => assertNode_ok sound recorded n) ∅ start
  unfold assertSafety
  rw [sound.cluster.assertSafety_eq]
  simp only [protocolCheck, Except.mapError, bind, Except.bind, passes]
  rfl

/-! ## Lifecycle -/

theorem crash_follows (n : ν) : Follows M a (crash n a) := by
  have stopped := sound.cluster.setAlive (Function.update a.cluster.alive n false)
  have crashed : Continues M (a.journal.proposals ν) a.cluster (MultiPaxos.crash n a.cluster) :=
    stopped.trans (stopped.inv.handleCrash n)
  have recorded : MultiPaxos.Recorded a.cluster (MultiPaxos.crash n a.cluster) :=
    sound.covered.same (fun _ _ => rfl) rfl rfl rfl
  have follows : Follows M a { a with cluster := MultiPaxos.crash n a.cluster } :=
    sound.follows_cluster crashed recorded
  exact follows.trans (follows.sound.dropMachine n)

theorem restart_follows (n : ν) : Follows M a (restart n a) := by
  have started := sound.cluster.setAlive (Function.update a.cluster.alive n true)
  have restarted : Continues M (a.journal.proposals ν) a.cluster
      (MultiPaxos.restart n a.cluster) := started.trans (started.inv.handleCrash n)
  have recorded : MultiPaxos.Recorded a.cluster (MultiPaxos.restart n a.cluster) :=
    sound.covered.same (fun _ _ => rfl) rfl rfl rfl
  have follows : Follows M a { a with cluster := MultiPaxos.restart n a.cluster } :=
    sound.follows_cluster restarted recorded
  exact follows.trans (follows.sound.dropMachine n)

/-- A reconstruction succeeds and keeps what the nodes learned and applied. -/
theorem reconstruct_keeps :
    ∃ b, reconstruct M a = .returns () b ∧ Follows M a b ∧ b.applied = a.applied ∧
      b.journal = a.journal ∧ (∀ n, b.cluster.alive n = true) ∧
      ∀ n slot, learnedDecision b.cluster n slot = learnedDecision a.cluster n slot := by
  obtain ⟨cluster, returned, done, covered, learns, alive, learned, chosen⟩ :=
    reconstruct_records sound.cluster true
  have follows : Follows M a { a with cluster := cluster, machine := fun _ => none } := by
    refine ⟨⟨done.inv, covered, learns, fun n i d found => ?_, fun n m found => (by cases found),
      sound.distinct⟩, fun _ => List.prefix_rfl, fun n slot d found => ?_, chosen, subset_rfl⟩
    · rw [learned]
      exact sound.learned n i d found
    · rwa [learned]
  refine ⟨_, ?_, follows, rfl, rfl, alive, learned⟩
  unfold reconstruct
  rw [returned]
  dsimp only
  rw [construct, if_neg (by simp [learns]), assertSafety_ok follows.sound]
  rfl

/-! ## Runs -/

omit sound in
theorem discard_advances {β : Type} {outcome : AppOp ν β} (advances : Advances (M := M) a outcome) :
    Advances (M := M) a (discard outcome) :=
  Advances.bind advances fun _ _ follows => follows.sound.follows

theorem lifecycle_advances {n : ν} {change : Application ν → Application ν}
    (follows : Follows M a (change a)) : Advances (M := M) a (lifecycle M n change a) := by
  unfold lifecycle
  split
  next => exact follows
  next => exact sound.follows.raises _

/-- **The step lemma.** Every call keeps the invariant, also when it raises. -/
theorem perform_advances (call : Call ν) : Advances (M := M) a (perform M call a) := by
  cases call with
  | prepareLeadership n roundNumber => exact sound.event trivial fun _ same => by cases same
  | retryProposal n slot => exact sound.event trivial fun _ same => by cases same
  | recoverDecisions n startSlot => exact sound.event trivial fun _ same => by cases same
  | deliver position => exact sound.event trivial fun _ same => by cases same
  | crash n => exact lifecycle_advances sound (crash_follows sound n)
  | restart n => exact lifecycle_advances sound (restart_follows sound n)
  | reconstruct =>
      obtain ⟨b, returned, follows, _⟩ := reconstruct_keeps sound
      simp only [perform, returned]
      exact follows
  | applyReady n => exact discard_advances (applyReady_advances sound n)
  | state n => exact discard_advances (stateOf_advances sound n)
  | clientRequests n => exact discard_advances (clientRequests_advances sound n)
  | assertSafety => exact sound.require _
  | submit n request slot => exact discard_advances (submit_advances sound n request slot)
  | poll n request expectedBallot apply acknowledge =>
      exact discard_advances (poll_advances sound n request expectedBallot apply acknowledge)
  | execute n request rounds =>
      exact discard_advances (execute_advances sound n request rounds)

omit sound in
theorem fresh_sound (M : Membership ν) : Sound M (fresh : Application ν) := by
  refine ⟨fresh_inv M _ true, ⟨fun n slot d found => ?_, fun m sent => by cases sent⟩, rfl,
    fun n i d found => ?_, fun n m found => (by cases found), ?_⟩
  · simp [fresh, learnedDecision, Cluster.fresh, Durable.fresh] at found
  · simp [fresh] at found
  · refine ⟨fun r member => ?_, fun r member => ?_⟩ <;>
      exact absurd member (by simp [fresh, ClientJournal.registered])

omit sound in
/-- **The run lemma.** Later calls only extend what a run has reached. -/
theorem after_follows (M : Membership ν) (calls more : List (Call ν)) :
    Follows M (after M calls) (after M (calls ++ more)) := by
  have holds : ∀ calls (a : Application ν), Sound M a →
      Follows M a (runEvents (perform M) calls a) := by
    intro calls a sound
    exact runEvents_invariant (P := Follows M a)
      (fun call b follows => follows.trans (perform_advances follows.sound call).state) calls a
      sound.follows
  rw [after, after, runEvents_append]
  exact holds more _ (holds calls fresh (fresh_sound M)).sound

omit sound in
theorem after_sound (M : Membership ν) (calls : List (Call ν)) : Sound M (after M calls) :=
  (after_follows M [] calls).sound

end Application

end Distlab.MultiPaxos
