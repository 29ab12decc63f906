import Distlab.MultiPaxos.AppliedPrefix

/-!
# Every call keeps the invariant of the application

The calls of the state machine and of the client, one by one, also where they
raise. A call of the client registers its request before it proposes it.
-/

set_option autoImplicit false

namespace Distlab.MultiPaxos

open Foundations Paxos Clients

variable {ν : Type} [LinearOrder ν] {M : Membership ν}

namespace Application

variable {a : Application ν} (sound : Sound M a)

include sound

/-! ## Elementary writes -/

/-- The protocol moves on. -/
theorem Sound.follows_cluster {cluster : Cluster ν Value}
    (continues : Continues M (a.journal.proposals ν) a.cluster cluster)
    (recorded : Recorded a.cluster cluster) : Follows M a { a with cluster := cluster } :=
  ⟨⟨continues.inv, recorded.covered, recorded.learnDecisions.trans sound.learns,
    fun n i d found => recorded.learned n _ d (sound.learned n i d found), sound.machine,
    sound.distinct⟩, fun _ => List.prefix_rfl, recorded.learned,
    fun slot d found => ⟨d, recorded.chosen slot d found, rfl⟩, subset_rfl⟩

/-- An operation of the protocol that proposes what the journal allows. -/
theorem Sound.protocol {β : Type} {op : Cluster ν Value → Op ν Value β}
    (keeps : (op a.cluster).Ensures (Continues M (a.journal.proposals ν) a.cluster)
      (Permitted (a.journal.proposals ν)))
    (records : Records a.cluster (op a.cluster)) : Advances (M := M) a (protocol op a) := by
  unfold Application.protocol
  cases outcome : op a.cluster with
  | returns b cluster =>
      rw [outcome] at keeps records
      exact sound.follows_cluster keeps records
  | raises e cluster =>
      rw [outcome] at keeps records
      exact (sound.follows_cluster keeps.1 records.1).raises _

/-- A journal that registers more requests, all distinct. -/
theorem Sound.setJournal {journal : ClientJournal}
    (more : a.journal.registered ⊆ journal.registered) (distinct : Distinct journal.registered) :
    Follows M a (a.setJournal journal) := by
  have carried : a.journal.proposals ν ⊆ journal.proposals ν := fun p carries =>
    Value.Carries.mono more carries
  exact ⟨⟨sound.cluster.retarget (sound.cluster.proposed_subset.trans carried), sound.covered,
    sound.learns, sound.learned, sound.machine, distinct⟩, fun _ => List.prefix_rfl,
    fun _ _ _ => id, fun _ d found => ⟨d, found, rfl⟩, more⟩

/-- The machine of a node is loaded with the replay of its prefix. -/
theorem Sound.setMachine {n : ν} {image : KVImage} (replayed : replay (a.applied n) = .ok image) :
    Follows M a (a.setMachine n ⟨(a.applied n).length, image⟩) := by
  refine ⟨⟨sound.cluster, sound.covered, sound.learns, sound.learned, fun m machine found => ?_,
    sound.distinct⟩, fun _ => List.prefix_rfl, fun _ _ _ => id, fun _ d found => ⟨d, found, rfl⟩,
    subset_rfl⟩
  by_cases same : m = n
  · subst same
    rw [setMachine_machine, if_pos rfl] at found
    cases found
    exact ⟨rfl, replayed⟩
  · rw [setMachine_machine, if_neg same] at found
    exact sound.machine m machine found

/-- The machine of a node is dropped. -/
theorem Sound.dropMachine (n : ν) :
    Follows M a { a with machine := Function.update a.machine n none } := by
  refine ⟨⟨sound.cluster, sound.covered, sound.learns, sound.learned, fun m machine found => ?_,
    sound.distinct⟩, fun _ => List.prefix_rfl, fun _ _ _ => id, fun _ d found => ⟨d, found, rfl⟩,
    subset_rfl⟩
  by_cases same : m = n
  · subst same
    simp at found
  · have kept : a.machine m = some machine := by simpa [same] using found
    exact sound.machine m machine kept

/-- The next learned decision is applied. -/
theorem Sound.writeApplied {n : ν} {decision : SlotLearnedDecision ν Value} {image after : KVImage}
    (next : learnedDecision a.cluster n ((a.applied n).length + 1) = some decision)
    (replayed : replay (a.applied n) = .ok image)
    (applies : applyDecision image decision = .ok after) :
    Follows M a (a.writeApplied n decision after) ∧
      replay ((a.writeApplied n decision after).applied n) = .ok after := by
  have extended : replay (a.applied n ++ [decision]) = .ok after := by
    rw [replay_append_singleton, replayed]
    exact applies
  refine ⟨⟨⟨sound.cluster, sound.covered, sound.learns, fun m i d found => ?_,
    fun m machine found => ?_, sound.distinct⟩, fun m => ?_, fun _ _ _ => id,
    fun _ d found => ⟨d, found, rfl⟩, subset_rfl⟩, ?_⟩
  · rw [writeApplied_applied] at found
    split at found
    next same =>
      subst same
      rcases Nat.lt_or_ge i (a.applied m).length with old | new
      · rw [List.getElem?_append_left old] at found
        exact sound.learned m i d found
      · rw [List.getElem?_append_right new] at found
        obtain ⟨below, rfl⟩ := List.getElem?_eq_some_iff.mp found
        have last : i = (a.applied m).length := by
          rw [List.length_singleton] at below
          omega
        subst last
        simp only [Nat.sub_self, List.getElem_cons_zero]
        exact next
    next => exact sound.learned m i d found
  · rw [writeApplied_machine] at found
    rw [writeApplied_applied]
    split at found
    next same =>
      subst same
      cases found
      refine ⟨?_, by rwa [if_pos rfl]⟩
      rw [if_pos rfl, List.length_append, List.length_singleton]
      exact (sound.evidence next).1
    next other =>
      rw [if_neg other]
      exact sound.machine m machine found
  · rw [writeApplied_applied]
    split
    next same =>
      subst same
      exact List.prefix_append ..
    next => exact List.prefix_rfl
  · rwa [writeApplied_applied, if_pos rfl]

/-! ## The state machine -/

/-- `_machine` returns the replay of the durable prefix. -/
theorem loadMachine_returns (n : ν) :
    ∃ machine b, loadMachine M n a = .returns machine b ∧ Follows M a b ∧
      b.cluster = a.cluster ∧ b.applied = a.applied ∧ b.journal = a.journal ∧
      replay (a.applied n) = .ok machine.image := by
  unfold loadMachine
  rw [sound.durableApplied_ok n]
  simp only [require, Outcome.bind_returns, sound.requireEach_ok n]
  cases loaded : a.machine n with
  | none =>
      obtain ⟨image, done, _⟩ := sound.replay_ok n
      have replays : replayed (ν := ν) (a.applied n) = .ok image := by
        rw [replayed, done]
        rfl
      rw [replays]
      exact ⟨_, _, rfl, sound.setMachine done, rfl, rfl, rfl, done⟩
  | some machine =>
      obtain ⟨through, done⟩ := sound.machine n machine loaded
      exact ⟨machine, a, if_neg (not_not.mpr through), sound.follows, rfl, rfl, rfl, done⟩

theorem loadMachine_advances (n : ν) : Advances (M := M) a (loadMachine M n a) := by
  obtain ⟨machine, b, returned, follows, _⟩ := loadMachine_returns sound n
  rw [returned]
  exact follows

theorem stateOf_advances (n : ν) : Advances (M := M) a (stateOf M n a) := by
  unfold stateOf
  refine Advances.bind (sound.require _) fun _ b checked => ?_
  exact Advances.bind (loadMachine_advances checked.sound n) fun _ c loaded =>
    loaded.sound.follows

theorem clientRequests_advances (n : ν) : Advances (M := M) a (clientRequests M n a) := by
  unfold clientRequests
  refine Advances.bind (sound.require _) fun _ b checked => ?_
  exact Advances.bind (loadMachine_advances checked.sound n) fun _ c loaded =>
    loaded.sound.follows

/-- **The loop of `apply_ready`.** It returns after it has applied the learned decisions
it had time for. -/
theorem applyLoop_returns {n : ν} (fuel : ℕ) {machine : Machine}
    (replayed : replay (a.applied n) = .ok machine.image) :
    ∃ decisions b, applyLoop M n fuel machine a = .returns decisions b ∧ Follows M a b ∧
      b.cluster = a.cluster ∧ b.journal = a.journal ∧
      (learnedDecision b.cluster n ((b.applied n).length + 1) = none ∨
        (b.applied n).length = (a.applied n).length + fuel) := by
  induction fuel generalizing a machine with
  | zero => exact ⟨[], a, rfl, sound.follows, rfl, rfl, .inr rfl⟩
  | succ fuel ih =>
      unfold applyLoop
      cases next : learnedDecision a.cluster n ((a.applied n).length + 1) with
      | none => exact ⟨[], a, rfl, sound.follows, rfl, rfl, .inl next⟩
      | some decision =>
          obtain ⟨image, done, holds⟩ := sound.replay_ok n
          obtain rfl : image = machine.image := Except.ok.inj (done.symm.trans replayed)
          obtain ⟨after, applies, _⟩ :=
            applyDecision_ok sound.distinct holds (sound.carries next)
          obtain ⟨written, replayed'⟩ := sound.writeApplied next replayed applies
          obtain ⟨rest, b, returned, follows, cluster, journal, stops⟩ :=
            @ih _ written.sound ⟨decision.slot, after⟩ replayed'
          refine ⟨decision :: rest, b, ?_, written.trans follows, cluster, journal, ?_⟩
          · simp only [sound.requireChosen_ok next, require, Outcome.bind_returns, applies,
              Except.mapError, returned]
          · refine stops.imp id fun length => ?_
            rw [length]
            simp only [Application.writeApplied, Function.update_self, List.length_append,
              List.length_singleton]
            omega

/-- **Nothing learned is left out.** The loop of `apply_ready` ends at a slot the node has
not learned. -/
theorem applyLoop_exhausts {n : ν} {machine : Machine}
    (replayed : replay (a.applied n) = .ok machine.image) :
    ∃ decisions b, applyLoop M n ((a.learnedSlots n).length + 1) machine a =
        .returns decisions b ∧ Follows M a b ∧
      learnedDecision b.cluster n ((b.applied n).length + 1) = none := by
  obtain ⟨decisions, b, returned, follows, cluster, _, stops⟩ :=
    applyLoop_returns sound ((a.learnedSlots n).length + 1) replayed
  refine ⟨decisions, b, returned, follows, stops.resolve_right fun length => ?_⟩
  have bound := follows.sound.length_le n
  rw [learnedSlots, cluster] at bound
  change (b.applied n).length ≤ (a.learnedSlots n).length at bound
  omega

/-- What `apply_ready` does to a protocol node. -/
theorem recoverDecisions_advances (n : ν) (startSlot : ℕ) :
    Advances (M := M) a (Application.protocol (recoverDecisions M n startSlot) a) :=
  sound.protocol (recoverDecisions_ensures sound.cluster n startSlot)
    (recoverDecisions_records sound.covered n startSlot)

theorem applyReady_advances (n : ν) : Advances (M := M) a (applyReady M n a) := by
  unfold applyReady
  cases alive : requireAlive M n a with
  | error e => exact sound.follows.raises e
  | ok =>
      obtain ⟨machine, b, returned, loaded, _, applied, _, replayed⟩ := loadMachine_returns sound n
      simp only [require, Outcome.bind_returns, returned]
      obtain ⟨decisions, c, returned, follows, _⟩ :=
        applyLoop_exhausts loaded.sound (applied.symm ▸ replayed)
      rw [returned, Outcome.bind_returns]
      refine (loaded.trans follows).then (Advances.bind (follows.sound.require _)
        fun _ d checked => ?_)
      exact Advances.bind (recoverDecisions_advances checked.sound n _) fun _ e recovered =>
        recovered.sound.follows

/-! ## Events of the protocol -/

/-- An event that proposes nothing and reconstructs nothing. -/
theorem Sound.event {event : Event ν Value}
    (within : ProposesWithin M (a.journal.proposals ν) a.cluster event)
    (kept : ∀ learn, event ≠ .reconstruct learn) :
    Advances (M := M) a (Application.protocol (step M event) a) :=
  sound.protocol (step_ensures sound.cluster within) (step_records sound.covered kept)

theorem retryProposal_advances (n : ν) (slot : ℕ) :
    Advances (M := M) a (Application.protocol (retryProposal M n slot) a) :=
  sound.protocol (retryProposal_ensures sound.cluster n slot)
    (retryProposal_records sound.covered n slot)

/-- A proposal carries the caller's value, or one that was accepted before. -/
theorem propose_advances (n : ν) (slot : ℕ) {value : Value}
    (carries : value.Carries a.journal.registered) :
    Advances (M := M) a (Application.protocol (propose M n slot value) a) := by
  refine sound.protocol (propose_ensures sound.cluster n fun p proposed => ?_)
    (propose_records sound.covered n slot value)
  unfold proposalOf at proposed
  split at proposed
  next => cases proposed
  next =>
    cases leads : (a.cluster.volatile n).leaderBallot with
    | none =>
        rw [leads] at proposed
        cases proposed
    | some ballot =>
        cases adopts : adoptedValue a.cluster n slot with
        | error violation =>
            rw [leads, adopts] at proposed
            cases proposed
        | ok adopted =>
            rw [leads, adopts] at proposed
            cases proposed
            cases adopted with
            | none => exact carries
            | some highest =>
                unfold adoptedValue at adopts
                cases top : (promisedAt a.cluster n slot).argmax (·.proposal) with
                | none =>
                    rw [top] at adopts
                    cases adopts
                | some best =>
                    rw [top] at adopts
                    dsimp only at adopts
                    split at adopts
                    next => cases adopts
                    next =>
                      cases adopts
                      obtain ⟨_, m, voted⟩ := (sound.cluster.leader n ballot leads).of_promisedAt
                        (List.argmax_mem top)
                      exact (sound.cluster.voted m _ voted).proposed

end Application

end Distlab.MultiPaxos
