import Distlab.Raft.Replicas

/-!
# The image of a log

A command has on a KV image the effect that its request has in a replay. So what a
node executes, in any batches, and what it restores from a snapshot or from its
stored history is the image of the entries.
-/

set_option autoImplicit false

namespace Distlab.Raft

open Foundations Deduplication

variable {ν : Type} [LinearOrder ν] {log : List (LogEntry (Command ν))} {n : ν} {s t : Cluster ν}

/-! ## Images -/

theorem view_executeOperation (operation : KVOperation) (state : Dict String String) :
    (fun key => (executeOperation operation state).lookup key) =
      operation.execute fun key => state.lookup key := by
  funext key
  cases operation with
  | put target value =>
      rw [executeOperation, Dict.lookup_insert, KVOperation.execute, Function.update_apply]
  | delete target =>
      rw [executeOperation, Dict.lookup_erase, KVOperation.execute, Function.update_apply]

/-- A request that the image has neither seen nor seen a later one of. -/
theorem fresh_view {image : KVImage} {clientId : String} {requestId : ℕ} :
    image.view.Fresh clientId requestId ↔
      image.requests.lookup (clientId, requestId) = none ∧
        ¬ isStale image clientId requestId = true := by
  unfold isStale
  rw [List.any_eq_true]
  constructor
  · refine fun fresh => ⟨fresh requestId le_rfl, ?_⟩
    rintro ⟨⟨owner, seen⟩, listed, later⟩
    obtain ⟨rfl, beyond⟩ : owner = clientId ∧ requestId < seen := of_decide_eq_true later
    have absent : image.requests.lookup (owner, seen) = none := fresh seen beyond.le
    exact AList.lookup_eq_none.mp absent (AList.mem_keys.mpr listed)
  · rintro ⟨absent, current⟩ later after
    show image.requests.lookup (clientId, later) = none
    rcases after.eq_or_lt with rfl | after
    · exact absent
    · by_contra present
      refine current ⟨(clientId, later), ?_, by simpa using after⟩
      exact AList.mem_keys.mp (AList.lookup_isSome.mp (Option.isSome_iff_ne_none.mpr present))

omit [LinearOrder ν] in
/-- **One command** has on an image the effect that its request has on the view. -/
theorem view_applyCommand {command : Command ν} {image next : KVImage}
    (applied : applyCommand n command image = .ok next) :
    next.view = apply KVOperation.execute command.request image.view := by
  cases command with
  | operation op =>
      cases applied
      unfold KVImage.view Command.request apply
      dsimp only
      rw [view_executeOperation]
  | clientRequest clientId requestId op =>
      unfold applyCommand at applied
      dsimp only at applied
      split at applied
      next previous found =>
        split at applied
        · cases applied
        · cases applied
          refine (apply_of_not_fresh op fun fresh => ?_).symm
          rw [(fresh_view.mp fresh).1] at found
          cases found
      next absent =>
        split at applied
        next stale =>
          cases applied
          exact (apply_of_not_fresh op fun fresh => (fresh_view.mp fresh).2 stale).symm
        next current =>
          cases applied
          refine Eq.trans ?_ (apply_of_fresh op (fresh_view.mpr ⟨absent, current⟩)).symm
          unfold KVImage.view
          dsimp only
          rw [view_executeOperation]
          congr 1
          funext owner id
          rw [Dict.lookup_insert]
          by_cases same : owner = clientId
          · subst same
            rw [Function.update_self, Function.update_apply]
            simp
          · rw [Function.update_of_ne same, if_neg fun equal => same (Prod.mk.inj equal).1]
  | jointConsensus newVoters =>
      cases applied
      rfl
  | stableConsensus voters =>
      cases applied
      rfl
  | commitRecoveryBarrier =>
      cases applied
      rfl
  | other payload => cases applied

omit [LinearOrder ν] in
/-- What takes effect of one command is what its request executes. -/
theorem freshRequest_toList (command : Command ν) (image : KVImage) :
    (freshRequest command image).toList =
      identities (executed command.request image.view) := by
  cases command with
  | clientRequest clientId requestId op =>
      unfold freshRequest
      by_cases fresh : image.view.Fresh clientId requestId
      · rw [Command.request, executed_of_fresh op fresh]
        dsimp only
        rw [if_pos (by simpa using fresh_view.mp fresh)]
        rfl
      · rw [Command.request, executed_of_not_fresh op fresh]
        dsimp only
        rw [if_neg (by simpa using mt fresh_view.mpr fresh)]
        rfl
  | _ => rfl

/-! ## Batches -/

omit [LinearOrder ν] in
theorem imageOf_append (first second : List (LogEntry (Command ν))) :
    imageOf (first ++ second) =
      replay KVOperation.execute (second.map (·.command.request)) (imageOf first) := by
  unfold imageOf
  rw [List.map_append, replay_append]

omit [LinearOrder ν] in
theorem executedRequests_append (first second : List (LogEntry (Command ν))) :
    executedRequests (first ++ second) = executedRequests first ++
      identities (executions KVOperation.execute (second.map (·.command.request))
        (imageOf first)) := by
  unfold executedRequests imageOf
  rw [List.map_append, executions_append, identities_append]

/-- The commands of a batch, on the image of a node. -/
theorem applyCommands_returns {entries : List (LogEntry (Command ν))}
    (returned : applyCommands n entries s = .returns () t) :
    ∃ image, t = { s with kv := Function.update s.kv n image } ∧
      image.view = replay KVOperation.execute (entries.map (·.command.request)) (s.kv n).view ∧
      takeEffect n entries (s.kv n) = identities (executions KVOperation.execute
        (entries.map (·.command.request)) (s.kv n).view) ∧
      entries.foldlM (fun image entry => applyCommand n entry.command image) (s.kv n) =
        .ok image := by
  induction entries generalizing s with
  | nil =>
      cases returned
      exact ⟨t.kv n, by rw [Function.update_eq_self], rfl, rfl, rfl⟩
  | cons entry rest ih =>
      unfold applyCommands at returned
      split at returned
      next => cases returned
      next next applied =>
        obtain ⟨image, rfl, view, effects, executed⟩ := ih returned
        have here := view_applyCommand applied
        simp only [Function.update_self] at view effects executed
        refine ⟨image, by rw [Function.update_idem], ?_, ?_, ?_⟩
        · rw [view, here]
          rfl
        · unfold takeEffect
          rw [applied]
          dsimp only
          rw [effects, here, freshRequest_toList, ← identities_append]
          rfl
        · rw [List.foldlM_cons, applied]
          exact executed

omit [LinearOrder ν] in
/-- The commands of a stored history, on a restored image. -/
theorem foldlM_applyCommand {entries : List (LogEntry (Command ν))} {image final : KVImage}
    (applied : entries.foldlM (fun image entry => applyCommand n entry.command image) image =
      .ok final) :
    final.view = replay KVOperation.execute (entries.map (·.command.request)) image.view := by
  induction entries generalizing image with
  | nil =>
      cases applied
      rfl
  | cons entry rest ih =>
      rw [List.foldlM_cons] at applied
      cases first : applyCommand n entry.command image with
      | error violation =>
          rw [first] at applied
          cases applied
      | ok next =>
          rw [first] at applied
          rw [ih applied, view_applyCommand first]
          rfl

/-! ## Histories -/

/-- What the commands of a history request. -/
abbrev requestsOf (history : List (LogEntry (Command ν))) :
    List (Request String ℕ KVOperation) := history.map (·.command.request)

/-- The image that `ReplicatedKV` executes from a history. -/
def executeHistory (n : ν) (history : List (LogEntry (Command ν))) : Except (Error ν) KVImage :=
  history.foldlM (fun image entry => applyCommand n entry.command image) {}

omit [LinearOrder ν] in
theorem executeHistory_concat {history : List (LogEntry (Command ν))} {entry : LogEntry (Command ν)}
    {image : KVImage} :
    executeHistory n (history ++ [entry]) = .ok image ↔
      ∃ before, executeHistory n history = .ok before ∧
        applyCommand n entry.command before = .ok image := by
  rw [executeHistory, List.foldlM_append, bind_eq_ok]
  refine exists_congr fun before => and_congr_right fun _ => ?_
  rw [List.foldlM_cons, bind_eq_ok]
  simp [pure, Except.pure]

omit [LinearOrder ν] in
theorem view_executeHistory {history : List (LogEntry (Command ν))} {image : KVImage}
    (executed : executeHistory n history = .ok image) :
    image.view = replay KVOperation.execute (requestsOf history) (.initial fun _ => none) :=
  foldlM_applyCommand executed

/-! ## Snapshots -/

/-- A snapshot holds the image of the committed prefix at its index. -/
structure KVSnapshot.Sound (log : List (LogEntry (Command ν))) (snapshot : KVSnapshot ν) :
    Prop where
  within : snapshot.lastIncludedIndex ≤ log.length
  view : snapshot.image.view = imageOf (log.take snapshot.lastIncludedIndex)

omit [LinearOrder ν] in
/-- A snapshot of an image restores it. -/
theorem view_image_of_snapshot {snapshot : KVSnapshot ν} {image : KVImage}
    (state : snapshot.state = snapshotState image)
    (requests : snapshot.clientRequests = snapshotRequests image) :
    snapshot.image.view = image.view := by
  have items : (snapshotRequests image).map (fun item =>
      ((item.clientId, item.requestId), item.operation)) =
        image.requests.sortedItems fun a b => toLex a ≤ toLex b := by
    unfold snapshotRequests
    rw [List.map_map]
    exact List.map_id _
  unfold KVSnapshot.image KVImage.view
  rw [state, requests, items]
  unfold snapshotState
  simp only [Dict.lookup_ofItems_sortedItems]

end Distlab.Raft
