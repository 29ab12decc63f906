import Distlab.Foundations.RequestBatches
import Distlab.Raft.ReplicaCalls

/-!
# When a batch is applied

`ReplicatedKV.apply_committed` validates the identities of a batch against the image and
applies the batch if they pass. On a node that holds the committed log nothing else
stops it: the call returns exactly when the image accepts the batch, and raises
`ClientRequestConflict` otherwise.
-/

set_option autoImplicit false

namespace Distlab.Raft

open Foundations Deduplication

variable {ν : Type} [LinearOrder ν] {C : Config ν} {log : List (LogEntry (Command ν))}
  {n : ν} {s : Cluster ν}

/-! ## Validation -/

omit [LinearOrder ν] in
theorem requestsAgree_identified {entry : LogEntry (Command ν)} {rest : List (LogEntry (Command ν))}
    {seen : Dict (String × ℕ) KVOperation} {clientId : String} {requestId : ℕ}
    {operation : KVOperation}
    (request : entry.command.request = .identified clientId requestId operation) :
    requestsAgree (entry :: rest) seen = true ↔
      (∀ previous, seen.lookup (clientId, requestId) = some previous → previous = operation) ∧
        requestsAgree rest (seen.setDefault (clientId, requestId) operation) = true := by
  conv_lhs => unfold requestsAgree
  cases command : entry.command with
  | clientRequest owner done requested =>
      rw [command] at request
      cases request
      rw [Bool.and_eq_true, decide_eq_true_eq]
      refine and_congr_left fun _ => ?_
      cases seen.lookup (clientId, requestId) with
      | none => simp
      | some previous => simp
  | _ =>
      rw [command] at request
      cases request

omit [LinearOrder ν] in
theorem requestsAgree_skip {entry : LogEntry (Command ν)} {rest : List (LogEntry (Command ν))}
    {seen : Dict (String × ℕ) KVOperation} (request : entry.command.request.identity = none) :
    requestsAgree (entry :: rest) seen = requestsAgree rest seen := by
  conv_lhs => unfold requestsAgree
  cases command : entry.command with
  | clientRequest owner done requested =>
      rw [command] at request
      cases request
  | _ => rfl

/-- A batch agrees with the operations of a table. -/
def AgreesWith (batch : List (Request String ℕ KVOperation))
    (seen : Dict (String × ℕ) KVOperation) : Prop :=
  Functional batch ∧ ∀ clientId requestId operation,
    .identified clientId requestId operation ∈ batch →
      ∀ previous, seen.lookup (clientId, requestId) = some previous → previous = operation

theorem agreesWith_identified {batch : List (Request String ℕ KVOperation)}
    {seen : Dict (String × ℕ) KVOperation} {clientId : String} {requestId : ℕ}
    {operation : KVOperation} :
    AgreesWith (.identified clientId requestId operation :: batch) seen ↔
      (∀ previous, seen.lookup (clientId, requestId) = some previous → previous = operation) ∧
        AgreesWith batch (seen.setDefault (clientId, requestId) operation) := by
  constructor
  · rintro ⟨functional, agrees⟩
    refine ⟨agrees clientId requestId operation List.mem_cons_self,
      functional.sublist fun _ => List.mem_cons_of_mem _, ?_⟩
    intro client id requested member previous found
    rcases Dict.of_lookup_setDefault found with old | ⟨same, rfl⟩
    · exact agrees client id requested (List.mem_cons_of_mem _ member) previous old
    · cases same
      exact functional clientId requestId previous requested List.mem_cons_self
        (List.mem_cons_of_mem _ member)
  · rintro ⟨own, functional, agrees⟩
    -- a later use of the identity agrees with what the table has then
    have later : ∀ requested, .identified clientId requestId requested ∈ batch →
        operation = requested := by
      intro requested member
      have table := Dict.lookup_setDefault_self seen (clientId, requestId) operation
      cases found : seen.lookup (clientId, requestId) with
      | none =>
          rw [found] at table
          exact agrees clientId requestId requested member operation table
      | some previous =>
          rw [found] at table
          rw [← own previous found]
          exact agrees clientId requestId requested member previous table
    refine ⟨fun client id first second one two => ?_,
      fun client id requested member previous found => ?_⟩
    · rw [List.mem_cons] at one two
      rcases one with one | one <;> rcases two with two | two
      · cases one.trans two.symm
        rfl
      · cases one
        exact later second two
      · cases two
        exact (later first one).symm
      · exact functional client id first second one two
    · rcases List.mem_cons.mp member with same | member
      · cases same
        exact own previous found
      · exact agrees client id requested member previous (Dict.lookup_setDefault_of_lookup found)

theorem agreesWith_skip {request : Request String ℕ KVOperation}
    {batch : List (Request String ℕ KVOperation)} {seen : Dict (String × ℕ) KVOperation}
    (other : request.identity = none) :
    AgreesWith (request :: batch) seen ↔ AgreesWith batch seen := by
  have listed : ∀ client id operation,
      .identified client id operation ∈ request :: batch ↔
        .identified client id operation ∈ batch := by
    intro client id operation
    rw [List.mem_cons]
    refine or_iff_right fun same => ?_
    rw [← same] at other
    cases other
  unfold AgreesWith Functional
  simp only [listed]

omit [LinearOrder ν] in
/-- **The validation** passes exactly on a batch that agrees with the table. -/
theorem requestsAgree_iff {entries : List (LogEntry (Command ν))}
    {seen : Dict (String × ℕ) KVOperation} :
    requestsAgree entries seen = true ↔ AgreesWith (requestsOf entries) seen := by
  induction entries generalizing seen with
  | nil =>
      refine iff_of_true rfl ⟨functional_nil, fun _ _ _ member => ?_⟩
      exact absurd member List.not_mem_nil
  | cons entry rest ih =>
      rw [requestsOf, List.map_cons]
      cases request : entry.command.request with
      | identified clientId requestId operation =>
          rw [requestsAgree_identified request, agreesWith_identified, ih]
      | plain operation =>
          rw [requestsAgree_skip (by rw [request]; rfl), agreesWith_skip rfl, ih]
      | nothing =>
          rw [requestsAgree_skip (by rw [request]; rfl), agreesWith_skip rfl, ih]

omit [LinearOrder ν] in
/-- It passes exactly when the image accepts the batch. -/
theorem requestsAgree_iff_accepts {entries : List (LogEntry (Command ν))} {image : KVImage} :
    requestsAgree entries image.requests = true ↔ Accepts image.view (requestsOf entries) :=
  requestsAgree_iff

/-! ## Execution -/

omit [LinearOrder ν] in
/-- A validated command is executed. -/
theorem applyCommand_of_fits {command : Command ν} {image : KVImage}
    (valid : ∀ payload, command ≠ .other payload)
    (fits : ∀ clientId requestId operation,
      command.request = .identified clientId requestId operation →
        ∀ previous, image.requests.lookup (clientId, requestId) = some previous →
          previous = operation) :
    ∃ next, applyCommand n command image = .ok next ∧
      ∀ key operation, next.requests.lookup key = some operation →
        image.requests.lookup key = some operation ∨
          command.request = .identified key.1 key.2 operation := by
  cases command with
  | clientRequest clientId requestId operation =>
      unfold applyCommand
      dsimp only
      split
      next previous found =>
        rw [if_neg (not_not.mpr (fits clientId requestId operation rfl previous found))]
        exact ⟨image, rfl, fun _ _ => .inl⟩
      next =>
        split
        · exact ⟨image, rfl, fun _ _ => .inl⟩
        · refine ⟨_, rfl, fun key requested found => ?_⟩
          rcases Dict.of_lookup_insert found with ⟨rfl, rfl⟩ | ⟨_, old⟩
          · exact .inr rfl
          · exact .inl old
  | other payload => exact absurd rfl (valid payload)
  | operation operation => exact ⟨_, rfl, fun _ _ => .inl⟩
  | jointConsensus newVoters => exact ⟨image, rfl, fun _ _ => .inl⟩
  | stableConsensus voters => exact ⟨image, rfl, fun _ _ => .inl⟩
  | commitRecoveryBarrier => exact ⟨image, rfl, fun _ _ => .inl⟩

omit [LinearOrder ν] in
theorem validEntries_iff {entries : List (LogEntry (Command ν))} :
    validEntries entries = true ↔
      ∀ entry ∈ entries, ∀ payload, entry.command ≠ .other payload := by
  rw [validEntries, List.all_eq_true]
  refine forall₂_congr fun entry _ => ?_
  cases entry.command <;> simp

omit [LinearOrder ν] in
/-- **A validated batch is executed.** -/
theorem exists_foldlM_applyCommand {entries : List (LogEntry (Command ν))} {image : KVImage}
    {seen : Dict (String × ℕ) KVOperation} (valid : validEntries entries = true)
    (agrees : AgreesWith (requestsOf entries) seen)
    (known : ∀ key operation, image.requests.lookup key = some operation →
      seen.lookup key = some operation) :
    ∃ final, entries.foldlM (fun image entry => applyCommand n entry.command image) image =
      .ok final := by
  induction entries generalizing image seen with
  | nil => exact ⟨image, rfl⟩
  | cons entry rest ih =>
      obtain ⟨here, validRest⟩ := List.forall_mem_cons.mp (validEntries_iff.mp valid)
      obtain ⟨next, applied, grown⟩ := applyCommand_of_fits here
        fun clientId requestId operation request previous found =>
          agrees.2 clientId requestId operation
            (List.mem_map.mpr ⟨entry, List.mem_cons_self, request⟩) previous (known _ _ found)
      have continues : ∀ table : Dict (String × ℕ) KVOperation,
          AgreesWith (requestsOf rest) table →
          (∀ key operation, next.requests.lookup key = some operation →
            table.lookup key = some operation) →
          ∃ final, (entry :: rest).foldlM
            (fun image entry => applyCommand n entry.command image) image = .ok final := by
        intro table later held
        obtain ⟨final, executed⟩ := ih (validEntries_iff.mpr validRest) later held
        refine ⟨final, ?_⟩
        rw [List.foldlM_cons, applied]
        exact executed
      rw [requestsOf, List.map_cons] at agrees
      cases request : entry.command.request with
      | identified clientId requestId operation =>
          rw [request] at agrees grown
          obtain ⟨own, later⟩ := agreesWith_identified.mp agrees
          refine continues _ later fun key requested found => ?_
          rcases grown key requested found with old | new
          · exact Dict.lookup_setDefault_of_lookup (known _ _ old)
          · cases new
            have table := Dict.lookup_setDefault_self seen key operation
            cases before : seen.lookup key with
            | none =>
                rw [before] at table
                exact table
            | some previous =>
                rw [before] at table
                rw [table, Option.getD_some, own previous before]
      | plain operation =>
          rw [request] at agrees grown
          refine continues seen ((agreesWith_skip rfl).mp agrees) fun key requested found => ?_
          exact known _ _ ((grown key requested found).resolve_right (by rintro ⟨⟩))
      | nothing =>
          rw [request] at agrees grown
          refine continues seen ((agreesWith_skip rfl).mp agrees) fun key requested found => ?_
          exact known _ _ ((grown key requested found).resolve_right (by rintro ⟨⟩))

/-- The commands of a batch, from what they execute. -/
theorem applyCommands_of_foldlM {entries : List (LogEntry (Command ν))} {final : KVImage}
    (executed : entries.foldlM (fun image entry => applyCommand n entry.command image) (s.kv n) =
      .ok final) :
    applyCommands n entries s = .returns () { s with kv := Function.update s.kv n final } := by
  induction entries generalizing s with
  | nil =>
      cases executed
      rw [Function.update_eq_self]
      rfl
  | cons entry rest ih =>
      rw [List.foldlM_cons] at executed
      obtain ⟨next, applied, later⟩ := bind_eq_ok.mp executed
      unfold applyCommands
      rw [applied]
      dsimp only
      rw [ih (by simpa using later), Function.update_idem]

/-! ## Records -/

/-- The canonical records of an applier are entries of the log. -/
def Canonical (log : List (LogEntry (Command ν))) (applier : StateMachineApplier ν) : Prop :=
  ∀ index record, applier.canonicalByIndex.lookup index = some record →
    log[index - 1]? = some record.entry

theorem recordCanonical_canonical {applier : StateMachineApplier ν} (index : ℕ)
    {entry : LogEntry (Command ν)} (canonical : Canonical log applier)
    (found : log[index - 1]? = some entry) :
    ∃ next, recordCanonical ⟨n, index, entry⟩ applier = .ok next ∧ Canonical log next := by
  unfold recordCanonical
  dsimp only
  split
  next record listed =>
    have same : record.entry = entry := by
      have here := canonical index record listed
      rw [found] at here
      exact (Option.some.inj here).symm
    rw [if_neg (not_not.mpr same)]
    exact ⟨applier, rfl, canonical⟩
  next =>
    refine ⟨_, rfl, fun position record listed => ?_⟩
    rcases Dict.of_lookup_insert listed with ⟨rfl, rfl⟩ | ⟨_, old⟩
    · exact found
    · exact canonical position record old

/-- The node holds the log from its first entry on. -/
structure Holds (log : List (LogEntry (Command ν))) (n : ν) (s : Cluster ν) : Prop where
  base : (s.logView n).baseIndex = 0
  entries : log <+: (s.logView n).entries

omit [LinearOrder ν] in
theorem Holds.entryAt (holds : Holds log n s) {index : ℕ} (positive : 0 < index)
    (within : index ≤ log.length) : (s.logView n).entryAt index = log[index - 1]? := by
  rw [RaftLogView.entryAt, holds.base, if_neg (by omega), Nat.sub_zero]
  obtain ⟨tail, same⟩ := holds.entries
  rw [← same, List.getElem?_append_left (by omega)]

omit [LinearOrder ν] in
theorem Holds.lastIndex (holds : Holds log n s) : log.length ≤ (s.logView n).lastIndex := by
  rw [RaftLogView.lastIndex, holds.base, Nat.zero_add]
  exact holds.entries.length_le

/-- What the apply loop leaves. -/
structure Extends (log : List (LogEntry (Command ν))) (n : ν) (count : ℕ) (s t : Cluster ν) :
    Prop where
  canonical : Canonical log t.applier
  applies : Applies log n ((log.drop (s.applier.lastApplied n)).take count) s t
  persistent : t.persistent = Function.update s.persistent n
    { s.persistent n with
      stateMachineApplied := (s.persistent n).stateMachineApplied ++
        (log.drop (s.applier.lastApplied n)).take count }
  baseIndex : t.applier.baseIndex = s.applier.baseIndex

/-- **The apply loop** goes through on a node that holds the log. -/
theorem exists_applyEach {count : ℕ} (holds : Holds log n s) (canonical : Canonical log s.applier)
    (replica : Replica log n s)
    (within : s.applier.lastApplied n + count ≤ log.length) :
    ∃ records t, applyEach n (List.range' (s.applier.lastApplied n + 1) count) s =
        .returns records t ∧ Extends log n count s t ∧
          records.map (·.entry) = (log.drop (s.applier.lastApplied n)).take count := by
  induction count generalizing s with
  | zero =>
      refine ⟨[], s, rfl, ⟨canonical, ?_, ?_, rfl⟩, by simp⟩
      · rw [List.take_zero]
        exact applies_nil replica
      · simp
  | succ count ih =>
      have inside : s.applier.lastApplied n < log.length := by omega
      have next : log[s.applier.lastApplied n]? = some log[s.applier.lastApplied n] :=
        List.getElem?_eq_getElem inside
      have found : (s.logView n).entryAt (s.applier.lastApplied n + 1) =
          some log[s.applier.lastApplied n] := by
        rw [holds.entryAt (by omega) (by omega)]
        exact next
      obtain ⟨applier, recorded, kept⟩ := recordCanonical_canonical (n := n)
        (s.applier.lastApplied n + 1) canonical next
      have first := applies_writeApplied replica recorded next
      obtain ⟨_, rfl⟩ := recordCanonical_ok recorded
      rw [List.range'_succ]
      unfold applyEach
      rw [found]
      dsimp only
      rw [recorded]
      dsimp only
      set u := writeApplied n (s.applier.lastApplied n + 1) log[s.applier.lastApplied n]
        { s with applier := _ }
      have last : u.applier.lastApplied n = s.applier.lastApplied n + 1 := Function.update_self ..
      have durable : u.persistent = Function.update s.persistent n
          { s.persistent n with
            stateMachineApplied := (s.persistent n).stateMachineApplied ++
              [log[s.applier.lastApplied n]] } := rfl
      have view : u.logView n = s.logView n := by
        rw [Cluster.logView, durable, Function.update_self]
        rfl
      obtain ⟨records, t, looped, grown, listed⟩ := ih (s := u)
        ⟨by rw [view]; exact holds.base, by rw [view]; exact holds.entries⟩ kept first.replica
        (by rw [last]; omega)
      rw [last] at looped listed
      have chunk : (log.drop (s.applier.lastApplied n)).take (count + 1) =
          log[s.applier.lastApplied n] :: (log.drop (s.applier.lastApplied n + 1)).take count := by
        rw [List.drop_eq_getElem_cons inside, List.take_succ_cons]
      rw [looped]
      refine ⟨_, t, rfl, ⟨grown.canonical, ?_, ?_, grown.baseIndex⟩, ?_⟩
      · have later := first.trans grown.applies
        rw [last] at later
        rw [chunk]
        exact later
      · rw [grown.persistent, durable, last, chunk, Function.update_idem, Function.update_self]
        simp
      · rw [List.map_cons, listed, chunk]

/-! ## One call -/

/-- A node that holds the log and has executed what it applied of it, from the first
entry on. -/
structure Holding (log : List (LogEntry (Command ν))) (n : ν) (s : Cluster ν) : Prop where
  holds : Holds log n s
  canonical : Canonical log s.applier
  replica : Replica log n s
  boundary : s.applier.baseIndex n = 0
  baseTerm : (s.persistent n).stateMachineBaseTerm = 0
  executed : executeHistory n (log.take (s.applier.lastApplied n)) = .ok (s.kv n)

/-- The commit index of the node has reached an index. -/
def commitThrough (n : ν) (index : ℕ) (s : Cluster ν) : Cluster ν :=
  s.updateVolatile n fun w => { w with commitIndex := index }

theorem commitIndex_commitThrough (n : ν) (index : ℕ) (s : Cluster ν) :
    (commitThrough n index s).commitIndex n = index := by
  simp [Cluster.commitIndex, commitThrough, Cluster.updateVolatile]

/-- What a call validates. -/
theorem pendingEntries_commitThrough {index : ℕ} (holds : Holds log n s)
    (fromLast : s.applier.lastApplied n ≤ index) (within : index ≤ log.length) :
    pendingEntries n (commitThrough n index s) =
      (log.take index).drop (s.applier.lastApplied n) := by
  have commit : (commitThrough n index s).commitIndex n = index :=
    commitIndex_commitThrough n index s
  have view : (commitThrough n index s).logView n = s.logView n := rfl
  have last : (commitThrough n index s).applier.lastApplied n = s.applier.lastApplied n := rfl
  unfold pendingEntries
  dsimp only
  rw [commit, view, last, RaftLogView.suffixFrom, RaftLogView.firstRetainedIndex, holds.base]
  obtain ⟨tail, same⟩ := holds.entries
  split
  · rw [← same, List.drop_take, List.drop_append_of_le_length (by omega),
      List.take_append_of_le_length
      (by rw [List.length_drop]; omega)]
    congr 1
    omega
  · have reached : s.applier.lastApplied n = index := by omega
    rw [reached, List.drop_eq_nil_of_le (List.length_take_le ..)]

/-- The applier goes through on a node that holds the log. -/
theorem exists_applierApplyCommitted {index : ℕ} (holds : Holds log n s)
    (canonical : Canonical log s.applier) (replica : Replica log n s)
    (fromLast : s.applier.lastApplied n ≤ index) (within : index ≤ log.length) :
    ∃ records t, applierApplyCommitted n (commitThrough n index s) = .returns records t ∧
      Extends log n (index - s.applier.lastApplied n) (commitThrough n index s) t ∧
        records.map (·.entry) = (log.take index).drop (s.applier.lastApplied n) := by
  have committed : Replica log n (commitThrough n index s) :=
    replica.keeps ⟨rfl, rfl, rfl, rfl, rfl, rfl, rfl⟩
  have applied : (commitThrough n index s).applier.lastApplied n = s.applier.lastApplied n := rfl
  have view : (commitThrough n index s).logView n = s.logView n := rfl
  unfold applierApplyCommitted
  dsimp only
  rw [commitIndex_commitThrough n index s, applied]
  split
  next reached =>
    have done : s.applier.lastApplied n = index := by omega
    refine ⟨[], _, rfl, ⟨canonical, ?_, ?_, rfl⟩, ?_⟩
    · rw [done, Nat.sub_self, List.take_zero]
      exact applies_nil committed
    · rw [done]
      simp
    · rw [done, List.drop_eq_nil_of_le (List.length_take_le ..)]
      rfl
  next behind =>
    rw [view, if_neg (by have := holds.lastIndex; omega), holds.base, if_neg (by omega)]
    have further : (commitThrough n index s).applier.lastApplied n +
        (index - s.applier.lastApplied n) ≤ log.length := by
      rw [applied]
      omega
    have held : Holds log n (commitThrough n index s) := ⟨holds.base, holds.entries⟩
    obtain ⟨records, t, looped, grown, listed⟩ :=
      exists_applyEach held canonical committed further
    refine ⟨records, t, looped, grown, ?_⟩
    rw [listed, applied, List.drop_take]

/-- **One call** returns if the image accepts the batch, and raises the conflict if not. -/
theorem kvApplyCommitted_exact {index : ℕ} (holding : Holding log n s)
    (valid : validEntries log = true) (fromLast : s.applier.lastApplied n ≤ index)
    (within : index ≤ log.length) :
    (Accepts (s.kv n).view (requestsOf ((log.take index).drop (s.applier.lastApplied n))) →
      ∃ records t, kvApplyCommitted n (commitThrough n index s) = .returns records t ∧
        Holding log n t ∧ t.applier.lastApplied n = index ∧
          ∀ m ≠ n, t.persistent m = s.persistent m) ∧
    (¬ Accepts (s.kv n).view (requestsOf ((log.take index).drop (s.applier.lastApplied n))) →
      kvApplyCommitted n (commitThrough n index s) =
        .raises (.clientRequestConflict n) (commitThrough n index s)) := by
  obtain ⟨holds, canonical, replica, boundary, baseTerm, executed⟩ := holding
  have pending := pendingEntries_commitThrough holds fromLast within
  have validated : validEntries ((log.take index).drop (s.applier.lastApplied n)) = true := by
    rw [validEntries_iff] at valid ⊢
    exact fun entry member => valid entry (List.mem_of_mem_take (List.mem_of_mem_drop member))
  have commit : (commitThrough n index s).commitIndex n = index :=
    commitIndex_commitThrough n index s
  have view : (commitThrough n index s).logView n = s.logView n := rfl
  have retained : ¬ (s.applier.lastApplied n + 1 ≤ (commitThrough n index s).commitIndex n ∧
      (s.applier.lastApplied n + 1 < ((commitThrough n index s).logView n).firstRetainedIndex ∨
        ((commitThrough n index s).logView n).lastIndex + 1 < s.applier.lastApplied n + 1)) := by
    rintro ⟨_, below | above⟩
    · rw [view, RaftLogView.firstRetainedIndex, holds.base] at below
      omega
    · rw [view] at above
      have := holds.lastIndex
      have := replica.within
      omega
  have committed : Replica log n (commitThrough n index s) :=
    replica.keeps ⟨rfl, rfl, rfl, rfl, rfl, rfl, rfl⟩
  have table : (commitThrough n index s).kv n = s.kv n := rfl
  have applied : ∀ m, (commitThrough n index s).applier.lastApplied m = s.applier.lastApplied m :=
    fun _ => rfl
  constructor
  · intro accepts
    have agrees : requestsAgree ((log.take index).drop (s.applier.lastApplied n))
        (s.kv n).requests = true := requestsAgree_iff_accepts.mpr accepts
    obtain ⟨records, u, appliedAll, grown, listed⟩ :=
      exists_applierApplyCommitted holds canonical replica fromLast within
    obtain ⟨final, folded⟩ := exists_foldlM_applyCommand (n := n) validated
      (requestsAgree_iff.mp agrees) fun _ _ => id
    have looped : applyCommands n (records.map (·.entry)) u =
        .returns () { u with kv := Function.update u.kv n final } :=
      applyCommands_of_foldlM (by rw [listed, grown.applies.kv]; exact folded)
    have returned : kvApplyCommitted n (commitThrough n index s) =
        .returns records { u with kv := Function.update u.kv n final } := by
      unfold kvApplyCommitted
      dsimp only
      rw [applied, if_neg retained, pending, if_neg (not_not.mpr validated), table,
        if_neg (not_not.mpr agrees), appliedAll, Outcome.bind, looped]
      rfl
    have durable := grown.persistent
    have reached : u.applier.lastApplied n = index := by
      have advanced := grown.applies.reached
      rw [applied, List.length_take_of_le (by rw [List.length_drop]; omega)] at advanced
      exact advanced.trans (by omega)
    refine ⟨records, _, returned, ⟨⟨?_, ?_⟩, grown.canonical, ?_, ?_, ?_, ?_⟩, reached, ?_⟩
    · show (u.persistent n).log.baseIndex = 0
      rw [durable, Function.update_self]
      exact holds.base
    · show log <+: (u.persistent n).log.entries
      rw [durable, Function.update_self]
      exact holds.entries
    · have replica := grown.applies.replica
      exact ⟨replica.within, replica.base, replica.applied, replica.durableApplied,
        replica.durableBase, replica.snapshot⟩
    · show u.applier.baseIndex n = 0
      rw [grown.baseIndex]
      exact boundary
    · show (u.persistent n).stateMachineBaseTerm = 0
      rw [durable, Function.update_self]
      exact baseTerm
    · show executeHistory n (log.take (u.applier.lastApplied n)) =
        .ok (Function.update u.kv n final n)
      have whole : log.take index = log.take (s.applier.lastApplied n) ++
          (log.take index).drop (s.applier.lastApplied n) := by
        conv_lhs => rw [← List.take_append_drop (s.applier.lastApplied n) (log.take index)]
        rw [List.take_take, Nat.min_eq_left fromLast]
      rw [reached, Function.update_self, whole, executeHistory, List.foldlM_append]
      exact bind_eq_ok.mpr ⟨_, executed, folded⟩
    · intro m other
      show u.persistent m = s.persistent m
      rw [durable, Function.update_of_ne other]
      rfl
  · intro refuses
    have conflict : ¬ requestsAgree ((log.take index).drop (s.applier.lastApplied n))
        (s.kv n).requests = true := mt requestsAgree_iff_accepts.mp refuses
    unfold kvApplyCommitted
    dsimp only
    rw [applied, if_neg retained, pending, if_neg (not_not.mpr validated), table, if_pos conflict]

end Distlab.Raft
