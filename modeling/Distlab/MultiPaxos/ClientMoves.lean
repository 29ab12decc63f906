import Distlab.MultiPaxos.ClientCalls

/-!
# The calls of the client are moves

What a call does to an application is a sequence of moves. The protocol and the state
machines move on without the journal, a request is registered, or the response of a request
that a node has applied is published.
-/

set_option autoImplicit false

namespace Distlab.MultiPaxos

open Foundations Paxos Clients

variable {ν : Type} [LinearOrder ν] {M : Membership ν}

namespace Application

variable {a b : Application ν}

/-- One move of an application. -/
inductive AppMove (M : Membership ν) (a : Application ν) : Application ν → Prop
  | quiet {b : Application ν} (follows : Follows M a b) (same : b.journal = a.journal) :
      AppMove M a b
  /-- The history has no `Append`. -/
  | register {request : MultiPaxosRequest} {journal : ClientJournal}
      (kv : request.operation.history?.isSome)
      (registers : (a.journal.register request : Except (ApplicationError ν) ClientJournal) =
        .ok journal) : AppMove M a (a.setJournal journal)
  | acknowledge {n : ν} {image : KVImage} {request : MultiPaxosRequest} {record : AppliedRequest}
      {journal : ClientJournal} (replayed : replay (a.applied n) = .ok image)
      (found : image.requests.lookup request.identity = some record)
      (same : record.request = request)
      (known : a.journal.requests.lookup request.operationId = some request)
      (acknowledges : (acknowledgeResponse request record.result a.journal :
        Except (ApplicationError ν) ClientJournal) = .ok journal) :
      AppMove M a (a.setJournal journal)

/-- Any number of moves. -/
def AppMoves (M : Membership ν) : Application ν → Application ν → Prop :=
  Relation.ReflTransGen (AppMove M)

/-- Every outcome of the operation is reached in moves. -/
abbrev Moving {β : Type} (M : Membership ν) (a : Application ν) (op : AppOp ν β) : Prop :=
  op.Ensures (AppMoves M a) fun _ _ => True

/-- No outcome of the operation has another journal. -/
abbrev LeavesJournal {β : Type} (a : Application ν) (op : AppOp ν β) : Prop :=
  op.Ensures (fun b => b.journal = a.journal) fun _ _ => True

/-! ## Rules -/

theorem AppMove.follows (sound : Sound M a) (move : AppMove M a b) : Follows M a b := by
  cases move with
  | quiet follows same => exact follows
  | register kv registers =>
      obtain ⟨more, distinct⟩ := ClientJournal.register_registered sound.distinct registers
      exact sound.setJournal more distinct
  | acknowledge replayed found same known acknowledges =>
      exact sound.setHistory (acknowledgeResponse_requests acknowledges)

theorem AppMoves.follows (sound : Sound M a) (moves : AppMoves M a b) : Follows M a b := by
  induction moves with
  | refl => exact sound.follows
  | tail _ move ih => exact ih.trans (move.follows ih.sound)

section Rules

variable {β γ : Type} {op : AppOp ν β} {next : β → Application ν → AppOp ν γ}

theorem Moving.returned (x : β) (a : Application ν) : Moving M a (.returns x a : AppOp ν β) :=
  Relation.ReflTransGen.refl

theorem Moving.raised (e : ApplicationError ν) (a : Application ν) :
    Moving M a (.raises e a : AppOp ν β) := ⟨Relation.ReflTransGen.refl, trivial⟩

theorem Moving.bind (sound : Sound M a) (first : Moving M a op)
    (rest : ∀ x b, op = .returns x b → Follows M a b → Moving M b (next x b)) :
    Moving M a (op.bind next) :=
  Outcome.Ensures.bind first (fun x b returned moves =>
    (rest x b returned (moves.follows sound)).mono (fun _ after => moves.trans after)
      fun _ _ => id) fun _ => id

theorem Moving.after (first : AppMoves M a b) (rest : Moving M b op) : Moving M a op :=
  rest.mono (fun _ after => first.trans after) fun _ _ => id

/-- What leaves the journal alone is one move. -/
theorem moving_quiet (advances : Advances (M := M) a op) (leaves : LeavesJournal a op) :
    Moving M a op := by
  cases op with
  | returns x b => exact .single (.quiet advances leaves)
  | raises e b => exact ⟨.single (.quiet advances.1 leaves.1), trivial⟩

omit [LinearOrder ν] in
theorem LeavesJournal.bind (first : LeavesJournal a op)
    (rest : ∀ x b, op = .returns x b → LeavesJournal b (next x b)) :
    LeavesJournal a (op.bind next) :=
  Outcome.Ensures.bind first (fun x b returned same =>
    (rest x b returned).mono (fun _ after => Eq.trans after same) fun _ _ => id) fun _ => id

omit [LinearOrder ν] in
theorem leaves_returned (x : β) (a : Application ν) :
    LeavesJournal a (.returns x a : AppOp ν β) := rfl

omit [LinearOrder ν] in
theorem leaves_raised (e : ApplicationError ν) (a : Application ν) :
    LeavesJournal a (.raises e a : AppOp ν β) := ⟨rfl, trivial⟩

omit [LinearOrder ν] in
theorem leaves_require (result : Except (ApplicationError ν) β) :
    LeavesJournal a (require result a) := by
  cases result with
  | ok x => exact leaves_returned x a
  | error e => exact leaves_raised e a

omit [LinearOrder ν] in
theorem leaves_protocol (op : Cluster ν Value → Op ν Value β) :
    LeavesJournal a (protocol op a) := by
  unfold Application.protocol
  split
  · rfl
  · exact ⟨rfl, trivial⟩

omit [LinearOrder ν] in
theorem leaves_forEach {ι : Type} {items : List ι} {body : ι → Application ν → AppOp ν Unit}
    (leaves : ∀ item b, LeavesJournal b (body item b)) :
    LeavesJournal a (Outcome.forEach items body a) := by
  induction items generalizing a with
  | nil => exact leaves_returned () a
  | cons item rest ih => exact LeavesJournal.bind (leaves item a) fun _ b _ => ih

end Rules

/-! ## What leaves the journal alone -/

theorem leaves_loadMachine (n : ν) : LeavesJournal a (loadMachine M n a) := by
  unfold loadMachine
  refine (leaves_require _).bind fun applied b _ => ?_
  refine (leaves_require _).bind fun _ c _ => ?_
  split
  · exact (leaves_require _).bind fun image d _ => rfl
  · split
    · exact leaves_raised _ c
    · exact leaves_returned _ c

theorem leaves_stateOf (n : ν) : LeavesJournal a (stateOf M n a) :=
  (leaves_require _).bind fun _ _ _ => (leaves_loadMachine n).bind fun _ c _ => leaves_returned _ c

theorem leaves_clientRequests (n : ν) : LeavesJournal a (clientRequests M n a) :=
  (leaves_require _).bind fun _ _ _ => (leaves_loadMachine n).bind fun _ c _ => leaves_returned _ c

theorem leaves_applyLoop (n : ν) (fuel : ℕ) (machine : Machine) :
    LeavesJournal a (applyLoop M n fuel machine a) := by
  induction fuel generalizing a machine with
  | zero => exact leaves_returned [] a
  | succ fuel ih =>
      unfold applyLoop
      split
      · exact leaves_returned [] a
      refine (leaves_require _).bind fun _ b _ => ?_
      refine (leaves_require _).bind fun image c _ => ?_
      refine LeavesJournal.bind (ih _) fun rest d _ => leaves_returned _ d

theorem leaves_applyReady (n : ν) : LeavesJournal a (applyReady M n a) := by
  unfold applyReady
  refine (leaves_require _).bind fun _ b _ => ?_
  refine (leaves_loadMachine n).bind fun machine c _ => ?_
  refine (leaves_applyLoop n _ machine).bind fun decisions d _ => ?_
  refine (leaves_require _).bind fun _ e _ => ?_
  exact (leaves_protocol _).bind fun _ f _ => leaves_returned _ f

theorem leaves_reply (status : ClientStatus) (n : ν) (request : MultiPaxosRequest)
    (slot : Option ℕ) (value : Option String) (ballot : Option (ProposalNumber ν)) :
    LeavesJournal a (reply M status n request slot value ballot a) :=
  (leaves_require _).bind fun _ b _ => leaves_returned _ b

theorem leaves_sendRequest (n : ν) (request : MultiPaxosRequest) (slot : Option ℕ) :
    LeavesJournal a (sendRequest M n request slot a) := by
  unfold sendRequest
  split
  · exact (leaves_protocol _).bind fun _ b _ => leaves_reply ..
  · dsimp only
    split
    · exact leaves_reply ..
    · exact (leaves_protocol _).bind fun _ b _ => leaves_reply ..

theorem leaves_repairPrefix (n : ν) : LeavesJournal a (repairPrefix M n a) := by
  unfold repairPrefix
  refine (leaves_require _).bind fun authority b _ => ?_
  split
  · exact leaves_returned () b
  refine (leaves_require _).bind fun applied c _ => ?_
  refine leaves_forEach fun slot d => ?_
  split
  · exact leaves_returned () d
  split
  · exact leaves_protocol _
  · exact leaves_protocol _

theorem leaves_deliverAll (positions : List ℕ) : LeavesJournal a (deliverAll M positions a) :=
  leaves_forEach fun _ _ => leaves_protocol _

theorem leaves_applyEverywhere : LeavesJournal a (applyEverywhere M a) := by
  refine leaves_forEach fun peer b => ?_
  split
  · exact (leaves_applyReady peer).bind fun _ c _ => leaves_returned () c
  · exact leaves_returned () b

/-! ## Calls of the client -/

/-- The request is one of the history. -/
def Recordable (request : MultiPaxosRequest) : Prop := request.operation.history?.isSome

section Calls

variable (sound : Sound M a) {request : MultiPaxosRequest}
include sound

theorem moving_reply (status : ClientStatus) (n : ν) (slot : Option ℕ) (value : Option String)
    (ballot : Option (ProposalNumber ν)) :
    Moving M a (reply M status n request slot value ballot a) :=
  moving_quiet (reply_advances sound ..) (leaves_reply ..)

theorem moving_require {β : Type} (result : Except (ApplicationError ν) β) :
    Moving M a (Application.require result a) :=
  moving_quiet (sound.require result) (leaves_require result)

/-- What a node answers is in the replay of its prefix. -/
theorem clientRequests_returns {n : ν} {requests : Dict RequestIdentity AppliedRequest}
    (returned : clientRequests M n a = .returns requests b) :
    ∃ image, replay (b.applied n) = .ok image ∧ image.requests = requests := by
  unfold clientRequests at returned
  obtain ⟨_, c, required, rest⟩ := Outcome.bind_eq_returns.mp returned
  obtain ⟨machine, d, loaded, last⟩ := Outcome.bind_eq_returns.mp rest
  cases last
  have same : c = a := by
    cases alive : requireAlive M n a with
    | ok =>
        rw [alive] at required
        cases required
        rfl
    | error e =>
        rw [alive] at required
        cases required
  subst same
  obtain ⟨machine', b', returned', -, -, applied, -, replayed⟩ := loadMachine_returns sound n
  cases loaded.symm.trans returned'
  exact ⟨machine.image, applied ▸ replayed, rfl⟩

/-- **The response of an applied request is published.** -/
theorem moving_observeApplied {n : ν} {image : KVImage} {record : AppliedRequest}
    (acknowledge : Bool) (replayed : replay (a.applied n) = .ok image)
    (found : image.requests.lookup request.identity = some record)
    (known : a.journal.requests.lookup request.operationId = some request) :
    Moving M a (observeApplied M n request record acknowledge a) := by
  unfold observeApplied
  split
  · exact moving_reply sound ..
  next same =>
  refine (moving_require sound _).bind sound fun applied b returned checked => ?_
  have unchanged : b = a := by
    cases read : appliedOf M n a with
    | ok x =>
        rw [read] at returned
        cases returned
        rfl
    | error e =>
        rw [read] at returned
        cases returned
  subst unchanged
  split
  · exact .raised _ b
  next decision _ =>
  split
  · exact .raised _ b
  cases acknowledge with
  | false =>
      have kept : Follows M b (b.setJournal b.journal) := checked
      exact moving_reply kept.sound ..
  | true =>
      cases acknowledged : (acknowledgeResponse request record.result b.journal :
          Except (ApplicationError ν) ClientJournal) with
      | error e =>
          simp only [if_true]
          exact .raised e b
      | ok journal =>
          simp only [if_true]
          have move : AppMove M b (b.setJournal journal) :=
            .acknowledge replayed found (not_not.mp same) known acknowledged
          exact .after (.single move) (moving_reply (move.follows sound).sound ..)

/-- **A poll.** -/
theorem moving_poll (n : ν) (expectedBallot : Option (ProposalNumber ν))
    (apply acknowledge : Bool) :
    Moving M a (poll M n request expectedBallot apply acknowledge a) := by
  unfold poll
  split
  · exact .raised _ a
  next known =>
  split
  · exact .raised _ a
  have member : request ∈ a.journal.registered := not_not.mp known
  refine (moving_require sound _).bind sound fun authority b _ checked => ?_
  split
  · exact moving_reply checked.sound ..
  split
  · exact moving_reply checked.sound ..
  refine Moving.bind checked.sound ?_ fun _ c _ advanced => ?_
  · split
    · refine moving_quiet ?_ ?_
      · exact Advances.bind (applyReady_advances checked.sound n) fun _ c applied =>
          applied.sound.follows
      · exact (leaves_applyReady n).bind fun _ c _ => leaves_returned () c
    · exact .returned () b
  have reads : Moving M c (clientRequests M n c) :=
    moving_quiet (clientRequests_advances advanced.sound n) (leaves_clientRequests n)
  refine reads.bind advanced.sound fun requests d returned read => ?_
  obtain ⟨image, replayed, rfl⟩ := clientRequests_returns advanced.sound returned
  split
  · next record found =>
    have still := read.registered (advanced.registered (checked.registered member))
    exact moving_observeApplied read.sound acknowledge replayed found still
  · split
    · exact moving_reply read.sound ..
    · exact moving_reply read.sound ..

/-- **A submission** registers the request and proposes it. -/
theorem moving_submit (kv : Recordable request) (n : ν) (slot : Option ℕ) :
    Moving M a (submit M n request slot a) := by
  unfold submit
  split
  · exact .raised _ a
  split
  · exact .raised _ a
  split
  · exact moving_reply sound ..
  · exact .raised _ a
  next journal registers =>
  have move : AppMove M a (a.setJournal journal) := .register kv registers
  have written := move.follows sound
  refine .after (.single move) ?_
  dsimp only
  split
  · exact moving_reply written.sound ..
  refine (moving_require written.sound _).bind written.sound fun authority b _ checked => ?_
  split
  · exact moving_reply checked.sound ..
  refine (moving_poll checked.sound n none false false).bind checked.sound
    fun observed c returned polled => ?_
  split
  · exact .returned observed c
  · have known := registered_of_poll checked.sound returned
    exact moving_quiet (sendRequest_advances polled.sound n slot known) (leaves_sendRequest ..)

/-- The rounds of `execute`, by induction on the rounds that are left. -/
theorem moving_executeRounds (kv : Recordable request) (n : ν) (rounds : List (List ℕ))
    (result : ClientResult ν) : Moving M a (executeRounds M n request rounds result a) := by
  induction rounds generalizing a result with
  | nil =>
      unfold executeRounds
      split
      · exact moving_reply sound ..
      · exact .returned result a
  | cons positions rounds ih =>
      unfold executeRounds
      split
      · exact .returned result a
      have repairs : Moving M a (repairPrefix M n a) :=
        moving_quiet (repairPrefix_advances sound n) (leaves_repairPrefix n)
      refine repairs.bind sound fun _ b _ repaired => ?_
      have delivers : Moving M b (deliverAll M positions b) :=
        moving_quiet (deliverAll_advances repaired.sound positions) (leaves_deliverAll positions)
      refine delivers.bind repaired.sound fun _ c _ delivered => ?_
      have applies : Moving M c (applyEverywhere M c) :=
        moving_quiet (applyEverywhere_advances delivered.sound) leaves_applyEverywhere
      refine applies.bind delivered.sound fun _ d _ applied => ?_
      refine (moving_poll applied.sound n none true true).bind applied.sound
        fun polled e _ observed => ?_
      split
      · exact .returned polled e
      · exact (moving_submit observed.sound kv n none).bind observed.sound
          fun result f _ again => ih again.sound result

end Calls

/-- The call submits requests of the history only. -/
def Call.Recordable : Call ν → Prop
  | .submit _ request _ | .execute _ request _ => Application.Recordable request
  | _ => True

theorem moving_discard {β : Type} {op : AppOp ν β} (sound : Sound M a) (moving : Moving M a op) :
    Moving M a (discard op) :=
  moving.bind sound fun _ b _ _ => .returned () b

theorem moving_lifecycle {n : ν} {change : Application ν → Application ν}
    (follows : Follows M a (change a)) (same : (change a).journal = a.journal) :
    Moving M a (lifecycle M n change a) := by
  unfold lifecycle
  split
  · exact .single (.quiet follows same)
  · exact .raised _ a

/-- **Every call is a sequence of moves**, also where it raises. -/
theorem moving_perform (sound : Sound M a) {call : Call ν} (recordable : call.Recordable) :
    Moving M a (perform M call a) := by
  have advances := perform_advances sound call
  cases call with
  | prepareLeadership | retryProposal | recoverDecisions | deliver =>
      exact moving_quiet advances (leaves_protocol _)
  | crash n => exact moving_lifecycle (crash_follows sound n) rfl
  | restart n => exact moving_lifecycle (restart_follows sound n) rfl
  | reconstruct =>
      obtain ⟨b, returned, follows, -, same, -⟩ := reconstruct_keeps sound
      simp only [perform, returned]
      exact .single (.quiet follows same)
  | applyReady n =>
      exact moving_discard sound (moving_quiet (applyReady_advances sound n) (leaves_applyReady n))
  | state n =>
      exact moving_discard sound (moving_quiet (stateOf_advances sound n) (leaves_stateOf n))
  | clientRequests n =>
      exact moving_discard sound
        (moving_quiet (clientRequests_advances sound n) (leaves_clientRequests n))
  | assertSafety => exact moving_require sound _
  | submit n request slot => exact moving_discard sound (moving_submit sound recordable n slot)
  | poll n request expectedBallot apply acknowledge =>
      exact moving_discard sound (moving_poll sound n expectedBallot apply acknowledge)
  | execute n request rounds =>
      refine moving_discard sound ((moving_submit sound recordable n none).bind sound
        fun result b _ submitted => ?_)
      exact moving_executeRounds submitted.sound recordable n rounds result

end Application

end Distlab.MultiPaxos
