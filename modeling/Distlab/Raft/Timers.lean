import Distlab.Raft.Quiet

/-!
# What an operation does to a node's election timer

For one node an operation either keeps the timer, or arms or disarms it under a
new generation. Between the writes of one operation a node may lose a role before
its timer is armed again: such a step only touches the timer's node, and the reset
that follows settles it.
-/

set_option autoImplicit false

namespace Distlab.Raft

open Foundations

variable {ν : Type} [LinearOrder ν] (C : Config ν) (n : ν)

/-! ## Timeouts -/

/-- The message is the timeout of the node's timer under a generation. -/
def Message.timesOut (message : Message ν) (n : ν) (generation : ℕ) : Bool :=
  decide (message.dst = n) &&
    match message.payload with
    | .electionTimeout generation' _ => decide (generation' = generation)
    | _ => false

/-- The deadline that a timeout carries. -/
def Payload.deadline : Payload ν → Option ℕ
  | .electionTimeout _ deadline => deadline
  | _ => none

/-- A voter that does not lead waits for a timeout. -/
def Waits (s : Cluster ν) : Prop := isVoter C s n = true ∧ s.role n ≠ .leader

instance (s : Cluster ν) : Decidable (Waits C n s) := inferInstanceAs (Decidable (_ ∧ _))

/-! ## Steps -/

/-- The generation does not go back. The timeouts sent are for generations after the
present one, up to the generation reached, and for deadlines that are not over. -/
structure Touched (s t : Cluster ν) : Prop where
  time : t.time = s.time
  later : (s.timer n).generation ≤ (t.timer n).generation
  sent : ∃ sent, t.network = s.network ++ sent ∧
    ∀ message ∈ sent, ∀ generation deadline,
      message.payload = .electionTimeout generation deadline →
        message.src = message.dst ∧ (∃ due, deadline = some due ∧ s.time ≤ due) ∧
        (message.dst = n →
          (s.timer n).generation < generation ∧ generation ≤ (t.timer n).generation)

/-- The step keeps the timer and what decides whether the node waits. -/
structure Kept (s t : Cluster ν) : Prop extends Touched n s t where
  timer : t.timer n = s.timer n
  alive : t.alive n = s.alive n
  waits : Waits C n t ↔ Waits C n s

/-- The messages hold one timeout of the node's present timer if the node waits,
and none if it does not. -/
def Arms (t : Cluster ν) (sent : List (Message ν)) : Prop :=
  if Waits C n t then
    sent.countP (·.timesOut n (t.timer n).generation) = 1 ∧
      ∃ due, (t.timer n).deadline = some due ∧
        ∀ message ∈ sent, message.timesOut n (t.timer n).generation = true →
          message.payload.deadline = some due
  else sent.countP (·.timesOut n (t.timer n).generation) = 0

/-- The step gives the timer a new generation and sends its timeout, if the node
waits for one. -/
structure Rearmed (s t : Cluster ν) : Prop extends Touched n s t where
  newer : (s.timer n).generation < (t.timer n).generation
  arms : ∀ sent, t.network = s.network ++ sent → Arms C n t sent

/-- The step keeps the timer or arms it anew. -/
def Settled (s t : Cluster ν) : Prop := Kept C n s t ∨ Rearmed C n s t

variable {C n} {s t u : Cluster ν}

omit [LinearOrder ν] in
theorem Touched.refl (s : Cluster ν) : Touched n s s where
  time := rfl
  later := le_rfl
  sent := ⟨[], by simp, by simp⟩

omit [LinearOrder ν] in
theorem Touched.trans (first : Touched n s t) (second : Touched n t u) : Touched n s u where
  time := second.time.trans first.time
  later := first.later.trans second.later
  sent := by
    obtain ⟨sent, network, timely⟩ := first.sent
    obtain ⟨sent', network', timely'⟩ := second.sent
    refine ⟨sent ++ sent', by rw [network', network, List.append_assoc], ?_⟩
    intro message member generation deadline payload
    rcases List.mem_append.mp member with early | late
    · obtain ⟨own, due, mine⟩ := timely message early generation deadline payload
      exact ⟨own, due, fun dst => ⟨(mine dst).1, (mine dst).2.trans second.later⟩⟩
    · obtain ⟨own, due, mine⟩ := timely' message late generation deadline payload
      rw [first.time] at due
      exact ⟨own, due, fun dst => ⟨first.later.trans_lt (mine dst).1, (mine dst).2⟩⟩

theorem Kept.refl (s : Cluster ν) : Kept C n s s := ⟨.refl s, rfl, rfl, Iff.rfl⟩

theorem Kept.trans (first : Kept C n s t) (second : Kept C n t u) : Kept C n s u where
  toTouched := first.toTouched.trans second.toTouched
  timer := second.timer.trans first.timer
  alive := second.alive.trans first.alive
  waits := second.waits.trans first.waits

theorem Message.timesOut_eq_true {message : Message ν} {generation : ℕ} :
    message.timesOut n generation = true ↔
      message.dst = n ∧ ∃ deadline, message.payload = .electionTimeout generation deadline := by
  unfold Message.timesOut
  cases payload : message.payload with
  | electionTimeout generation' deadline =>
      simp only [Bool.and_eq_true, decide_eq_true_eq, Payload.electionTimeout.injEq,
        exists_and_left, exists_eq', and_true]
  | _ => simp

/-- A touching step sends no timeout of a generation that it does not reach beyond. -/
theorem Touched.countP_eq_zero {sent : List (Message ν)} (touched : Touched n s t)
    (network : t.network = s.network ++ sent) {generation : ℕ}
    (outside : generation ≤ (s.timer n).generation ∨ (t.timer n).generation < generation) :
    sent.countP (·.timesOut n generation) = 0 := by
  obtain ⟨sent', network', timely⟩ := touched.sent
  obtain rfl : sent = sent' := List.append_cancel_left (network.symm.trans network')
  refine List.countP_eq_zero.mpr fun message member times => ?_
  obtain ⟨dst, deadline, payload⟩ := Message.timesOut_eq_true.mp times
  have bounds := (timely message member generation deadline payload).2.2 dst
  omega

/-! ### Armed timers -/

/-- Messages that are no timeouts of the present timer do not matter. -/
theorem Arms.append {sent extra : List (Message ν)} (arms : Arms C n t sent)
    (silent : extra.countP (·.timesOut n (t.timer n).generation) = 0) :
    Arms C n t (sent ++ extra) := by
  unfold Arms at arms ⊢
  rw [List.countP_append, silent, Nat.add_zero]
  split at arms
  next waits =>
    obtain ⟨once, due, deadline, all⟩ := arms
    rw [if_pos waits]
    refine ⟨once, due, deadline, fun message member times => ?_⟩
    rcases List.mem_append.mp member with mine | other
    · exact all message mine times
    · exact absurd times (List.countP_eq_zero.mp silent message other)
  next waits =>
    rw [if_neg waits]
    exact arms

theorem Arms.perm {first second : List (Message ν)} (arms : Arms C n t first)
    (perm : first.Perm second) : Arms C n t second := by
  unfold Arms at arms ⊢
  rw [← perm.countP_eq]
  split at arms
  next waits =>
    obtain ⟨once, due, deadline, all⟩ := arms
    rw [if_pos waits]
    exact ⟨once, due, deadline, fun message member => all message (perm.mem_iff.mpr member)⟩
  next waits =>
    rw [if_neg waits]
    exact arms

/-- The timer of another state that waits alike has the same timeouts. -/
theorem Arms.of_kept {sent : List (Message ν)} (arms : Arms C n s sent) (kept : Kept C n s t) :
    Arms C n t sent := by
  unfold Arms at arms ⊢
  rw [kept.timer, if_congr kept.waits rfl rfl]
  exact arms

/-- What a step arms stays armed while the timer is kept. -/
theorem Rearmed.kept (first : Rearmed C n s t) (second : Kept C n t u) : Rearmed C n s u where
  toTouched := first.toTouched.trans second.toTouched
  newer := by
    rw [second.timer]
    exact first.newer
  arms sent network := by
    obtain ⟨early, network₁, _⟩ := first.sent
    obtain ⟨late, network₂, _⟩ := second.sent
    obtain rfl : sent = early ++ late := by
      rw [network₂, network₁, List.append_assoc] at network
      exact (List.append_cancel_left network).symm
    refine ((first.arms early network₁).of_kept second).append ?_
    rw [second.timer]
    exact second.toTouched.countP_eq_zero network₂ (.inl le_rfl)

/-- A step that arms the timer settles whatever touched its node before. -/
theorem Touched.rearmed (first : Touched n s t) (second : Rearmed C n t u) :
    Rearmed C n s u where
  toTouched := first.trans second.toTouched
  newer := first.later.trans_lt second.newer
  arms sent network := by
    obtain ⟨early, network₁, _⟩ := first.sent
    obtain ⟨late, network₂, _⟩ := second.sent
    obtain rfl : sent = early ++ late := by
      rw [network₂, network₁, List.append_assoc] at network
      exact (List.append_cancel_left network).symm
    have silent := first.countP_eq_zero network₁ (.inr second.newer)
    exact ((second.arms late network₂).append silent).perm List.perm_append_comm

theorem Settled.touched (settled : Settled C n s t) : Touched n s t :=
  settled.elim (·.toTouched) (·.toTouched)

theorem Settled.refl (s : Cluster ν) : Settled C n s s := .inl (.refl s)

theorem Settled.trans (first : Settled C n s t) (second : Settled C n t u) : Settled C n s u := by
  rcases second with kept | rearmed
  · exact first.imp (·.trans kept) (·.kept kept)
  · exact .inr (first.touched.rearmed rearmed)

/-- A quiet step keeps every timer. -/
theorem Quiet.kept (quiet : Quiet s t) : Kept C n s t where
  time := quiet.time
  later := by rw [quiet.timer]
  sent := by
    obtain ⟨sent, network, none⟩ := quiet.sent
    refine ⟨sent, network, fun message member generation deadline payload => ?_⟩
    exact absurd ⟨generation, deadline, payload⟩ (none message member)
  timer := by rw [quiet.timer]
  alive := by rw [quiet.alive]
  waits := by
    have voter : isVoter C t n = isVoter C s n := by
      unfold isVoter
      rw [quiet.configuration]
    rw [Waits, Waits, voter, quiet.role]

/-! ## Operations on one node -/

/-- A step of one node's operation before it settles: it touches this node and keeps
the timers of the others. -/
structure Shifts (C : Config ν) (n actor : ν) (s t : Cluster ν) : Prop where
  touched : Touched n s t
  others : n ≠ actor → Kept C n s t

/-- A step that settles the operation's node and keeps the timers of the others. -/
structure Resets (C : Config ν) (n actor : ν) (s t : Cluster ν) : Prop where
  rearms : n = actor → Rearmed C n s t
  others : n ≠ actor → Kept C n s t

variable {actor : ν}

theorem Kept.shifts (kept : Kept C n s t) : Shifts C n actor s t := ⟨kept.toTouched, fun _ => kept⟩

theorem Shifts.refl (s : Cluster ν) : Shifts C n actor s s := (Kept.refl s).shifts

theorem Shifts.trans (first : Shifts C n actor s t) (second : Shifts C n actor t u) :
    Shifts C n actor s u where
  touched := first.touched.trans second.touched
  others other := (first.others other).trans (second.others other)

theorem Resets.touched (resets : Resets C n actor s t) : Touched n s t := by
  by_cases same : n = actor
  · exact (resets.rearms same).toTouched
  · exact (resets.others same).toTouched

theorem Resets.settled (resets : Resets C n actor s t) : Settled C n s t := by
  by_cases same : n = actor
  · exact .inr (resets.rearms same)
  · exact .inl (resets.others same)

theorem Shifts.resets (first : Shifts C n actor s t) (second : Resets C n actor t u) :
    Resets C n actor s u where
  rearms same := first.touched.rearmed (second.rearms same)
  others other := (first.others other).trans (second.others other)

theorem Resets.kept (first : Resets C n actor s t) (second : Kept C n t u) :
    Resets C n actor s u where
  rearms same := (first.rearms same).kept second
  others other := (first.others other).trans second

/-- A loop over nodes that settles each of them rearms these and keeps the others. -/
theorem resets_foldl {nodes : List ν} {operation : Cluster ν → ν → Cluster ν}
    {P : Cluster ν → Prop} (holds : P s)
    (each : ∀ m ∈ nodes, ∀ s, P s → P (operation s m) ∧ Resets C n m s (operation s m)) :
    (n ∈ nodes → Rearmed C n s (nodes.foldl operation s)) ∧
      (n ∉ nodes → Kept C n s (nodes.foldl operation s)) := by
  induction nodes generalizing s with
  | nil => exact ⟨fun member => absurd member List.not_mem_nil, fun _ => .refl s⟩
  | cons m rest ih =>
      obtain ⟨holds', first⟩ := each m List.mem_cons_self s holds
      obtain ⟨armed, kept⟩ := ih holds' fun other member =>
        each other (List.mem_cons_of_mem _ member)
      rw [List.foldl_cons]
      refine ⟨fun member => ?_, fun absent => ?_⟩
      · by_cases later : n ∈ rest
        · exact first.touched.rearmed (armed later)
        · have same : n = m := (List.mem_cons.mp member).resolve_right later
          exact (first.rearms same).kept (kept later)
      · obtain ⟨other, later⟩ := not_or.mp fun either => absent (List.mem_cons.mpr either)
        exact (first.others other).trans (kept later)

/-- A step of one node's operation that leaves its timer kept or armed. -/
structure Acts (C : Config ν) (n actor : ν) (s t : Cluster ν) : Prop where
  settled : Settled C n s t
  others : n ≠ actor → Kept C n s t

theorem Kept.acts (kept : Kept C n s t) : Acts C n actor s t := ⟨.inl kept, fun _ => kept⟩

theorem Resets.acts (resets : Resets C n actor s t) : Acts C n actor s t :=
  ⟨resets.settled, resets.others⟩

theorem Acts.trans (first : Acts C n actor s t) (second : Acts C n actor t u) :
    Acts C n actor s u where
  settled := first.settled.trans second.settled
  others other := (first.others other).trans (second.others other)

theorem Resets.trans (first : Resets C n actor s t) (second : Acts C n actor t u) :
    Resets C n actor s u where
  rearms same := by
    rcases second.settled with kept | rearmed
    · exact (first.rearms same).kept kept
    · exact first.touched.rearmed rearmed
  others other := (first.others other).trans (second.others other)

end Distlab.Raft
