import Mathlib.Data.Fintype.EquivFin
import Distlab.MultiPaxos.ClientCalls

/-!
# Applications are exact

In every state that calls lead to, the nodes have applied prefixes of one
sequence of chosen values, a machine is the replay of the durable prefix of its
node, and no request has taken effect twice on a node. The checks pass, and a
reconstruction loses nothing.
-/

set_option autoImplicit false

namespace Distlab.MultiPaxos

open Foundations Paxos Clients

variable {ν : Type} [LinearOrder ν] {M : Membership ν}

namespace Application

variable {a : Application ν}

/-! ## The common sequence -/

/-- The value recorded for a slot. -/
def chosenValue (a : Application ν) (slot : ℕ) : Option Value :=
  (a.cluster.chosen.lookup slot).map (·.value)

omit [LinearOrder ν] in
theorem exists_unchosen (a : Application ν) : ∃ i, a.chosenValue (i + 1) = none := by
  obtain ⟨i, absent⟩ := Infinite.exists_notMem_finset (a.cluster.chosen.keySet.image Nat.pred)
  refine ⟨i, ?_⟩
  by_contra recorded
  refine absent (Finset.mem_image.mpr ⟨i + 1, Dict.mem_keySet.mpr ?_, rfl⟩)
  cases found : a.cluster.chosen.lookup (i + 1) with
  | none =>
      rw [chosenValue, found] at recorded
      exact absurd rfl recorded
  | some d => exact ⟨d, rfl⟩

omit [LinearOrder ν] in
/-- The values chosen from slot one on, up to the first slot without one. -/
theorem exists_sequence (a : Application ν) :
    ∃ sequence : List Value,
      (∀ i, i < sequence.length → sequence[i]? = a.chosenValue (i + 1)) ∧
        a.chosenValue (sequence.length + 1) = none := by
  classical
  have bounded := exists_unchosen a
  refine ⟨(List.range (Nat.find bounded)).map fun i => (a.chosenValue (i + 1)).getD .noop,
    fun i below => ?_, ?_⟩
  · rw [List.length_map, List.length_range] at below
    have chosen : a.chosenValue (i + 1) ≠ none := Nat.find_min bounded below
    rw [List.getElem?_map, List.getElem?_range below, Option.map_some]
    obtain ⟨value, found⟩ := Option.ne_none_iff_exists'.mp chosen
    rw [found, Option.getD_some]
  · rw [List.length_map, List.length_range]
    exact Nat.find_spec bounded

/-- What a node has applied is chosen, slot by slot. -/
theorem Sound.chosenValue_eq (sound : Sound M a) {n : ν} {i : ℕ}
    {d : SlotLearnedDecision ν Value} (found : (a.applied n)[i]? = some d) :
    a.chosenValue (i + 1) = some d.value := by
  obtain ⟨c, recorded, same⟩ := sound.recorded (sound.learned n i d found)
  rw [chosenValue, recorded, Option.map_some, same]

/-- The applied values of a node are a prefix of the values chosen without a gap. -/
theorem Sound.values_prefix (sound : Sound M a) (n : ν) {sequence : List Value}
    (chosen : ∀ i, i < sequence.length → sequence[i]? = a.chosenValue (i + 1))
    (stops : a.chosenValue (sequence.length + 1) = none) :
    (a.applied n).map (·.value) <+: sequence := by
  have fits : (a.applied n).length ≤ sequence.length := by
    by_contra longer
    have found := List.getElem?_eq_getElem (not_le.mp longer)
    rw [sound.chosenValue_eq found] at stops
    cases stops
  refine List.prefix_iff_getElem?.mpr fun i below => ?_
  rw [List.length_map] at below
  rw [chosen i (below.trans_le fits), sound.chosenValue_eq (List.getElem?_eq_getElem below),
    List.getElem_map]

/-! ## What the state machine shows -/

/-- A live node shows the replay of its durable prefix. -/
theorem Sound.shows (sound : Sound M a) {n : ν} (isNode : n ∈ M.nodeIds)
    (alive : a.cluster.alive n = true) {image : KVImage}
    (replayed : replay (a.applied n) = .ok image) :
    (stateOf M n a).value? = some image.kv ∧
      (clientRequests M n a).value? = some image.requests := by
  obtain ⟨machine, b, returned, _, _, _, _, done⟩ := loadMachine_returns sound n
  obtain rfl : image = machine.image := Except.ok.inj (replayed.symm.trans done)
  have lives : requireAlive M n a = .ok () := by
    rw [requireAlive, if_neg (not_not.mpr isNode), if_neg (by simp [alive])]
  unfold stateOf clientRequests
  rw [lives]
  simp only [Application.require, Outcome.bind_returns, returned]
  exact ⟨rfl, rfl⟩

/-! ## Exactness -/

/-- What holds in a state of an application. -/
structure Exact (M : Membership ν) (a : Application ν) : Prop where
  /-- A machine is the replay of the durable prefix. -/
  machine : ∀ n m, a.machine n = some m →
    m.appliedThrough = (a.applied n).length ∧ replay (a.applied n) = .ok m.image
  /-- The key/value map is what the executed requests make of it, and no identity is
  executed twice. -/
  once : ∀ n, ∃ image, replay (a.applied n) = .ok image ∧
    (fun key => image.kv.lookup key) =
      (executedBy (a.applied n)).foldl (fun state done => done.2.execute state) (fun _ => none) ∧
    (Deduplication.identities (executedBy (a.applied n))).Nodup
  /-- `assert_safety` passes. -/
  safe : assertSafety M a = .ok ()

/-- A reconstruction keeps the learned decisions, the applied prefixes, what the live
nodes show and the chosen values. -/
structure Restores (M : Membership ν) (a b : Application ν) : Prop where
  learned : ∀ n slot, learnedDecision b.cluster n slot = learnedDecision a.cluster n slot
  applied : b.applied = a.applied
  chosen : ∀ slot value, a.chosenValue slot = some value → b.chosenValue slot = some value
  shows : ∀ n ∈ M.nodeIds, ∃ image, replay (a.applied n) = .ok image ∧
    (stateOf M n b).value? = some image.kv ∧
    (clientRequests M n b).value? = some image.requests ∧
    (a.cluster.alive n = true → (stateOf M n a).value? = some image.kv ∧
      (clientRequests M n a).value? = some image.requests)

theorem Sound.exact (sound : Sound M a) : Exact M a where
  machine := sound.machine
  once n := by
    obtain ⟨image, replayed, _⟩ := sound.replay_ok n
    exact ⟨image, replayed, kv_replay replayed, nodup_executedBy (a.applied n)⟩
  safe := assertSafety_ok sound

theorem Follows.chosenValue_eq {b : Application ν} (follows : Follows M a b) {slot : ℕ}
    {value : Value} (chosen : a.chosenValue slot = some value) :
    b.chosenValue slot = some value := by
  obtain ⟨d, found, rfl⟩ := Option.map_eq_some_iff.mp chosen
  obtain ⟨d', found', same⟩ := follows.chosen slot d found
  rw [chosenValue, found', Option.map_some, same]

theorem Sound.restores (sound : Sound M a) :
    ∃ b, reconstruct M a = .returns () b ∧ Restores M a b := by
  obtain ⟨b, returned, follows, applied, _, alive, learned⟩ := reconstruct_keeps sound
  refine ⟨b, returned, learned, applied, fun _ _ => follows.chosenValue_eq, fun n isNode => ?_⟩
  obtain ⟨image, replayed, _⟩ := sound.replay_ok n
  obtain ⟨kv, requests⟩ :=
    follows.sound.shows isNode (alive n) (applied ▸ replayed)
  exact ⟨image, replayed, kv, requests, fun alive => sound.shows isNode alive replayed⟩

/-- **Application exactness.** After any calls every node has applied a prefix of one
sequence of chosen values, in slot order, and so it had at every earlier time. The
machines are the replay of the durable prefixes, no identity takes effect twice on a
node, the checks pass and a reconstruction restores everything. -/
theorem application_exactness (M : Membership ν) (calls : List (Call ν)) :
    (∃ sequence : List Value,
      (∀ i, i < sequence.length → sequence[i]? = (after M calls).chosenValue (i + 1)) ∧
      ∀ k n, ((after M (calls.take k)).applied n).map (·.value) <+: sequence ∧
        ∀ i d, ((after M (calls.take k)).applied n)[i]? = some d → d.slot = i + 1) ∧
    Exact M (after M calls) ∧
    ∃ b, reconstruct M (after M calls) = .returns () b ∧ Restores M (after M calls) b := by
  have sound := after_sound M calls
  refine ⟨?_, sound.exact, sound.restores⟩
  obtain ⟨sequence, chosen, stops⟩ := exists_sequence (after M calls)
  refine ⟨sequence, chosen, fun k n => ⟨?_, fun i d => (after_sound M _).slot⟩⟩
  have later := after_follows M (calls.take k) (calls.drop k)
  rw [List.take_append_drop] at later
  exact ((later.applied n).map _).trans (sound.values_prefix n chosen stops)

end Application

end Distlab.MultiPaxos
