import Distlab.MultiPaxos.Agreement
import Distlab.MultiPaxos.Client
import Distlab.MultiPaxos.Recording

/-!
# The invariant of an application

Everything proposed carries a request of the journal or a no-op. The applied
prefix of a node is the start of what it learned, and a loaded machine is the
replay of that prefix. Registered requests are distinct, so no replay raises.
-/

set_option autoImplicit false

namespace Distlab.MultiPaxos

open Foundations Paxos Clients

variable {ν : Type}

/-- The proposals whose values carry what the journal registered. -/
def ClientJournal.proposals (ν : Type) (journal : ClientJournal) :
    Set (SlotAcceptedValue ν Value) :=
  {p | p.value.Carries journal.registered}

namespace Application

variable [LinearOrder ν] (M : Membership ν)

/-- The invariant of an application. -/
structure Sound (a : Application ν) : Prop where
  cluster : Inv M (a.journal.proposals ν) a.cluster
  covered : Covered a.cluster
  learns : a.cluster.learnDecisions = true
  learned : ∀ n i d, (a.applied n)[i]? = some d → learnedDecision a.cluster n (i + 1) = some d
  machine : ∀ n m, a.machine n = some m →
    m.appliedThrough = (a.applied n).length ∧ replay (a.applied n) = .ok m.image
  distinct : Distinct a.journal.registered

/-- `b` comes after `a`: applied prefixes grow, what is learned or registered stays, and
each recorded slot keeps its value. -/
structure Follows (a b : Application ν) : Prop where
  sound : Sound M b
  applied : ∀ n, a.applied n <+: b.applied n
  learned : ∀ n slot d, learnedDecision a.cluster n slot = some d →
    learnedDecision b.cluster n slot = some d
  chosen : ∀ slot d, a.cluster.chosen.lookup slot = some d →
    ∃ d', b.cluster.chosen.lookup slot = some d' ∧ d'.value = d.value
  registered : a.journal.registered ⊆ b.journal.registered

section Following

variable {M} {a b c : Application ν}

theorem Sound.follows (sound : Sound M a) : Follows M a a :=
  ⟨sound, fun _ => List.prefix_rfl, fun _ _ _ => id, fun _ d found => ⟨d, found, rfl⟩, subset_rfl⟩

theorem Follows.trans (first : Follows M a b) (second : Follows M b c) : Follows M a c where
  sound := second.sound
  applied n := (first.applied n).trans (second.applied n)
  learned n slot d found := second.learned n slot d (first.learned n slot d found)
  chosen slot d found := by
    obtain ⟨d', found', same⟩ := first.chosen slot d found
    obtain ⟨d'', found'', same'⟩ := second.chosen slot d' found'
    exact ⟨d'', found'', same'.trans same⟩
  registered := first.registered.trans second.registered

/-- An operation that keeps the invariant along the way, whatever it raises. -/
abbrev Advances {β : Type} (a : Application ν) (outcome : AppOp ν β) : Prop :=
  outcome.Ensures (Follows M a) fun _ _ => True

theorem Follows.raises {β : Type} (follows : Follows M a b) (e : ApplicationError ν) :
    Advances (M := M) a (.raises e b : AppOp ν β) := ⟨follows, trivial⟩

theorem Follows.then {β : Type} {outcome : AppOp ν β} (follows : Follows M a b)
    (advances : Advances (M := M) b outcome) : Advances (M := M) a outcome :=
  advances.mono (fun _ later => follows.trans later) fun _ _ => id

theorem Advances.bind {β γ : Type} {first : AppOp ν β} {next : β → Application ν → AppOp ν γ}
    (advances : Advances (M := M) a first)
    (keeps : ∀ x b, Follows M a b → Advances (M := M) b (next x b)) :
    Advances (M := M) a (first.bind next) :=
  Outcome.Ensures.bind advances (fun x b _ follows => follows.then (keeps x b follows))
    fun _ => id

theorem Sound.require {β : Type} (sound : Sound M a) (result : Except (ApplicationError ν) β) :
    Advances (M := M) a (require result a) := by
  cases result with
  | ok b => exact sound.follows
  | error e => exact sound.follows.raises e

end Following

section Facts

variable {M} {a : Application ν} (sound : Sound M a)

include sound

/-- A learned decision is for its slot and has evidence. -/
theorem Sound.evidence {n : ν} {slot : ℕ} {d : SlotLearnedDecision ν Value}
    (found : learnedDecision a.cluster n slot = some d) :
    d.slot = slot ∧ Evidence M a.cluster.voting d :=
  sound.cluster.evidence_of_learned found

/-- A learned decision carries a registered request or a no-op. -/
theorem Sound.carries {n : ν} {slot : ℕ} {d : SlotLearnedDecision ν Value}
    (found : learnedDecision a.cluster n slot = some d) :
    d.value.Carries a.journal.registered :=
  (sound.cluster.safe_of_evidence (sound.evidence found).2).proposed

/-- A learned decision is recorded with its value. -/
theorem Sound.recorded {n : ν} {slot : ℕ} {d : SlotLearnedDecision ν Value}
    (found : learnedDecision a.cluster n slot = some d) :
    ∃ c, a.cluster.chosen.lookup slot = some c ∧ c.value = d.value := by
  obtain ⟨atSlot, evidence⟩ := sound.evidence found
  have member := sound.covered.learned n slot d found
  rw [atSlot] at member
  obtain ⟨c, recorded⟩ := Option.isSome_iff_exists.mp (AList.lookup_isSome.mpr member)
  obtain ⟨atSlot', evidence'⟩ := sound.cluster.chosen slot c recorded
  exact ⟨c, recorded, sound.cluster.agree evidence' evidence (atSlot'.trans atSlot.symm)⟩

/-- The applied decisions carry registered requests, so their replay succeeds. -/
theorem Sound.replay_ok (n : ν) :
    ∃ image, replay (a.applied n) = .ok image ∧ image.Holds a.journal.registered := by
  refine MultiPaxos.replay_ok sound.distinct fun d member => ?_
  obtain ⟨i, found⟩ := List.getElem?_of_mem member
  exact sound.carries (sound.learned n i d found)

omit sound [LinearOrder ν] in
theorem checkSlots_ok {n : ν} {expected : ℕ} (positive : 0 < expected)
    {applied : List (SlotLearnedDecision ν Value)}
    (slots : ∀ i d, applied[i]? = some d → d.slot = expected + i) :
    checkSlots n expected applied = .ok () := by
  induction applied generalizing expected with
  | nil => rfl
  | cons item rest ih =>
      have here : item.slot = expected := slots 0 item rfl
      have later : ∀ i d, rest[i]? = some d → d.slot = expected + 1 + i := by
        intro i d found
        rw [slots (i + 1) d found]
        omega
      rw [checkSlots, here, if_neg (by omega), if_neg (lt_irrefl _), if_neg (lt_irrefl _)]
      exact ih (Nat.succ_pos _) later

/-- The slots of an applied prefix run from one without gaps. -/
theorem Sound.slot {n : ν} {i : ℕ} {d : SlotLearnedDecision ν Value}
    (found : (a.applied n)[i]? = some d) : d.slot = i + 1 :=
  (sound.evidence (sound.learned n i d found)).1

theorem Sound.durableApplied_ok (n : ν) : durableApplied n a = .ok (a.applied n) := by
  have slots : checkSlots n 1 (a.applied n) = .ok () := by
    refine checkSlots_ok Nat.one_pos fun i d found => ?_
    rw [sound.slot found, Nat.add_comm]
  rw [durableApplied, slots]
  rfl

theorem Sound.requireChosen_ok {n : ν} {slot : ℕ} {d : SlotLearnedDecision ν Value}
    (found : learnedDecision a.cluster n slot = some d) :
    requireChosen M n d a.cluster = .ok () := by
  obtain ⟨atSlot, evidence⟩ := sound.evidence found
  obtain ⟨c, recorded, same⟩ := sound.recorded found
  have matched : (a.cluster.chosen.lookup d.slot).map (·.value) = some d.value := by
    rw [atSlot, recorded, Option.map_some, same]
  rw [requireChosen, atSlot, if_neg (not_not.mpr found), ← atSlot, if_neg (not_not.mpr matched),
    sound.cluster.requireDecisionEvidence_eq evidence]
  rfl

theorem Sound.requireEach_ok (n : ν) :
    (a.applied n).forM (fun decision => requireChosen M n decision a.cluster) = .ok () := by
  refine forM_eq_ok fun d member => ?_
  obtain ⟨i, found⟩ := List.getElem?_of_mem member
  exact sound.requireChosen_ok (sound.learned n i d found)

/-- A node has applied no more decisions than it has learned. -/
theorem Sound.length_le (n : ν) : (a.applied n).length ≤ (a.learnedSlots n).length := by
  have listed : List.range' 1 (a.applied n).length ⊆ a.learnedSlots n := by
    intro slot member
    obtain ⟨i, below, rfl⟩ := List.mem_range'.mp member
    have found := sound.learned n i _ (List.getElem?_eq_getElem below)
    rw [Nat.one_mul, Nat.add_comm]
    exact AList.mem_keys.mp (AList.lookup_isSome.mp (Option.isSome_iff_exists.mpr ⟨_, found⟩))
  have fits := (List.nodup_range' (s := 1) (n := (a.applied n).length)).length_le_of_subset listed
  rwa [List.length_range'] at fits

end Facts

end Application

end Distlab.MultiPaxos
