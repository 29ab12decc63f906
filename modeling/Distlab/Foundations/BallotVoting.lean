import Mathlib.Data.Finset.Card
import Mathlib.Order.Basic

/-!
# Voting in ballots

The argument common to every Paxos variant, for one decision. Acceptors vote for
values in ballots and promise to vote in no ballot below the one they have
promised. A value is chosen at a ballot when a quorum voted for it there, and
choosable when a quorum has voted for it or still could.

A value is safe at a ballot when every lower ballot can choose only that value.
Safety never gets lost while the votes evolve (`Safe.evolves`). A ballot that
holds reports of a quorum may propose a highest reported value, or any value
when nothing is reported (`safe_of_highest`, `safe_of_no_reports`): both are
safe. When every vote is safe and no acceptor votes twice in a ballot, one value
is chosen (`chosen_agree`).

The rule allows a ballot to propose several values, as long as each is safe.
-/

set_option autoImplicit false

namespace Distlab.Foundations

universe u v w

/-- A family of sets of acceptors, any two of which share an acceptor. -/
structure QuorumSystem (A : Type u) where
  quorums : Set (Finset A)
  meet : ∀ Q ∈ quorums, ∀ R ∈ quorums, ∃ a, a ∈ Q ∧ a ∈ R

/-- The sets of members that hold at least `size` of them, where two such sets
outnumber the members. -/
def QuorumSystem.ofSize {A : Type u} [DecidableEq A] (members : Finset A) (size : ℕ)
    (large : members.card < size + size) : QuorumSystem A where
  quorums := {Q | Q ⊆ members ∧ size ≤ Q.card}
  meet := by
    rintro Q ⟨hQ, sizeQ⟩ R ⟨hR, sizeR⟩
    obtain ⟨a, ha⟩ := Finset.inter_nonempty_of_card_lt_card_add_card hQ hR (by omega)
    exact ⟨a, Finset.mem_inter.mp ha⟩

/-- The votes of the acceptors and their promises. -/
structure Voting (A : Type u) (B : Type v) (V : Type w) where
  votes : A → Set (B × V)
  promised : A → Option B

namespace Voting

variable {A : Type u} {B : Type v} {V : Type w} [LinearOrder B]

/-- The acceptor may still vote at ballot `b`. -/
def Open (S : Voting A B V) (a : A) (b : B) : Prop := ∀ p ∈ S.promised a, p ≤ b

/-- No acceptor votes for two values in one ballot. -/
def OneVote (S : Voting A B V) : Prop :=
  ∀ a b v w, (b, v) ∈ S.votes a → (b, w) ∈ S.votes a → v = w

/-- The acceptor's report at ballot `b`: it promised `b`, reports only votes it
cast, and reports one at least as high as every vote below `b`. -/
structure Reports (S : Voting A B V) (a : A) (b : B) (report : Set (B × V)) : Prop where
  promised : ∃ p ∈ S.promised a, b ≤ p
  cast : report ⊆ S.votes a
  covers : ∀ b' v', (b', v') ∈ S.votes a → b' < b → ∃ e ∈ report, b' ≤ e.1

/-- Votes are never withdrawn, promises never lowered, and a new vote is cast
only where the acceptor was open. -/
structure Evolves (S T : Voting A B V) : Prop where
  votes_mono : ∀ a, S.votes a ⊆ T.votes a
  promised_mono : ∀ a, ∀ p ∈ S.promised a, ∃ q ∈ T.promised a, p ≤ q
  fresh : ∀ a b v, (b, v) ∈ T.votes a → (b, v) ∈ S.votes a ∨ S.Open a b

namespace Evolves

variable {S T U : Voting A B V}

theorem refl (S : Voting A B V) : S.Evolves S :=
  ⟨fun _ => subset_rfl, fun _ p hp => ⟨p, hp, le_rfl⟩, fun _ _ _ h => .inl h⟩

theorem open_of_open (step : S.Evolves T) {a : A} {b : B} (isOpen : T.Open a b) : S.Open a b := by
  intro p hp
  obtain ⟨q, hq, le⟩ := step.promised_mono a p hp
  exact le.trans (isOpen q hq)

theorem trans (first : S.Evolves T) (second : T.Evolves U) : S.Evolves U where
  votes_mono a := (first.votes_mono a).trans (second.votes_mono a)
  promised_mono a p hp := by
    obtain ⟨q, hq, le⟩ := first.promised_mono a p hp
    obtain ⟨r, hr, le'⟩ := second.promised_mono a q hq
    exact ⟨r, hr, le.trans le'⟩
  fresh a b v vote := by
    rcases second.fresh a b v vote with old | isOpen
    · exact first.fresh a b v old
    · exact .inr (first.open_of_open isOpen)

/-- A report stays a report: the promise keeps votes below it out. -/
theorem reports (step : S.Evolves T) {a : A} {b : B} {report : Set (B × V)}
    (holds : S.Reports a b report) : T.Reports a b report where
  promised := by
    obtain ⟨p, hp, le⟩ := holds.promised
    obtain ⟨q, hq, le'⟩ := step.promised_mono a p hp
    exact ⟨q, hq, le.trans le'⟩
  cast := holds.cast.trans (step.votes_mono a)
  covers b' v' vote below := by
    rcases step.fresh a b' v' vote with old | isOpen
    · exact holds.covers b' v' old below
    · obtain ⟨p, hp, le⟩ := holds.promised
      exact absurd (isOpen p hp) (not_le.mpr (below.trans_le le))

end Evolves

section Quorums

variable (quorum : QuorumSystem A) (S : Voting A B V)

/-- A quorum voted for the value at the ballot. -/
def Chosen (b : B) (v : V) : Prop := ∃ Q ∈ quorum.quorums, ∀ a ∈ Q, (b, v) ∈ S.votes a

/-- A quorum voted for the value at the ballot, or may still do so. -/
def Choosable (b : B) (v : V) : Prop :=
  ∃ Q ∈ quorum.quorums, ∀ a ∈ Q, (b, v) ∈ S.votes a ∨ S.Open a b

/-- Lower ballots can choose no other value. -/
def Safe (b : B) (v : V) : Prop := ∀ b' < b, ∀ v', S.Choosable quorum b' v' → v' = v

variable {quorum S} {T : Voting A B V}

theorem Chosen.choosable {b : B} {v : V} (chosen : S.Chosen quorum b v) :
    S.Choosable quorum b v := by
  obtain ⟨Q, hQ, votes⟩ := chosen
  exact ⟨Q, hQ, fun a ha => .inl (votes a ha)⟩

theorem Chosen.evolves (step : S.Evolves T) {b : B} {v : V} (chosen : S.Chosen quorum b v) :
    T.Chosen quorum b v := by
  obtain ⟨Q, hQ, votes⟩ := chosen
  exact ⟨Q, hQ, fun a ha => step.votes_mono a (votes a ha)⟩

/-- What may be chosen later could be chosen before. -/
theorem Choosable.of_evolves (step : S.Evolves T) {b : B} {v : V}
    (choosable : T.Choosable quorum b v) : S.Choosable quorum b v := by
  obtain ⟨Q, hQ, each⟩ := choosable
  refine ⟨Q, hQ, fun a ha => ?_⟩
  rcases each a ha with vote | isOpen
  · exact step.fresh a b v vote
  · exact .inr (step.open_of_open isOpen)

/-- Safety is never lost. -/
theorem Safe.evolves (step : S.Evolves T) {b : B} {v : V} (safe : S.Safe quorum b v) :
    T.Safe quorum b v :=
  fun b' below v' choosable => safe b' below v' (choosable.of_evolves step)

section Reporting

variable {b : B} {Q : Finset A} {report : A → Set (B × V)}

/-- A lower choosable value was voted for by some member of the reporting
quorum, which reports a vote at least as high. -/
theorem exists_report_of_choosable (isQuorum : Q ∈ quorum.quorums)
    (reports : ∀ a ∈ Q, S.Reports a b (report a)) {b' : B} {v' : V} (below : b' < b)
    (choosable : S.Choosable quorum b' v') :
    ∃ a ∈ Q, (b', v') ∈ S.votes a ∧ ∃ e ∈ report a, b' ≤ e.1 := by
  obtain ⟨R, hR, each⟩ := choosable
  obtain ⟨a, haQ, haR⟩ := quorum.meet Q isQuorum R hR
  rcases each a haR with vote | isOpen
  · exact ⟨a, haQ, vote, (reports a haQ).covers b' v' vote below⟩
  · obtain ⟨p, hp, le⟩ := (reports a haQ).promised
    exact absurd (isOpen p hp) (not_le.mpr (below.trans_le le))

/-- Any value is safe when a quorum reports no vote. -/
theorem safe_of_no_reports (isQuorum : Q ∈ quorum.quorums)
    (reports : ∀ a ∈ Q, S.Reports a b (report a)) (none : ∀ a ∈ Q, report a = ∅) (v : V) :
    S.Safe quorum b v := by
  intro b' below v' choosable
  obtain ⟨a, ha, _, e, he, _⟩ := exists_report_of_choosable isQuorum reports below choosable
  rw [none a ha] at he
  exact he.elim

/-- The value of the highest reported vote is safe, if it was safe where it was
voted for. -/
theorem safe_of_highest (one : S.OneVote) (isQuorum : Q ∈ quorum.quorums)
    (reports : ∀ a ∈ Q, S.Reports a b (report a)) {top : B} {v : V}
    (highest : ∀ a ∈ Q, ∀ e ∈ report a, e.1 ≤ top)
    (same : ∀ a ∈ Q, ∀ e ∈ report a, e.1 = top → e.2 = v)
    (safe : S.Safe quorum top v) : S.Safe quorum b v := by
  intro b' below v' choosable
  obtain ⟨a, ha, vote, e, he, le⟩ := exists_report_of_choosable isQuorum reports below choosable
  rcases lt_or_eq_of_le (le.trans (highest a ha e he)) with lower | atTop
  · exact safe b' lower v' choosable
  · have eTop : e.1 = top := le_antisymm (highest a ha e he) (atTop ▸ le)
    have cast : (b', v) ∈ S.votes a := by
      have := (reports a ha).cast he
      rwa [atTop, ← eTop, ← same a ha e he eTop]
    exact one a b' v' v vote cast

end Reporting

/-- **Agreement.** When no acceptor votes twice in a ballot and every vote is
safe, any two chosen values are equal. -/
theorem chosen_agree (one : S.OneVote)
    (safe : ∀ a b v, (b, v) ∈ S.votes a → S.Safe quorum b v) {b₁ b₂ : B} {v₁ v₂ : V}
    (first : S.Chosen quorum b₁ v₁) (second : S.Chosen quorum b₂ v₂) : v₁ = v₂ := by
  obtain ⟨Q, hQ, votesQ⟩ := first
  obtain ⟨R, hR, votesR⟩ := second
  obtain ⟨a, haQ, haR⟩ := quorum.meet Q hQ R hR
  have firstChoosable : S.Choosable quorum b₁ v₁ := Chosen.choosable ⟨Q, hQ, votesQ⟩
  have secondChoosable : S.Choosable quorum b₂ v₂ := Chosen.choosable ⟨R, hR, votesR⟩
  rcases lt_trichotomy b₁ b₂ with lower | same | higher
  · exact safe a b₂ v₂ (votesR a haR) b₁ lower v₁ firstChoosable
  · subst same
    exact one a b₁ v₁ v₂ (votesQ a haQ) (votesR a haR)
  · exact (safe a b₁ v₁ (votesQ a haQ) b₂ higher v₂ secondChoosable).symm

end Quorums

end Voting

end Distlab.Foundations
