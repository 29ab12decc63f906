import Mathlib.Data.Finset.Basic
import Mathlib.Data.List.Infix
import Mathlib.Logic.Function.Basic
import Mathlib.Order.Lattice.Nat

/-!
# One log for each term

Nodes hold logs of entries, and every entry has the term in which it was made. A term has
at most one leader, so a term has at most one log that its leader makes: the log with
which the leader was elected, followed by the entries of the term. Every log is rooted in
these logs: up to any of its entries it is the log of the entry's term. So two logs whose
last entries have one term are prefixes of one log (`Rooted.prefix_of_lastTerm`).

A node that matches the log of a term up to an index keeps it there, unless a later leader
was elected without it. Where a majority matches a prefix that ends with an entry of the
term, the prefix is chosen: no later leader is without it (`Sound.prefix_elected`). The
argument is by strong induction on the later term. Its election shares a voter with the
majority. The voter still had the prefix when it voted, and the leader's log was at least
as up to date.

An archive keeps what has happened to the logs. The steps of a protocol are a few
operations on it (`advance`, `vote`, `elect`, `grow`, `accept`, `acknowledge`), and each
keeps the archive sound.
-/

set_option autoImplicit false

namespace Distlab.Foundations.LeaderLogs

universe u v

variable {ι : Type u} {ε : Type v}

/-- The terms of entries, and which sets of nodes decide. Any two of these sets share a
node. -/
structure Rules (ι : Type u) (ε : Type v) where
  term : ε → ℕ
  quorum : Finset ι → Prop
  common : ∀ {first second}, quorum first → quorum second → ∃ v ∈ first, v ∈ second

namespace Rules

variable (R : Rules ι ε)

/-- The term of the last entry. -/
def lastTerm (log : List ε) : ℕ := (log.getLast?.map R.term).getD 0

/-- A log is at least as up to date as another one. -/
def UpToDate (log other : List ε) : Prop :=
  R.lastTerm other < R.lastTerm log ∨
    R.lastTerm other = R.lastTerm log ∧ other.length ≤ log.length

@[simp] theorem lastTerm_nil : R.lastTerm [] = 0 := rfl

@[simp] theorem lastTerm_append_singleton (log : List ε) (entry : ε) :
    R.lastTerm (log ++ [entry]) = R.term entry := by
  simp [lastTerm]

theorem UpToDate.refl (log : List ε) : R.UpToDate log log := .inr ⟨rfl, le_rfl⟩

end Rules

/-- What has happened to the logs of the nodes. -/
structure Archive (ι : Type u) (ε : Type v) where
  currentTerm : ι → ℕ
  log : ι → List ε
  /-- The log that the leader of a term has made so far. -/
  leaderLog : ℕ → List ε
  /-- The log with which the leader of a term was elected. -/
  elected : ℕ → Option (List ε)
  /-- The log with which a node voted in a term. -/
  voted : ι → ℕ → Option (List ε)
  /-- How far a node has matched the log of a term. -/
  matched : ι → ℕ → ℕ

namespace Archive

/-- Nothing has happened. -/
def initial : Archive ι ε where
  currentTerm _ := 0
  log _ := []
  leaderLog _ := []
  elected _ := none
  voted _ _ := none
  matched _ _ := 0

variable (R : Rules ι ε) (A : Archive ι ε)

/-- Up to each of its entries the log is the log of the entry's term. -/
def Rooted (log : List ε) : Prop :=
  ∀ before entry, before ++ [entry] <+: log →
    (A.elected (R.term entry)).isSome ∧ before ++ [entry] <+: A.leaderLog (R.term entry)

/-- The log has the first entries of a term's log, or a later leader, of a term below the
bound, was elected without them. -/
def Keeps (term index : ℕ) (log : List ε) (bound : ℕ) : Prop :=
  (A.leaderLog term).take index <+: log ∨
    ∃ later start, term < later ∧ later < bound ∧ A.elected later = some start ∧
      ¬ (A.leaderLog term).take index <+: start

/-- What holds of every archive. -/
structure Sound : Prop where
  rooted : ∀ v, A.Rooted R (A.log v)
  rootedElected : ∀ T start, A.elected T = some start → A.Rooted R start
  rootedVoted : ∀ v T log, A.voted v T = some log → A.Rooted R log
  bounded : ∀ v, ∀ entry ∈ A.log v, R.term entry ≤ A.currentTerm v
  boundedVoted : ∀ v T log, A.voted v T = some log → ∀ entry ∈ log, R.term entry ≤ T
  leads : ∀ T start, A.elected T = some start → 0 < T ∧ (∀ entry ∈ start, R.term entry < T) ∧
    ∃ own, A.leaderLog T = start ++ own ∧ ∀ entry ∈ own, R.term entry = T
  unled : ∀ T, A.elected T = none → A.leaderLog T = []
  votes : ∀ v T log, A.voted v T = some log → 0 < T ∧ T ≤ A.currentTerm v
  election : ∀ T start, A.elected T = some start → ∃ voters, R.quorum voters ∧
    ∀ v ∈ voters, ∃ log, A.Rooted R log ∧ R.UpToDate start log ∧ T ≤ A.currentTerm v ∧
      ∀ t < T, ∀ index ≤ A.matched v t, A.Keeps t index log T
  within : ∀ v t, A.matched v t ≤ (A.leaderLog t).length
  unmatched : ∀ v t, A.currentTerm v < t → A.matched v t = 0
  kept : ∀ v t, ∀ index ≤ A.matched v t, A.Keeps t index (A.log v) (A.currentTerm v + 1)
  keptVoted : ∀ v T log, A.voted v T = some log → ∀ t < T, ∀ index ≤ A.matched v t,
    A.Keeps t index log (T + 1)

/-- A majority matches the log of a term up to an entry of the term. -/
def Chosen (term index : ℕ) : Prop :=
  0 < term ∧ R.lastTerm ((A.leaderLog term).take index) = term ∧
    ∃ nodes, R.quorum nodes ∧ ∀ v ∈ nodes, index ≤ A.matched v term

/-- A prefix of what was chosen in a term up to a bound. -/
def Safe (bound : ℕ) (log : List ε) : Prop :=
  log = [] ∨ ∃ term ≤ bound, ∃ index, A.Chosen R term index ∧
    log <+: (A.leaderLog term).take index

variable {R A}

/-! ## Rooted logs -/

theorem Rooted.nil : A.Rooted R [] := by
  intro before entry part
  have := part.length_le
  simp at this

theorem Rooted.of_part {log part : List ε} (rooted : A.Rooted R log) (less : part <+: log) :
    A.Rooted R part := fun before entry below => rooted before entry (below.trans less)

/-- A log is a part of the log of its last term. -/
theorem Rooted.prefix_leaderLog {log : List ε} (rooted : A.Rooted R log) (nonempty : log ≠ []) :
    (A.elected (R.lastTerm log)).isSome ∧ log <+: A.leaderLog (R.lastTerm log) := by
  obtain ⟨before, entry, rfl⟩ := (List.eq_nil_or_concat' log).resolve_left nonempty
  rw [R.lastTerm_append_singleton]
  exact rooted before entry List.prefix_rfl

/-- **Log Matching.** Logs that end in one term are prefixes of one log. -/
theorem Rooted.prefix_of_lastTerm {log other : List ε} (rooted : A.Rooted R log)
    (rooted' : A.Rooted R other) (same : R.lastTerm log = R.lastTerm other)
    (shorter : log.length ≤ other.length) : log <+: other := by
  by_cases empty : log = []
  · rw [empty]
    exact List.nil_prefix
  · have nonempty : other ≠ [] := by
      rintro rfl
      exact empty (List.eq_nil_of_length_eq_zero (Nat.le_zero.mp shorter))
    have part := (rooted.prefix_leaderLog empty).2
    rw [same] at part
    exact List.prefix_of_prefix_length_le part (rooted'.prefix_leaderLog nonempty).2 shorter

namespace Sound

variable (sound : A.Sound R)
include sound

theorem term_le_of_mem_leaderLog {T : ℕ} {entry : ε} (member : entry ∈ A.leaderLog T) :
    R.term entry ≤ T := by
  cases elected : A.elected T with
  | none =>
      rw [sound.unled T elected] at member
      cases member
  | some start =>
      obtain ⟨-, below, own, log, same⟩ := sound.leads T start elected
      rw [log, List.mem_append] at member
      exact member.elim (fun early => (below entry early).le) fun late => (same entry late).le

theorem prefix_leaderLog_of_elected {T : ℕ} {start : List ε} (elected : A.elected T = some start) :
    start <+: A.leaderLog T := by
  obtain ⟨-, -, own, log, -⟩ := sound.leads T start elected
  rw [log]
  exact List.prefix_append start own

theorem term_le_lastTerm {log : List ε} (rooted : A.Rooted R log) {entry : ε}
    (member : entry ∈ log) : R.term entry ≤ R.lastTerm log :=
  sound.term_le_of_mem_leaderLog
    ((rooted.prefix_leaderLog (List.ne_nil_of_mem member)).2.subset member)

theorem lastTerm_le_lastTerm {part log : List ε} (rooted : A.Rooted R log) (less : part <+: log) :
    R.lastTerm part ≤ R.lastTerm log := by
  obtain rfl | ⟨before, entry, rfl⟩ := List.eq_nil_or_concat' part
  · exact Nat.zero_le _
  · rw [R.lastTerm_append_singleton]
    exact sound.term_le_lastTerm rooted (less.subset (by simp))

/-- A log that ends in a term is longer than the log with which the term's leader was
elected. -/
theorem length_elected_lt {log start : List ε} (rooted : A.Rooted R log) (nonempty : log ≠ [])
    (elected : A.elected (R.lastTerm log) = some start) : start.length < log.length := by
  by_contra longer
  have part : log <+: start :=
    List.prefix_of_prefix_length_le (rooted.prefix_leaderLog nonempty).2
      (sound.prefix_leaderLog_of_elected elected) (not_lt.mp longer)
  obtain ⟨-, below, -⟩ := sound.leads _ start elected
  obtain ⟨before, entry, rfl⟩ := (List.eq_nil_or_concat' log).resolve_left nonempty
  have less := below entry (part.subset (by simp))
  rw [R.lastTerm_append_singleton] at less
  exact lt_irrefl _ less

/-- What is at least as up to date as a log with a chosen prefix has the prefix, if the
leaders of the terms between have it. -/
theorem prefix_of_upToDate {t : ℕ} {part log start : List ε} (rooted : A.Rooted R log)
    (rootedStart : A.Rooted R start) (upToDate : R.UpToDate start log)
    (has : part <+: log) (reaches : t ≤ R.lastTerm log)
    (between : ∀ start', t < R.lastTerm start →
      A.elected (R.lastTerm start) = some start' → part <+: start') : part <+: start := by
  obtain later | ⟨same, shorter⟩ := upToDate
  · have nonempty : start ≠ [] := by
      rintro rfl
      exact absurd later (Nat.not_lt_zero _)
    obtain ⟨led, below⟩ := rootedStart.prefix_leaderLog nonempty
    obtain ⟨start', elected⟩ := Option.isSome_iff_exists.mp led
    have kept := between start' (reaches.trans_lt later) elected
    exact List.prefix_of_prefix_length_le
      (kept.trans (sound.prefix_leaderLog_of_elected elected)) below
      (kept.length_le.trans (sound.length_elected_lt rootedStart nonempty elected).le)
  · exact has.trans (rooted.prefix_of_lastTerm rootedStart same shorter)

/-- **Leader Completeness.** No later leader is elected without what was chosen. -/
theorem prefix_elected {t index T : ℕ} {start : List ε} (chosen : A.Chosen R t index)
    (later : t < T) (elected : A.elected T = some start) :
    (A.leaderLog t).take index <+: start := by
  induction T using Nat.strong_induction_on generalizing start with
  | _ T ih =>
      obtain ⟨positive, last, nodes, decides, matched⟩ := chosen
      obtain ⟨voters, decides', voted⟩ := sound.election T start elected
      -- The majority that matched and the one that voted share a node.
      obtain ⟨v, matches', votes⟩ := R.common decides decides'
      obtain ⟨log, rooted, upToDate, -, keeps⟩ := voted v votes
      have part : (A.leaderLog t).take index <+: log := by
        obtain part | ⟨between, start', above, below, elected', missing⟩ :=
          keeps t later index (matched v matches')
        · exact part
        · exact absurd (ih between below above elected') missing
      have reaches : t ≤ R.lastTerm log := by
        have mono := sound.lastTerm_le_lastTerm rooted part
        rwa [last] at mono
      have rootedStart := sound.rootedElected T start elected
      refine sound.prefix_of_upToDate rooted rootedStart upToDate part reaches ?_
      intro start' above elected'
      have nonempty : start ≠ [] := by
        rintro rfl
        exact absurd above (Nat.not_lt_zero _)
      have below : R.lastTerm start < T := by
        obtain ⟨-, below, -⟩ := sound.leads T start elected
        obtain ⟨before, entry, rfl⟩ := (List.eq_nil_or_concat' start).resolve_left nonempty
        rw [R.lastTerm_append_singleton]
        exact below entry (by simp)
      exact ih _ below above elected'

/-- What has no entry of a term is in the log with which the term's leader was elected. -/
theorem prefix_elected_of_below {T : ℕ} {part start : List ε} (elected : A.elected T = some start)
    (led : part <+: A.leaderLog T) (below : ∀ entry ∈ part, R.term entry < T) :
    part <+: start := by
  obtain ⟨-, -, own, log, same⟩ := sound.leads T start elected
  rw [log] at led
  obtain within | ⟨more, rfl⟩ :=
    List.prefix_or_prefix_of_prefix led (List.prefix_append start own)
  · exact within
  · have late := (List.prefix_append_right_inj start).mp led
    cases more with
    | nil => rw [List.append_nil]
    | cons entry rest =>
        have early := below entry (by simp)
        have own := same entry (late.subset (by simp))
        omega

/-- A node that has matched what was chosen keeps it. -/
theorem prefix_log_of_matched {t index : ℕ} {v : ι} (chosen : A.Chosen R t index)
    (matched : index ≤ A.matched v t) : (A.leaderLog t).take index <+: A.log v := by
  obtain kept | ⟨later, start, above, -, elected, missing⟩ := sound.kept v t index matched
  · exact kept
  · exact absurd (sound.prefix_elected chosen above elected) missing

/-- A node that has matched all that a later leader was elected with keeps what was chosen. -/
theorem prefix_log_of_chosen {t index T : ℕ} {start : List ε} {v : ι}
    (chosen : A.Chosen R t index) (later : t < T) (elected : A.elected T = some start)
    (matched : start.length ≤ A.matched v T) : (A.leaderLog t).take index <+: A.log v := by
  have part := sound.prefix_elected chosen later elected
  have own := List.prefix_iff_eq_take.mp (part.trans (sound.prefix_leaderLog_of_elected elected))
  obtain kept | ⟨between, start', above, -, elected', missing⟩ :=
    sound.kept v T ((A.leaderLog t).take index).length (part.length_le.trans matched)
  · rwa [← own] at kept
  · rw [← own] at missing
    exact absurd (sound.prefix_elected chosen (later.trans above) elected') missing

theorem isSome_elected_of_chosen {t index : ℕ} (chosen : A.Chosen R t index) :
    (A.elected t).isSome := by
  obtain ⟨positive, last, -⟩ := chosen
  cases elected : A.elected t with
  | some start => rfl
  | none =>
      rw [sound.unled t elected, List.take_nil, R.lastTerm_nil] at last
      omega

/-- What was chosen is in the logs of a majority. -/
theorem exists_quorum_of_safe {T : ℕ} {log : List ε} (safe : A.Safe R T log) :
    log = [] ∨ ∃ nodes, R.quorum nodes ∧ ∀ v ∈ nodes, log <+: A.log v := by
  refine safe.imp_right fun ⟨t, _, index, chosen, part⟩ => ?_
  obtain ⟨-, -, nodes, decides, matched⟩ := id chosen
  exact ⟨nodes, decides, fun v member =>
    part.trans (sound.prefix_log_of_matched chosen (matched v member))⟩

/-- The leader of a term has in its log what was chosen up to the term. -/
theorem prefix_leaderLog_of_safe {T : ℕ} {log : List ε} (safe : A.Safe R T log)
    (led : (A.elected T).isSome) : log <+: A.leaderLog T := by
  obtain rfl | ⟨t, below, index, chosen, part⟩ := safe
  · exact List.nil_prefix
  · obtain ⟨start, elected⟩ := Option.isSome_iff_exists.mp led
    obtain rfl | earlier := below.eq_or_lt
    · exact part.trans (List.take_prefix index _)
    · exact (part.trans (sound.prefix_elected chosen earlier elected)).trans
        (sound.prefix_leaderLog_of_elected elected)

/-- **Two prefixes of what was chosen are prefixes of one log.** -/
theorem prefix_or_prefix_of_safe {T T' : ℕ} {log log' : List ε} (safe : A.Safe R T log)
    (safe' : A.Safe R T' log') : log <+: log' ∨ log' <+: log := by
  obtain rfl | ⟨t, -, index, chosen, part⟩ := safe
  · exact .inl List.nil_prefix
  obtain rfl | ⟨t', -, index', chosen', part'⟩ := safe'
  · exact .inr List.nil_prefix
  have reach : A.Safe R t log := .inr ⟨t, le_rfl, index, chosen, part⟩
  have reach' : A.Safe R t' log' := .inr ⟨t', le_rfl, index', chosen', part'⟩
  have led := sound.isSome_elected_of_chosen chosen
  have led' := sound.isSome_elected_of_chosen chosen'
  obtain below | above := le_total t t'
  · have reach : A.Safe R t' log := .inr ⟨t, below, index, chosen, part⟩
    exact List.prefix_or_prefix_of_prefix (sound.prefix_leaderLog_of_safe reach led')
      (sound.prefix_leaderLog_of_safe reach' led')
  · have reach' : A.Safe R t log' := .inr ⟨t', above, index', chosen', part'⟩
    exact List.prefix_or_prefix_of_prefix (sound.prefix_leaderLog_of_safe reach led)
      (sound.prefix_leaderLog_of_safe reach' led)

/-- What was chosen and ends in a term was chosen in this term. -/
theorem exists_chosen_of_lastTerm {T : ℕ} {log : List ε} (safe : A.Safe R T log)
    (nonempty : log ≠ []) (last : R.lastTerm log = T) :
    ∃ index, log.length ≤ index ∧ A.Chosen R T index := by
  obtain empty | ⟨t, below, index, chosen, part⟩ := safe
  · exact absurd empty nonempty
  · obtain ⟨before, entry, rfl⟩ := (List.eq_nil_or_concat' log).resolve_left nonempty
    rw [R.lastTerm_append_singleton] at last
    have member : entry ∈ A.leaderLog t :=
      (part.trans (List.take_prefix index _)).subset (by simp)
    have above := sound.term_le_of_mem_leaderLog member
    obtain rfl : t = T := by omega
    exact ⟨index, part.length_le.trans (List.length_take_le index _), chosen⟩

/-- **All that was chosen is part of one log**, if it does not grow without a bound. -/
theorem exists_longest_safe {bound : ℕ}
    (bounded : ∀ T log, A.Safe R T log → log.length ≤ bound) :
    ∃ longest T, A.Safe R T longest ∧ ∀ T' log, A.Safe R T' log → log <+: longest := by
  have above : BddAbove {length | ∃ T log, A.Safe R T log ∧ log.length = length} := by
    refine ⟨bound, ?_⟩
    rintro _ ⟨T, log, safe, rfl⟩
    exact bounded T log safe
  have nonempty : {length | ∃ T log, A.Safe R T log ∧ log.length = length}.Nonempty :=
    ⟨0, 0, [], .inl rfl, rfl⟩
  obtain ⟨T, longest, safe, length⟩ := Nat.sSup_mem nonempty above
  refine ⟨longest, T, safe, fun T' log safe' => ?_⟩
  obtain part | part := sound.prefix_or_prefix_of_safe safe' safe
  · exact part
  · have shorter : log.length ≤ longest.length := by
      rw [length]
      exact le_csSup above ⟨T', log, safe', rfl⟩
    exact (part.eq_of_length (Nat.le_antisymm part.length_le shorter)) ▸ List.prefix_rfl

end Sound

end Archive

end Distlab.Foundations.LeaderLogs
