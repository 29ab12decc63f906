import Distlab.Foundations.LeaderLogs

/-!
# The steps of an archive

What a protocol does to the logs: a node enters a term (`advance`), votes with its log
(`vote`), a leader is elected with a log that a majority voted for (`elect`) and appends
entries of its term (`grow`). A node takes over the first entries of the log of its term
(`accept`) and states how far it matches that log (`acknowledge`). Every step extends the
archive, so what was chosen stays chosen, and keeps it sound.
-/

set_option autoImplicit false

namespace Distlab.Foundations.LeaderLogs

universe u v

variable {ι : Type u} {ε : Type v} {R : Rules ι ε} {A A' A'' : Archive ι ε}

namespace Archive

/-! ## Later archives -/

/-- The second archive is a later one. -/
structure Extends (A A' : Archive ι ε) : Prop where
  leaderLog : ∀ T, A.leaderLog T <+: A'.leaderLog T
  elected : ∀ T start, A.elected T = some start → A'.elected T = some start
  voted : ∀ v T log, A.voted v T = some log → A'.voted v T = some log
  matched : ∀ v t, A.matched v t ≤ A'.matched v t

namespace Extends

theorem refl (A : Archive ι ε) : A.Extends A :=
  ⟨fun _ => List.prefix_rfl, fun _ _ => id, fun _ _ _ => id, fun _ _ => le_rfl⟩

theorem trans (first : A.Extends A') (second : A'.Extends A'') : A.Extends A'' where
  leaderLog T := (first.leaderLog T).trans (second.leaderLog T)
  elected T start elected := second.elected T start (first.elected T start elected)
  voted v T log voted := second.voted v T log (first.voted v T log voted)
  matched v t := (first.matched v t).trans (second.matched v t)

variable (extends' : A.Extends A')
include extends'

theorem isSome_elected {T : ℕ} (led : (A.elected T).isSome) : (A'.elected T).isSome := by
  obtain ⟨start, elected⟩ := Option.isSome_iff_exists.mp led
  exact Option.isSome_iff_exists.mpr ⟨start, extends'.elected T start elected⟩

theorem take_leaderLog {T index : ℕ} (within : index ≤ (A.leaderLog T).length) :
    (A'.leaderLog T).take index = (A.leaderLog T).take index := by
  obtain ⟨rest, longer⟩ := extends'.leaderLog T
  rw [← longer, List.take_append_of_le_length within]

theorem rooted {log : List ε} (rooted : A.Rooted R log) : A'.Rooted R log :=
  fun before entry part => by
    obtain ⟨led, below⟩ := rooted before entry part
    exact ⟨extends'.isSome_elected led, below.trans (extends'.leaderLog _)⟩

theorem keeps {t index bound bound' : ℕ} {log : List ε}
    (within : index ≤ (A.leaderLog t).length) (less : bound ≤ bound')
    (keeps : A.Keeps t index log bound) : A'.Keeps t index log bound' := by
  unfold Keeps at keeps ⊢
  rw [extends'.take_leaderLog within]
  obtain part | ⟨later, start, above, below, elected, missing⟩ := keeps
  · exact .inl part
  · exact .inr ⟨later, start, above, below.trans_le less, extends'.elected later start elected,
      missing⟩

/-- What was chosen stays chosen. -/
theorem chosen (sound : A.Sound R) {t index : ℕ} (chosen : A.Chosen R t index) :
    A'.Chosen R t index ∧ (A'.leaderLog t).take index = (A.leaderLog t).take index := by
  obtain ⟨positive, last, nodes, decides, matched⟩ := chosen
  obtain ⟨v, member, -⟩ := R.common decides decides
  have same := extends'.take_leaderLog ((matched v member).trans (sound.within v t))
  refine ⟨⟨positive, same ▸ last, nodes, decides, fun w here => ?_⟩, same⟩
  exact (matched w here).trans (extends'.matched w t)

theorem safe (sound : A.Sound R) {T T' : ℕ} {log : List ε} (less : T ≤ T')
    (safe : A.Safe R T log) : A'.Safe R T' log := by
  obtain empty | ⟨t, below, index, chosen, part⟩ := safe
  · exact .inl empty
  · obtain ⟨chosen', same⟩ := extends'.chosen sound chosen
    exact .inr ⟨t, below.trans less, index, chosen', same ▸ part⟩

end Extends

theorem Safe.mono {T T' : ℕ} {log : List ε} (safe : A.Safe R T log) (less : T ≤ T') :
    A.Safe R T' log :=
  safe.imp id fun ⟨t, below, chosen⟩ => ⟨t, below.trans less, chosen⟩

theorem Safe.of_part {T : ℕ} {log part : List ε} (safe : A.Safe R T log)
    (less : part <+: log) : A.Safe R T part := by
  obtain rfl | ⟨t, below, index, chosen, within⟩ := safe
  · exact .inl (List.prefix_nil.mp less)
  · exact .inr ⟨t, below, index, chosen, less.trans within⟩

theorem keeps_zero (A : Archive ι ε) (t : ℕ) (log : List ε) (bound : ℕ) :
    A.Keeps t 0 log bound := .inl List.nil_prefix

/-! ## The operations -/

variable [DecidableEq ι]

/-- A node enters a term. -/
def advance (A : Archive ι ε) (v : ι) (T : ℕ) : Archive ι ε :=
  { A with currentTerm := Function.update A.currentTerm v T }

/-- A node votes in its term. -/
def vote (A : Archive ι ε) (v : ι) : Archive ι ε :=
  { A with voted := fun w T =>
      if w = v ∧ T = A.currentTerm v then some (A.log v) else A.voted w T }

/-- A leader is elected. -/
def elect (A : Archive ι ε) (T : ℕ) (start : List ε) : Archive ι ε :=
  { A with
    leaderLog := Function.update A.leaderLog T start
    elected := Function.update A.elected T (some start) }

/-- The log of a term grows. -/
def grow (A : Archive ι ε) (T : ℕ) (entry : ε) : Archive ι ε :=
  { A with leaderLog := Function.update A.leaderLog T (A.leaderLog T ++ [entry]) }

/-- A node takes over the first entries of the log of its term. -/
def accept (A : Archive ι ε) (v : ι) (index : ℕ) : Archive ι ε :=
  { A with log := Function.update A.log v ((A.leaderLog (A.currentTerm v)).take index) }

/-- A node states that it matches the log of its term up to an index. -/
def acknowledge (A : Archive ι ε) (v : ι) (index : ℕ) : Archive ι ε :=
  { A with matched := fun w t =>
      if w = v ∧ t = A.currentTerm v then max (A.matched w t) index else A.matched w t }

@[simp] theorem log_accept_self (A : Archive ι ε) (v : ι) (index : ℕ) :
    (A.accept v index).log v = (A.leaderLog (A.currentTerm v)).take index :=
  Function.update_self ..

theorem log_accept_of_ne (A : Archive ι ε) {v w : ι} (index : ℕ) (other : w ≠ v) :
    (A.accept v index).log w = A.log w := Function.update_of_ne other ..

/-! ## They extend the archive -/

theorem extends_advance (A : Archive ι ε) (v : ι) (T : ℕ) : A.Extends (A.advance v T) :=
  ⟨fun _ => List.prefix_rfl, fun _ _ => id, fun _ _ _ => id, fun _ _ => le_rfl⟩

theorem extends_vote {v : ι} (free : A.voted v (A.currentTerm v) = none) :
    A.Extends (A.vote v) where
  leaderLog _ := List.prefix_rfl
  elected _ _ := id
  voted w T log voted := by
    have other : ¬ (w = v ∧ T = A.currentTerm v) := by
      rintro ⟨rfl, rfl⟩
      rw [free] at voted
      cases voted
    simpa only [vote, if_neg other] using voted
  matched _ _ := le_rfl

omit [DecidableEq ι] in
theorem extends_elect {T : ℕ} {start : List ε} (sound : A.Sound R) (free : A.elected T = none) :
    A.Extends (A.elect T start) where
  leaderLog t := by
    by_cases same : t = T
    · rw [same, sound.unled T free]
      exact List.nil_prefix
    · simp only [elect, Function.update_of_ne same]
      exact List.prefix_rfl
  elected t start' elected := by
    have other : t ≠ T := by
      rintro rfl
      rw [free] at elected
      cases elected
    simpa only [elect, Function.update_of_ne other] using elected
  voted _ _ _ := id
  matched _ _ := le_rfl

omit [DecidableEq ι] in
theorem extends_grow (A : Archive ι ε) (T : ℕ) (entry : ε) : A.Extends (A.grow T entry) where
  leaderLog t := by
    by_cases same : t = T
    · subst same
      simp only [grow, Function.update_self]
      exact List.prefix_append _ _
    · simp only [grow, Function.update_of_ne same]
      exact List.prefix_rfl
  elected _ _ := id
  voted _ _ _ := id
  matched _ _ := le_rfl

theorem extends_accept (A : Archive ι ε) (v : ι) (index : ℕ) : A.Extends (A.accept v index) :=
  ⟨fun _ => List.prefix_rfl, fun _ _ => id, fun _ _ _ => id, fun _ _ => le_rfl⟩

theorem extends_acknowledge (A : Archive ι ε) (v : ι) (index : ℕ) :
    A.Extends (A.acknowledge v index) where
  leaderLog _ := List.prefix_rfl
  elected _ _ := id
  voted _ _ _ := id
  matched w t := by
    unfold acknowledge
    dsimp only
    split
    · exact le_max_left _ _
    · exact le_rfl

/-! ## They keep it sound -/

omit [DecidableEq ι] in
theorem Rooted.led {log : List ε} (rooted : A.Rooted R log) {entry : ε} (member : entry ∈ log) :
    (A.elected (R.term entry)).isSome := by
  obtain ⟨before, after, rfl⟩ := List.append_of_mem member
  exact (rooted before entry ⟨after, by simp⟩).1

namespace Sound

variable (sound : A.Sound R)
include sound

omit [DecidableEq ι] in
/-- The log of a term is rooted. -/
theorem rooted_leaderLog {T : ℕ} (led : (A.elected T).isSome) : A.Rooted R (A.leaderLog T) := by
  obtain ⟨start, elected⟩ := Option.isSome_iff_exists.mp led
  obtain ⟨-, -, own, log, same⟩ := sound.leads T start elected
  intro before entry part
  by_cases ends : R.term entry = T
  · exact ends ▸ ⟨led, part⟩
  · refine sound.rootedElected T start elected before entry ?_
    rw [log] at part
    refine List.prefix_of_prefix_length_le part (List.prefix_append start own) ?_
    by_contra longer
    -- Beyond the start there are entries of the term only.
    have inside : start.length ≤ before.length := by
      rw [List.length_append, List.length_singleton] at longer
      omega
    have found : (start ++ own)[before.length]? = some entry := by
      obtain ⟨rest, whole⟩ := part
      rw [← whole, List.append_assoc, List.getElem?_append_right le_rfl]
      simp
    rw [List.getElem?_append_right inside] at found
    exact ends (same entry (List.mem_of_getElem? found))

theorem advance {v : ι} {T : ℕ} (below : A.currentTerm v ≤ T) : (A.advance v T).Sound R := by
  have later : ∀ w, A.currentTerm w ≤ (A.advance v T).currentTerm w := by
    intro w
    by_cases same : w = v
    · subst same
      simpa [Archive.advance] using below
    · simp [Archive.advance, same]
  have extends' := A.extends_advance v T
  exact
    { rooted := sound.rooted
      rootedElected := sound.rootedElected
      rootedVoted := sound.rootedVoted
      bounded := fun w entry member => (sound.bounded w entry member).trans (later w)
      boundedVoted := sound.boundedVoted
      leads := sound.leads
      unled := sound.unled
      votes := fun w t log voted => (sound.votes w t log voted).imp id fun below =>
        below.trans (later w)
      election := fun t start elected => by
        obtain ⟨voters, decides, voted⟩ := sound.election t start elected
        refine ⟨voters, decides, fun w member => ?_⟩
        obtain ⟨log, rooted, upToDate, reached, keeps⟩ := voted w member
        exact ⟨log, rooted, upToDate, reached.trans (later w), keeps⟩
      within := sound.within
      unmatched := fun w t above => sound.unmatched w t ((later w).trans_lt above)
      kept := fun w t index matched =>
        extends'.keeps (matched.trans (sound.within w t)) (Nat.succ_le_succ (later w))
          (sound.kept w t index matched)
      keptVoted := sound.keptVoted }

theorem vote {v : ι} (positive : 0 < A.currentTerm v) : (A.vote v).Sound R := by
  have cases' : ∀ {w T log}, (A.vote v).voted w T = some log →
      w = v ∧ T = A.currentTerm v ∧ log = A.log v ∨ A.voted w T = some log := by
    intro w T log voted
    unfold Archive.vote at voted
    dsimp only at voted
    split at voted
    next same => exact .inl ⟨same.1, same.2, (Option.some.inj voted).symm⟩
    next => exact .inr voted
  exact
    { rooted := sound.rooted
      rootedElected := sound.rootedElected
      rootedVoted := fun w T log voted => by
        obtain ⟨rfl, rfl, rfl⟩ | old := cases' voted
        · exact sound.rooted w
        · exact sound.rootedVoted w T log old
      bounded := sound.bounded
      boundedVoted := fun w T log voted => by
        obtain ⟨rfl, rfl, rfl⟩ | old := cases' voted
        · exact sound.bounded w
        · exact sound.boundedVoted w T log old
      leads := sound.leads
      unled := sound.unled
      votes := fun w T log voted => by
        obtain ⟨rfl, rfl, rfl⟩ | old := cases' voted
        · exact ⟨positive, le_rfl⟩
        · exact sound.votes w T log old
      election := sound.election
      within := sound.within
      unmatched := sound.unmatched
      kept := sound.kept
      keptVoted := fun w T log voted t earlier index matched => by
        obtain ⟨rfl, rfl, rfl⟩ | old := cases' voted
        · exact sound.kept w t index matched
        · exact sound.keptVoted w T log old t earlier index matched }

omit [DecidableEq ι] in
/-- A leader is elected with a log that a majority found up to date. -/
theorem elect {T : ℕ} {start : List ε} {voters : Finset ι} (free : A.elected T = none)
    (positive : 0 < T) (rooted : A.Rooted R start) (below : ∀ entry ∈ start, R.term entry ≤ T)
    (decides : R.quorum voters)
    (votes : ∀ v ∈ voters, ∃ log, A.voted v T = some log ∧ R.UpToDate start log) :
    (A.elect T start).Sound R := by
  have extends' : A.Extends (A.elect T start) := extends_elect sound free
  have cases' : ∀ {t start'}, (A.elect T start).elected t = some start' →
      t = T ∧ start' = start ∨ t ≠ T ∧ A.elected t = some start' := by
    intro t start' elected
    by_cases same : t = T
    · subst same
      simp only [Archive.elect, Function.update_self, Option.some.injEq] at elected
      exact .inl ⟨rfl, elected.symm⟩
    · simp only [Archive.elect, Function.update_of_ne same] at elected
      exact .inr ⟨same, elected⟩
  have keeps : ∀ {w t index log bound}, index ≤ A.matched w t → A.Keeps t index log bound →
      (A.elect T start).Keeps t index log bound := fun matched kept =>
    extends'.keeps (matched.trans (sound.within _ _)) le_rfl kept
  exact
    { rooted := fun w => extends'.rooted (sound.rooted w)
      rootedElected := fun t start' elected => by
        obtain ⟨rfl, rfl⟩ | ⟨-, old⟩ := cases' elected
        · exact extends'.rooted rooted
        · exact extends'.rooted (sound.rootedElected t start' old)
      rootedVoted := fun w t log voted => extends'.rooted (sound.rootedVoted w t log voted)
      bounded := sound.bounded
      boundedVoted := sound.boundedVoted
      leads := fun t start' elected => by
        obtain ⟨rfl, rfl⟩ | ⟨other, old⟩ := cases' elected
        · refine ⟨positive, fun entry member => ?_, [], ?_, by simp⟩
          · refine (below entry member).lt_of_ne fun same => ?_
            have led := rooted.led member
            rw [same, free] at led
            cases led
          · simp [Archive.elect]
        · simpa only [Archive.elect, Function.update_of_ne other] using sound.leads t start' old
      unled := fun t none => by
        by_cases same : t = T
        · subst same
          simp [Archive.elect] at none
        · simp only [Archive.elect, Function.update_of_ne same] at none ⊢
          exact sound.unled t none
      votes := sound.votes
      election := fun t start' elected => by
        obtain ⟨rfl, rfl⟩ | ⟨-, old⟩ := cases' elected
        · refine ⟨voters, decides, fun v member => ?_⟩
          obtain ⟨log, voted, upToDate⟩ := votes v member
          refine ⟨log, extends'.rooted (sound.rootedVoted v t log voted), upToDate,
            (sound.votes v t log voted).2, fun t' earlier index matched => keeps matched ?_⟩
          -- No leader of the term itself was there when the vote was cast.
          obtain part | ⟨later, start', above, below, elected', missing⟩ :=
            sound.keptVoted v t log voted t' earlier index matched
          · exact .inl part
          · refine .inr ⟨later, start', above, ?_, elected', missing⟩
            refine (Nat.lt_succ_iff.mp below).lt_of_ne fun same => ?_
            rw [same, free] at elected'
            cases elected'
        · obtain ⟨voters', decides', voted⟩ := sound.election t start' old
          refine ⟨voters', decides', fun w member => ?_⟩
          obtain ⟨log, rooted, upToDate, reached, kept⟩ := voted w member
          exact ⟨log, extends'.rooted rooted, upToDate, reached,
            fun t' earlier index matched => keeps matched (kept t' earlier index matched)⟩
      within := fun w t => (sound.within w t).trans (extends'.leaderLog t).length_le
      unmatched := sound.unmatched
      kept := fun w t index matched => keeps matched (sound.kept w t index matched)
      keptVoted := fun w t log voted t' earlier index matched =>
        keeps matched (sound.keptVoted w t log voted t' earlier index matched) }

omit [DecidableEq ι] in
/-- The leader of a term makes an entry. -/
theorem grow {T : ℕ} {entry : ε} (led : (A.elected T).isSome) (own : R.term entry = T) :
    (A.grow T entry).Sound R := by
  have extends' := A.extends_grow T entry
  have keeps : ∀ {w t index log bound}, index ≤ A.matched w t → A.Keeps t index log bound →
      (A.grow T entry).Keeps t index log bound := fun matched kept =>
    extends'.keeps (matched.trans (sound.within _ _)) le_rfl kept
  exact
    { rooted := fun w => extends'.rooted (sound.rooted w)
      rootedElected := fun t start elected => extends'.rooted (sound.rootedElected t start elected)
      rootedVoted := fun w t log voted => extends'.rooted (sound.rootedVoted w t log voted)
      bounded := sound.bounded
      boundedVoted := sound.boundedVoted
      leads := fun t start elected => by
        obtain ⟨positive, below, rest, log, same⟩ := sound.leads t start elected
        refine ⟨positive, below, ?_⟩
        by_cases here : t = T
        · subst here
          refine ⟨rest ++ [entry], by simp [Archive.grow, log], fun e member => ?_⟩
          obtain old | new := List.mem_append.mp member
          · exact same e old
          · rwa [List.mem_singleton.mp new]
        · exact ⟨rest, by simpa only [Archive.grow, Function.update_of_ne here] using log, same⟩
      unled := fun t unled => by
        have other : t ≠ T := by
          rintro rfl
          rw [show A.elected t = none from unled] at led
          cases led
        simpa only [Archive.grow, Function.update_of_ne other] using sound.unled t unled
      votes := sound.votes
      election := fun t start elected => by
        obtain ⟨voters, decides, voted⟩ := sound.election t start elected
        refine ⟨voters, decides, fun w member => ?_⟩
        obtain ⟨log, rooted, upToDate, reached, kept⟩ := voted w member
        exact ⟨log, extends'.rooted rooted, upToDate, reached,
          fun t' earlier index matched => keeps matched (kept t' earlier index matched)⟩
      within := fun w t => (sound.within w t).trans (extends'.leaderLog t).length_le
      unmatched := sound.unmatched
      kept := fun w t index matched => keeps matched (sound.kept w t index matched)
      keptVoted := fun w t log voted t' earlier index matched =>
        keeps matched (sound.keptVoted w t log voted t' earlier index matched) }

omit [DecidableEq ι] in
/-- What a node has kept, it keeps when it takes over entries that it misses of the log of
its term. -/
theorem keeps_take {v : ι} {index : ℕ} (led : (A.elected (A.currentTerm v)).isSome)
    (missing : ¬ (A.leaderLog (A.currentTerm v)).take index <+: A.log v) {t index' : ℕ}
    (matched : index' ≤ A.matched v t) :
    A.Keeps t index' ((A.leaderLog (A.currentTerm v)).take index) (A.currentTerm v + 1) := by
  -- A prefix that both logs have ends before the first entry that is missing.
  have shared : ∀ {part : List ε}, part <+: A.log v → part <+: A.leaderLog (A.currentTerm v) →
      part <+: (A.leaderLog (A.currentTerm v)).take index := by
    intro part has part'
    obtain within | beyond := List.prefix_or_prefix_of_prefix part' (List.take_prefix index _)
    · exact within
    · exact absurd (beyond.trans has) missing
  obtain has | lacks := sound.kept v t index' matched
  · obtain earlier | rfl | later := Nat.lt_trichotomy t (A.currentTerm v)
    · obtain ⟨start, elected⟩ := Option.isSome_iff_exists.mp led
      by_cases part : (A.leaderLog t).take index' <+: start
      · exact .inl (shared has (part.trans (sound.prefix_leaderLog_of_elected elected)))
      · exact .inr ⟨A.currentTerm v, start, earlier, Nat.lt_succ_self _, elected, part⟩
    · exact .inl (shared has (List.take_prefix index' _))
    · rw [sound.unmatched v t later, Nat.le_zero] at matched
      rw [matched]
      exact A.keeps_zero t _ _
  · exact .inr lacks

/-- A node takes over entries that it misses. -/
theorem accept {v : ι} {index : ℕ} (led : (A.elected (A.currentTerm v)).isSome)
    (missing : ¬ (A.leaderLog (A.currentTerm v)).take index <+: A.log v) :
    (A.accept v index).Sound R := by
  have rooted : A.Rooted R ((A.leaderLog (A.currentTerm v)).take index) :=
    (sound.rooted_leaderLog led).of_part (List.take_prefix index _)
  exact
    { rooted := fun w => by
        by_cases same : w = v
        · subst same
          rw [log_accept_self]
          exact rooted
        · rw [log_accept_of_ne A index same]
          exact sound.rooted w
      rootedElected := sound.rootedElected
      rootedVoted := sound.rootedVoted
      bounded := fun w entry member => by
        by_cases same : w = v
        · subst same
          rw [log_accept_self] at member
          exact sound.term_le_of_mem_leaderLog (List.mem_of_mem_take member)
        · rw [log_accept_of_ne A index same] at member
          exact sound.bounded w entry member
      boundedVoted := sound.boundedVoted
      leads := sound.leads
      unled := sound.unled
      votes := sound.votes
      election := sound.election
      within := sound.within
      unmatched := sound.unmatched
      kept := fun w t index' matched => by
        by_cases same : w = v
        · subst same
          rw [log_accept_self]
          exact sound.keeps_take led missing matched
        · rw [log_accept_of_ne A index same]
          exact sound.kept w t index' matched
      keptVoted := sound.keptVoted }

/-- A node that has the first entries of the log of its term states so. -/
theorem acknowledge {v : ι} {index : ℕ}
    (within : index ≤ (A.leaderLog (A.currentTerm v)).length)
    (has : (A.leaderLog (A.currentTerm v)).take index <+: A.log v) :
    (A.acknowledge v index).Sound R := by
  have cases' : ∀ {w t index'}, index' ≤ (A.acknowledge v index).matched w t →
      index' ≤ A.matched w t ∨ w = v ∧ t = A.currentTerm v ∧ index' ≤ index := by
    intro w t index' matched
    unfold Archive.acknowledge at matched
    dsimp only at matched
    split at matched
    next same => exact (le_max_iff.mp matched).imp id fun new => ⟨same.1, same.2, new⟩
    next => exact .inl matched
  have earlier : ∀ {w t index'}, t < A.currentTerm w →
      index' ≤ (A.acknowledge v index).matched w t → index' ≤ A.matched w t := by
    intro w t index' below matched
    obtain old | ⟨rfl, rfl, -⟩ := cases' matched
    · exact old
    · exact absurd below (lt_irrefl _)
  exact
    { rooted := sound.rooted
      rootedElected := sound.rootedElected
      rootedVoted := sound.rootedVoted
      bounded := sound.bounded
      boundedVoted := sound.boundedVoted
      leads := sound.leads
      unled := sound.unled
      votes := sound.votes
      election := fun t start elected => by
        obtain ⟨voters, decides, voted⟩ := sound.election t start elected
        refine ⟨voters, decides, fun w member => ?_⟩
        obtain ⟨log, rooted, upToDate, reached, kept⟩ := voted w member
        exact ⟨log, rooted, upToDate, reached, fun t' below index' matched =>
          kept t' below index' (earlier (below.trans_le reached) matched)⟩
      within := fun w t => by
        obtain old | ⟨rfl, rfl, new⟩ := cases' (le_refl ((A.acknowledge v index).matched w t))
        · exact old.trans (sound.within w t)
        · exact new.trans within
      unmatched := fun w t above => by
        obtain old | ⟨rfl, rfl, -⟩ := cases' (le_refl ((A.acknowledge v index).matched w t))
        · exact Nat.le_zero.mp (old.trans (sound.unmatched w t above).le)
        · exact absurd above (lt_irrefl _)
      kept := fun w t index' matched => by
        obtain old | ⟨rfl, rfl, new⟩ := cases' matched
        · exact sound.kept w t index' old
        · exact .inl ((List.take_prefix_take_left new).trans has)
      keptVoted := fun w T log voted t below index' matched =>
        sound.keptVoted w T log voted t below index'
          (earlier (below.trans_le (sound.votes w T log voted).2) matched) }

end Sound

/-! ## Following -/

open Classical in
/-- A node takes over the first entries of the log of its term, unless it has them. -/
noncomputable def adopt (A : Archive ι ε) (v : ι) (index : ℕ) : Archive ι ε :=
  if (A.leaderLog (A.currentTerm v)).take index <+: A.log v then A else A.accept v index

section Adopt

variable {v : ι} {index : ℕ}

theorem adopt_of_part (has : (A.leaderLog (A.currentTerm v)).take index <+: A.log v) :
    A.adopt v index = A := if_pos has

theorem adopt_of_missing (missing : ¬ (A.leaderLog (A.currentTerm v)).take index <+: A.log v) :
    A.adopt v index = A.accept v index := if_neg missing

theorem extends_adopt (A : Archive ι ε) (v : ι) (index : ℕ) : A.Extends (A.adopt v index) := by
  unfold adopt
  split
  · exact .refl A
  · exact A.extends_accept v index

theorem log_adopt_of_ne (A : Archive ι ε) {v w : ι} (index : ℕ) (other : w ≠ v) :
    (A.adopt v index).log w = A.log w := by
  unfold adopt
  split
  · rfl
  · exact A.log_accept_of_ne index other

theorem prefix_log_adopt (A : Archive ι ε) (v : ι) (index : ℕ) :
    (A.leaderLog (A.currentTerm v)).take index <+: (A.adopt v index).log v := by
  by_cases has : (A.leaderLog (A.currentTerm v)).take index <+: A.log v
  · rwa [adopt_of_part has]
  · rw [adopt_of_missing has, log_accept_self]

/-- What a node shares with the log of its term, it keeps. -/
theorem prefix_log_adopt_of_shared {part : List ε} (has : part <+: A.log v)
    (shared : part <+: A.leaderLog (A.currentTerm v)) : part <+: (A.adopt v index).log v := by
  by_cases whole : (A.leaderLog (A.currentTerm v)).take index <+: A.log v
  · rwa [adopt_of_part whole]
  · rw [adopt_of_missing whole, log_accept_self]
    obtain within | beyond := List.prefix_or_prefix_of_prefix shared (List.take_prefix index _)
    · exact within
    · exact absurd (beyond.trans has) whole

theorem Sound.adopt (sound : A.Sound R) (led : (A.elected (A.currentTerm v)).isSome) :
    (A.adopt v index).Sound R := by
  by_cases has : (A.leaderLog (A.currentTerm v)).take index <+: A.log v
  · rwa [adopt_of_part has]
  · rw [adopt_of_missing has]
    exact sound.accept led has

end Adopt

/-! ## Appending -/

/-- The leader of a term makes an entry, which it has and matches. -/
def extend (A : Archive ι ε) (v : ι) (entry : ε) : Archive ι ε :=
  ((A.grow (A.currentTerm v) entry).accept v ((A.log v).length + 1)).acknowledge v
    ((A.log v).length + 1)

section Extend

variable {v : ι} {entry : ε}

theorem extends_extend (A : Archive ι ε) (v : ι) (entry : ε) : A.Extends (A.extend v entry) :=
  ((A.extends_grow (A.currentTerm v) entry).trans (extends_accept _ v _)).trans
    (extends_acknowledge _ v _)

@[simp] theorem leaderLog_extend_self (A : Archive ι ε) (v : ι) (entry : ε) :
    (A.extend v entry).leaderLog (A.currentTerm v) = A.leaderLog (A.currentTerm v) ++ [entry] :=
  Function.update_self ..

theorem leaderLog_extend_of_ne (A : Archive ι ε) (v : ι) (entry : ε) {T : ℕ}
    (other : T ≠ A.currentTerm v) : (A.extend v entry).leaderLog T = A.leaderLog T :=
  Function.update_of_ne other ..

theorem log_extend_of_ne (A : Archive ι ε) {v w : ι} (entry : ε) (other : w ≠ v) :
    (A.extend v entry).log w = A.log w := Function.update_of_ne other ..

theorem log_extend_self (own : A.leaderLog (A.currentTerm v) = A.log v) :
    (A.extend v entry).log v = A.log v ++ [entry] := by
  change ((A.grow (A.currentTerm v) entry).accept v ((A.log v).length + 1)).log v = _
  rw [log_accept_self]
  change ((A.extend v entry).leaderLog (A.currentTerm v)).take _ = _
  rw [leaderLog_extend_self, own, List.take_of_length_le (by simp)]

theorem length_le_matched_extend (A : Archive ι ε) (v : ι) (entry : ε) :
    (A.log v).length + 1 ≤ (A.extend v entry).matched v (A.currentTerm v) := by
  unfold extend acknowledge
  dsimp only
  rw [if_pos ⟨rfl, rfl⟩]
  exact le_max_right _ _

theorem Sound.extend (sound : A.Sound R) (led : (A.elected (A.currentTerm v)).isSome)
    (own : A.leaderLog (A.currentTerm v) = A.log v) (term : R.term entry = A.currentTerm v) :
    (A.extend v entry).Sound R := by
  have grown : (A.grow (A.currentTerm v) entry).leaderLog (A.currentTerm v) =
      A.log v ++ [entry] := (leaderLog_extend_self A v entry).trans (by rw [own])
  have whole : (A.log v ++ [entry]).take ((A.log v).length + 1) = A.log v ++ [entry] :=
    List.take_of_length_le (by simp)
  have missing : ¬ ((A.grow (A.currentTerm v) entry).leaderLog (A.currentTerm v)).take
      ((A.log v).length + 1) <+: A.log v := by
    rw [grown, whole]
    intro part
    have longer := part.length_le
    rw [List.length_append, List.length_singleton] at longer
    omega
  refine ((sound.grow led term).accept (v := v) led missing).acknowledge (v := v) ?_ ?_
  · exact (by rw [grown, List.length_append, List.length_singleton] :
      (A.log v).length + 1 ≤
        ((A.grow (A.currentTerm v) entry).leaderLog (A.currentTerm v)).length)
  · rw [log_accept_self]
    exact List.prefix_rfl

end Extend

omit [DecidableEq ι] in
/-- Nothing has happened yet, and that is sound. -/
theorem sound_initial : (initial : Archive ι ε).Sound R where
  rooted _ := Rooted.nil
  rootedElected _ _ elected := by cases elected
  rootedVoted _ _ _ voted := by cases voted
  bounded _ _ member := by cases member
  boundedVoted _ _ _ voted := by cases voted
  leads _ _ elected := by cases elected
  unled _ _ := rfl
  votes _ _ _ voted := by cases voted
  election _ _ elected := by cases elected
  within _ _ := le_rfl
  unmatched _ _ _ := rfl
  kept _ t index matched := by
    rw [Nat.le_zero.mp matched]
    exact keeps_zero _ t _ _
  keptVoted _ _ _ voted := by cases voted

end Archive

end Distlab.Foundations.LeaderLogs
