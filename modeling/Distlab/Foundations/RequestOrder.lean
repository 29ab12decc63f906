import Mathlib.Data.List.Induction
import Distlab.Foundations.Deduplication

/-!
# Which requests of a log are executed

A replay executes the first use of an identity if its id is above every id that the
client has requested before (`fresh_replay_iff`, `seen_replay_iff`). A first use below
such an id is dropped, and so are its retries. In a log in order (`InOrder`) nothing
is dropped: every requested identity is seen (`inOrder_iff`).
-/

set_option autoImplicit false

namespace Distlab.Foundations.Deduplication

universe u v w x

variable {ι : Type u} {κ : Type v} {ω : Type w} {σ : Type x}

/-- The identity of a request. -/
def Request.identity : Request ι κ ω → Option (ι × κ)
  | .identified client id _ => some (client, id)
  | _ => none

/-- The identities that a log requests. -/
def requested (log : List (Request ι κ ω)) : List (ι × κ) := log.filterMap Request.identity

theorem requested_append (first second : List (Request ι κ ω)) :
    requested (first ++ second) = requested first ++ requested second := List.filterMap_append

theorem mem_requested {log : List (Request ι κ ω)} {client : ι} {id : κ} :
    (client, id) ∈ requested log ↔ ∃ operation, .identified client id operation ∈ log := by
  rw [requested, List.mem_filterMap]
  constructor
  · rintro ⟨request, member, same⟩
    cases request with
    | identified owner done operation =>
        cases same
        exact ⟨operation, member⟩
    | _ => cases same
  · rintro ⟨operation, member⟩
    exact ⟨_, member, rfl⟩

/-- An element of a longer list stands in the list or is the last one. -/
theorem exists_split_concat {α : Type u} {items : List α} {last item : α} {P : List α → Prop} :
    (∃ before rest, items ++ [last] = before ++ item :: rest ∧ P before) ↔
      (∃ before rest, items = before ++ item :: rest ∧ P before) ∨ last = item ∧ P items := by
  constructor
  · rintro ⟨before, rest, split, holds⟩
    rcases List.eq_nil_or_concat rest with rfl | ⟨rest, final, rfl⟩
    · obtain ⟨rfl, same⟩ := List.append_inj' split rfl
      exact .inr ⟨List.head_eq_of_cons_eq same, holds⟩
    · rw [List.concat_eq_append, ← List.cons_append, ← List.append_assoc] at split
      obtain ⟨same, _⟩ := List.append_inj' split rfl
      exact .inl ⟨before, rest, same, holds⟩
  · rintro (⟨before, rest, rfl, holds⟩ | ⟨rfl, holds⟩)
    · exact ⟨before, rest ++ [last], by simp, holds⟩
    · exact ⟨items, [], rfl, holds⟩

/-- A requested identity has a first use. -/
theorem exists_first_use {log : List (Request ι κ ω)} {client : ι} {id : κ}
    (member : (client, id) ∈ requested log) :
    ∃ before operation rest, log = before ++ .identified client id operation :: rest ∧
      (client, id) ∉ requested before := by
  induction log using List.reverseRecOn with
  | nil => cases member
  | append_singleton log request ih =>
      by_cases earlier : (client, id) ∈ requested log
      · obtain ⟨before, operation, rest, rfl, first⟩ := ih earlier
        exact ⟨before, operation, rest ++ [request], by simp, first⟩
      · rw [requested_append, List.mem_append] at member
        obtain ⟨operation, here⟩ := mem_requested.mp (member.resolve_left earlier)
        rw [List.mem_singleton] at here
        exact ⟨log, operation, [], by rw [here], earlier⟩

section Order

variable [LinearOrder κ]

/-- The id is above every listed id of the client. -/
def Above (ids : List (ι × κ)) (client : ι) (id : κ) : Prop :=
  ∀ key ∈ ids, key.1 = client → key.2 < id

/-- A first use is above every earlier id of its client. -/
def InOrder (log : List (Request ι κ ω)) : Prop :=
  ∀ before client id operation rest, log = before ++ .identified client id operation :: rest →
    (client, id) ∈ requested before ∨ Above (requested before) client id

section Replay

variable [DecidableEq ι] {execute : ω → σ → σ} {start : σ}

theorem replay_append_singleton (log : List (Request ι κ ω)) (request : Request ι κ ω)
    (image : Image ι κ ω σ) :
    replay execute (log ++ [request]) image = apply execute request (replay execute log image) :=
  replay_append log [request] image

/-- After a request only later ids of its client are fresh. -/
theorem fresh_apply_iff {image : Image ι κ ω σ} {owner client : ι} {done id : κ} {operation : ω} :
    (apply execute (.identified owner done operation) image).Fresh client id ↔
      image.Fresh client id ∧ (owner = client → done < id) := by
  constructor
  · intro fresh
    have before := fresh_of_apply fresh
    refine ⟨before, ?_⟩
    rintro rfl
    by_cases executes : image.Fresh owner done
    · exact lt_of_fresh_apply executes fresh
    · by_contra later
      refine executes fun id' after => ?_
      exact before id' ((not_lt.mp later).trans after)
  · rintro ⟨before, later⟩
    by_cases executes : image.Fresh owner done
    · rw [apply_of_fresh operation executes]
      intro id' after
      by_cases same : client = owner
      · subst same
        have other : id' ≠ done := ((later rfl).trans_le after).ne'
        show Function.update image.seen client _ client id' = none
        rw [Function.update_self, Function.update_of_ne other]
        exact before id' after
      · show Function.update image.seen owner _ client id' = none
        rw [Function.update_of_ne same]
        exact before id' after
    · rw [apply_of_not_fresh operation executes]
      exact before

/-- **Fresh is above everything requested**, whether it was executed or not. -/
theorem fresh_replay_iff {log : List (Request ι κ ω)} {client : ι} {id : κ} :
    (replay execute log (.initial start)).Fresh client id ↔ Above (requested log) client id := by
  induction log using List.reverseRecOn with
  | nil => exact iff_of_true (fun _ _ => rfl) fun _ member => absurd member List.not_mem_nil
  | append_singleton log request ih =>
      rw [replay_append_singleton, requested_append]
      have split : Above (requested log ++ requested [request]) client id ↔
          Above (requested log) client id ∧ Above (requested [request]) client id :=
        List.forall_mem_append
      rw [split, ← ih]
      cases request with
      | nothing => exact (and_iff_left fun _ member => absurd member List.not_mem_nil).symm
      | plain operation => exact (and_iff_left fun _ member => absurd member List.not_mem_nil).symm
      | identified owner done operation =>
          rw [fresh_apply_iff]
          refine and_congr_right fun _ => ?_
          exact (List.forall_mem_singleton (p := fun key : ι × κ => key.1 = client → key.2 < id)
            (a := (owner, done))).symm

/-- **What is seen was used first above every earlier id of its client.** -/
theorem seen_replay_iff {log : List (Request ι κ ω)} {client : ι} {id : κ} {operation : ω} :
    (replay execute log (.initial start)).seen client id = some operation ↔
      ∃ before rest, log = before ++ .identified client id operation :: rest ∧
        Above (requested before) client id := by
  induction log using List.reverseRecOn with
  | nil =>
      constructor
      · intro seen
        cases seen
      · rintro ⟨before, rest, split, _⟩
        cases before <;> cases split
  | append_singleton log request ih =>
      rw [replay_append_singleton]
      rw [exists_split_concat, ← ih]
      cases request with
      | nothing => exact (or_iff_left (by rintro ⟨⟨⟩, _⟩)).symm
      | plain done => exact (or_iff_left (by rintro ⟨⟨⟩, _⟩)).symm
      | identified owner done other =>
          by_cases fresh : (replay execute log (.initial start)).Fresh owner done
          · rw [apply_of_fresh other fresh]
            dsimp only
            by_cases here : owner = client ∧ done = id
            · obtain ⟨rfl, rfl⟩ := here
              have unseen : (replay execute log (.initial start)).seen owner done = none :=
                fresh done le_rfl
              simp [unseen, fresh_replay_iff.mp fresh]
            · have kept : Function.update (replay execute log (.initial start)).seen owner
                  (Function.update ((replay execute log (.initial start)).seen owner) done
                    (some other)) client id =
                      (replay execute log (.initial start)).seen client id := by
                by_cases same : client = owner
                · subst same
                  rw [Function.update_self, Function.update_of_ne fun equal =>
                    here ⟨rfl, equal.symm⟩]
                · rw [Function.update_of_ne same]
              rw [kept]
              refine (or_iff_left ?_).symm
              rintro ⟨same, _⟩
              cases same
              exact here ⟨rfl, rfl⟩
          · rw [apply_of_not_fresh other fresh]
            refine (or_iff_left ?_).symm
            rintro ⟨same, above⟩
            cases same
            exact fresh (fresh_replay_iff.mpr above)

/-- What is seen stays seen in a longer log. -/
theorem seen_of_prefix {log longer : List (Request ι κ ω)} (part : log <+: longer) {client : ι}
    {id : κ} {operation : ω}
    (seen : (replay execute log (.initial start)).seen client id = some operation) :
    (replay execute longer (.initial start)).seen client id = some operation := by
  obtain ⟨before, rest, rfl, above⟩ := seen_replay_iff.mp seen
  obtain ⟨more, rfl⟩ := part
  exact seen_replay_iff.mpr ⟨before, rest ++ more, by simp, above⟩

variable (execute start) in
/-- **In a log in order every requested identity is seen**, and only there. -/
theorem inOrder_iff {log : List (Request ι κ ω)} :
    InOrder log ↔ ∀ client id, (client, id) ∈ requested log →
      (replay execute log (.initial start)).seen client id ≠ none := by
  constructor
  · intro inOrder client id member
    obtain ⟨before, operation, rest, split, first⟩ := exists_first_use member
    have above := (inOrder before client id operation rest split).resolve_left first
    rw [seen_replay_iff.mpr ⟨before, rest, split, above⟩]
    exact Option.some_ne_none _
  · intro seen before client id operation rest split
    have member : (client, id) ∈ requested log := by
      refine mem_requested.mpr ⟨operation, ?_⟩
      rw [split]
      exact List.mem_append_right _ List.mem_cons_self
    obtain ⟨executed, found⟩ := Option.ne_none_iff_exists'.mp (seen client id member)
    obtain ⟨before', rest', split', above⟩ := seen_replay_iff.mp found
    rw [split, List.append_eq_append_iff] at split'
    rcases split' with ⟨more, rfl, tail⟩ | ⟨more, rfl, tail⟩
    · cases more with
      | nil =>
          rw [List.append_nil] at above
          exact .inr above
      | cons request more =>
          -- the executed use stands later: its id is above itself
          have here : request = .identified client id operation :=
            (List.head_eq_of_cons_eq tail).symm
          refine absurd (above (client, id) (mem_requested.mpr ⟨operation, ?_⟩) rfl) (lt_irrefl id)
          rw [here]
          exact List.mem_append_right _ List.mem_cons_self
    · cases more with
      | nil =>
          rw [List.append_nil]
          exact .inr above
      | cons request more =>
          have here : request = .identified client id executed :=
            (List.head_eq_of_cons_eq tail).symm
          refine .inl (mem_requested.mpr ⟨executed, ?_⟩)
          rw [here]
          exact List.mem_append_right _ List.mem_cons_self

end Replay

/-- A longer log is in order when the shorter one is and its last request is. -/
theorem inOrder_concat {log : List (Request ι κ ω)} {request : Request ι κ ω} :
    InOrder (log ++ [request]) ↔ InOrder log ∧
      ∀ client id operation, request = .identified client id operation →
        (client, id) ∈ requested log ∨ Above (requested log) client id := by
  constructor
  · intro inOrder
    refine ⟨fun before client id operation rest split => ?_, fun client id operation same => ?_⟩
    · exact inOrder before client id operation (rest ++ [request]) (by rw [split]; simp)
    · exact inOrder log client id operation [] (by rw [same])
  · rintro ⟨inOrder, last⟩ before client id operation rest split
    have placed := (exists_split_concat (P := fun before' => before' = before)).mp
      ⟨before, rest, split, rfl⟩
    rcases placed with ⟨before', rest', split', rfl⟩ | ⟨same, rfl⟩
    · exact inOrder before' client id operation rest' split'
    · exact last client id operation same

end Order

end Distlab.Foundations.Deduplication
