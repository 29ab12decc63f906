import Mathlib.Data.List.Basic
import Mathlib.Logic.Function.Basic
import Mathlib.Order.Lattice

/-!
# Replay of a log with request identities

A replicated state machine executes the operations of a log in order. Clients
repeat requests, so an operation may come with the identity of its request: the
client and an id. The image of the log is the state with the requests that were
executed. A request is executed unless the image has its client's request of the
same id or of a later one.

The image is a function of the log, so replicas that replayed the same prefix, in
any batches, have the same image (`replay_append`). The identities executed along
a log are pairwise distinct, and the ids of one client increase
(`increasing_identities`).
-/

set_option autoImplicit false

namespace Distlab.Foundations.Deduplication

universe u v w x

variable {ι : Type u} {κ : Type v} {ω : Type w} {σ : Type x}

/-- What a log entry asks for. -/
inductive Request (ι : Type u) (κ : Type v) (ω : Type w) where
  | nothing
  | plain (operation : ω)
  | identified (client : ι) (id : κ) (operation : ω)

/-- A state, with the requests that were executed. -/
structure Image (ι : Type u) (κ : Type v) (ω : Type w) (σ : Type x) where
  state : σ
  seen : ι → κ → Option ω

/-- The image that has seen no request. -/
def Image.initial (state : σ) : Image ι κ ω σ := ⟨state, fun _ _ => none⟩

/-- An execution: the identity of its request, if it has one, and its operation. -/
abbrev Execution (ι : Type u) (κ : Type v) (ω : Type w) := Option (ι × κ) × ω

/-- The identities of the executed requests. -/
def identities (executions : List (Execution ι κ ω)) : List (ι × κ) :=
  executions.filterMap Prod.fst

@[simp] theorem identities_nil : identities ([] : List (Execution ι κ ω)) = [] := rfl

@[simp] theorem identities_append (first second : List (Execution ι κ ω)) :
    identities (first ++ second) = identities first ++ identities second :=
  List.filterMap_append

/-- Each client's ids increase along the list. -/
def Increasing [LT κ] (ids : List (ι × κ)) : Prop := ids.Pairwise fun a b => a.1 = b.1 → a.2 < b.2

theorem Increasing.nodup [Preorder κ] {ids : List (ι × κ)} (increasing : Increasing ids) :
    ids.Nodup := by
  refine List.Pairwise.imp ?_ increasing
  rintro a b later rfl
  exact lt_irrefl _ (later rfl)

variable [LinearOrder κ]

/-- The image has no request of the client with this id or a later one. -/
def Image.Fresh (image : Image ι κ ω σ) (client : ι) (id : κ) : Prop :=
  ∀ later, id ≤ later → image.seen client later = none

section Replay

open Classical

variable [DecidableEq ι] (execute : ω → σ → σ)

/-- The image after one entry. -/
noncomputable def apply (request : Request ι κ ω) (image : Image ι κ ω σ) : Image ι κ ω σ :=
  match request with
  | .nothing => image
  | .plain operation => { image with state := execute operation image.state }
  | .identified client id operation =>
      if image.Fresh client id then
        { state := execute operation image.state
          seen := Function.update image.seen client
            (Function.update (image.seen client) id (some operation)) }
      else image

/-- The image after a log. -/
noncomputable def replay (log : List (Request ι κ ω)) (image : Image ι κ ω σ) :
    Image ι κ ω σ :=
  log.foldl (fun image request => apply execute request image) image

/-- What one entry executes. -/
noncomputable def executed (request : Request ι κ ω) (image : Image ι κ ω σ) :
    List (Execution ι κ ω) :=
  match request with
  | .nothing => []
  | .plain operation => [(none, operation)]
  | .identified client id operation =>
      if image.Fresh client id then [(some (client, id), operation)] else []

/-- What a log executes. -/
noncomputable def executions : List (Request ι κ ω) → Image ι κ ω σ → List (Execution ι κ ω)
  | [], _ => []
  | request :: rest, image =>
      executed request image ++ executions rest (apply execute request image)

variable {execute}

section Identified

variable {image : Image ι κ ω σ} {client : ι} {id : κ} (operation : ω)

theorem apply_of_fresh (fresh : image.Fresh client id) :
    apply execute (.identified client id operation) image =
      { state := execute operation image.state
        seen := Function.update image.seen client
          (Function.update (image.seen client) id (some operation)) } := if_pos fresh

theorem apply_of_not_fresh (known : ¬ image.Fresh client id) :
    apply execute (.identified client id operation) image = image := if_neg known

omit [DecidableEq ι] in
theorem executed_of_fresh (fresh : image.Fresh client id) :
    executed (.identified client id operation) image = [(some (client, id), operation)] :=
  if_pos fresh

omit [DecidableEq ι] in
theorem executed_of_not_fresh (known : ¬ image.Fresh client id) :
    executed (.identified client id operation) image = [] := if_neg known

end Identified

@[simp] theorem replay_nil (image : Image ι κ ω σ) : replay execute [] image = image := rfl

theorem replay_append (first second : List (Request ι κ ω)) (image : Image ι κ ω σ) :
    replay execute (first ++ second) image =
      replay execute second (replay execute first image) :=
  List.foldl_append

theorem executions_append (first second : List (Request ι κ ω)) (image : Image ι κ ω σ) :
    executions execute (first ++ second) image =
      executions execute first image ++
        executions execute second (replay execute first image) := by
  induction first generalizing image with
  | nil => rfl
  | cons request rest ih =>
      rw [List.cons_append, executions, ih, executions, List.append_assoc]
      rfl

/-- The state of one entry's image is what the entry executes. -/
theorem state_apply (request : Request ι κ ω) (image : Image ι κ ω σ) :
    (apply execute request image).state =
      (executed request image).foldl (fun state done => execute done.2 state) image.state := by
  cases request with
  | nothing => rfl
  | plain operation => rfl
  | identified client id operation =>
      by_cases fresh : image.Fresh client id
      · rw [apply_of_fresh operation fresh, executed_of_fresh operation fresh]
        rfl
      · rw [apply_of_not_fresh operation fresh, executed_of_not_fresh operation fresh]
        rfl

/-- **The state of an image is what the log executed.** -/
theorem state_replay (log : List (Request ι κ ω)) (image : Image ι κ ω σ) :
    (replay execute log image).state =
      (executions execute log image).foldl (fun state done => execute done.2 state)
        image.state := by
  induction log generalizing image with
  | nil => rfl
  | cons request rest ih =>
      rw [executions, List.foldl_append, ← state_apply]
      exact ih (apply execute request image)

/-- What is fresh after an entry was fresh before it. -/
theorem fresh_of_apply {request : Request ι κ ω} {image : Image ι κ ω σ} {client : ι} {id : κ}
    (fresh : (apply execute request image).Fresh client id) : image.Fresh client id := by
  cases request with
  | nothing => exact fresh
  | plain operation => exact fresh
  | identified owner done operation =>
      by_cases new : image.Fresh owner done
      · intro later after
        have absent := fresh later after
        rw [apply_of_fresh operation new] at absent
        dsimp only at absent
        by_cases same : client = owner
        · subst same
          rw [Function.update_self] at absent
          by_cases this : later = done
          · rw [this, Function.update_self] at absent
            cases absent
          · rwa [Function.update_of_ne this] at absent
        · rwa [Function.update_of_ne same] at absent
      · rwa [apply_of_not_fresh operation new] at fresh

/-- After a request of a client only later ids of it are fresh. -/
theorem lt_of_fresh_apply {image : Image ι κ ω σ} {client : ι} {id later : κ} {operation : ω}
    (executes : image.Fresh client id)
    (fresh : (apply execute (.identified client id operation) image).Fresh client later) :
    id < later := by
  by_contra before
  have absent := fresh id (not_lt.mp before)
  rw [apply_of_fresh operation executes] at absent
  simp at absent

/-- Every identity that a log executes is fresh in the image it starts from, and the
ids of each client increase. -/
theorem identities_executions (log : List (Request ι κ ω)) (image : Image ι κ ω σ) :
    (∀ key ∈ identities (executions execute log image), image.Fresh key.1 key.2) ∧
      Increasing (identities (executions execute log image)) := by
  induction log generalizing image with
  | nil => exact ⟨fun _ member => absurd member List.not_mem_nil, .nil⟩
  | cons request rest ih =>
      obtain ⟨fresh, increasing⟩ := ih (apply execute request image)
      have before : ∀ key ∈ identities (executions execute rest (apply execute request image)),
          image.Fresh key.1 key.2 := fun key member => fresh_of_apply (fresh key member)
      rw [executions, identities_append]
      cases request with
      | nothing => exact ⟨before, increasing⟩
      | plain operation => exact ⟨before, increasing⟩
      | identified client id operation =>
          by_cases executes : image.Fresh client id
          · rw [executed_of_fresh operation executes]
            refine ⟨fun key member => ?_, List.pairwise_cons.mpr ⟨?_, increasing⟩⟩
            · rcases List.mem_cons.mp member with rfl | later
              · exact executes
              · exact before key later
            · rintro ⟨owner, later⟩ member rfl
              exact lt_of_fresh_apply executes (fresh _ member)
          · rw [executed_of_not_fresh operation executes]
            exact ⟨before, increasing⟩

/-- **The ids that a log executes for a client increase.** -/
theorem increasing_identities (log : List (Request ι κ ω)) (image : Image ι κ ω σ) :
    Increasing (identities (executions execute log image)) :=
  (identities_executions log image).2

end Replay

end Distlab.Foundations.Deduplication
