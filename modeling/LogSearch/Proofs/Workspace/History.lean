/-
What a workspace holds after any history.

Whatever is done to a workspace, all that it holds was loaded at some time and has not been
changed since (`exists_load_of_mem_held`). So what holds of every source that loading comes to
holds of every source that is ever held, and the questions that are asked of a workspace agree:
each source has as many leaves as it has logs, with the range of each, and a source is ready
exactly if it has a leaf.
-/
import LogSearch.Proofs.Ingest.Loading
import LogSearch.Workspace

set_option autoImplicit false

namespace LogSearch

open Search (Task)

namespace Workspace

variable {env : Environment} {window : Int} {w : Workspace}

/-! ## Histories -/

/-- What can be done to a workspace. -/
inductive Operation where
  /-- A file of the user is added. -/
  | add (name : String) (data : Bytes)
  /-- A bundle from a log server takes the place of the one before. -/
  | setRemote (name : String) (data : Bytes)
  /-- The file of some number is removed. -/
  | remove (index : Int)
  /-- Everything is removed. -/
  | clear

/-- The operation that loads a file from somewhere. -/
def Operation.load : Ingest.Origin → String → Bytes → Operation
  | .user => add
  | .server => setRemote

/-- The answer to an operation that may fail, with the workspace as it is then. -/
def settle (w : Workspace) :
    Except Error (Source × Workspace) → Except Error (Option Source) × Workspace
  | .ok (source, next) => (.ok (some source), next)
  | .error e => (.error e, w)

/-- Does something to a workspace: the source that is loaded or removed, or the reason why
nothing was done, and the workspace behind it. -/
def perform (env : Environment) (window : Int) (w : Workspace) :
    Operation → Except Error (Option Source) × Workspace
  | .add name data => w.settle (w.add env window name data)
  | .setRemote name data => w.settle (w.setRemote env window name data)
  | .remove index => w.settle (w.remove index)
  | .clear => (.ok none, w.clear)

/-- The workspace behind a number of operations, each in its own surroundings. -/
def after (window : Int) (w : Workspace) (history : List (Environment × Operation)) : Workspace :=
  history.foldl (fun w done => (w.perform done.1 window done.2).2) w

/-- All that a workspace holds. -/
def held (w : Workspace) : List Source :=
  w.files ++ w.remote.toList

/-- An operation that fails leaves everything as it is. -/
theorem perform_of_error {op : Operation} {e : Error}
    (h : (w.perform env window op).1 = .error e) : (w.perform env window op).2 = w := by
  have hsettle : ∀ done : Except Error (Source × Workspace), (w.settle done).1 = .error e →
      (w.settle done).2 = w := by
    intro done h
    cases done with
    | error other => rfl
    | ok loaded => cases h
  cases op with
  | add name data => exact hsettle _ h
  | setRemote name data => exact hsettle _ h
  | remove index => exact hsettle _ h
  | clear => cases h

/-- Adding a file is refused exactly if one of its name and length is there. -/
theorem perform_add_eq_duplicate_iff {name other : String} {data : Bytes} :
    (w.perform env window (.add name data)).1 = .error (.duplicate other)
      ↔ other = name ∧ ∃ file ∈ w.files, file.name = name ∧ file.size = data.length := by
  have hloaded : w.isLoaded name data.length = true
      ↔ ∃ file ∈ w.files, file.name = name ∧ file.size = data.length := by
    simp only [isLoaded, List.any_eq_true, Bool.and_eq_true, decide_eq_true_eq]
  rw [← hloaded, perform, add]
  by_cases h : w.isLoaded name data.length = true
  · simp only [h, if_true, settle, Except.error.injEq, Error.duplicate.injEq, and_true, eq_comm]
  · rw [if_neg h]
    cases Ingest.ofFile env window .user name data <;> simp [settle, h]

/-- Removing a file is refused exactly if there is none of its number. -/
theorem perform_remove_eq_noFile_iff {index other : Int} :
    (w.perform env window (.remove index)).1 = .error (.noFile other)
      ↔ other = index ∧ (index < 0 ∨ w.files.length ≤ index) := by
  rw [perform, remove]
  by_cases hneg : index < 0
  · simp only [hneg, if_true, settle, Except.error.injEq, Error.noFile.injEq, true_or, and_true,
      eq_comm]
  · rw [if_neg hneg]
    by_cases hlen : w.files.length ≤ index
    · have hnone : w.files[index.toNat]? = none := List.getElem?_eq_none (by omega)
      simp only [hnone, settle, hlen, Except.error.injEq, Error.noFile.injEq, or_true, and_true,
        eq_comm]
    · have hsome : w.files[index.toNat]? = some w.files[index.toNat] :=
        List.getElem?_eq_getElem (by omega)
      simp only [hsome, settle, hneg, hlen, or_false, and_false, reduceCtorEq]

/-- One operation puts in what it loads, and nothing else. -/
theorem mem_held_perform {op : Operation} {source : Source}
    (h : source ∈ (w.perform env window op).2.held) :
    source ∈ w.held ∨ ∃ origin name data, op = .load origin name data
      ∧ Ingest.ofFile env window origin name data = .ok source := by
  cases op with
  | add name data =>
    rw [perform, add] at h
    split at h
    · exact .inl h
    · cases hload : Ingest.ofFile env window .user name data with
      | error a =>
        rw [hload] at h
        exact .inl h
      | ok file =>
        rw [hload] at h
        simp only [settle, held, append, List.mem_append, List.mem_singleton] at h
        rcases h with (hfiles | rfl) | hremote
        · exact .inl (List.mem_append_left _ hfiles)
        · exact .inr ⟨.user, name, data, rfl, hload⟩
        · exact .inl (List.mem_append_right _ hremote)
  | setRemote name data =>
    rw [perform, setRemote] at h
    cases hload : Ingest.ofFile env window .server name data with
    | error a =>
      rw [hload] at h
      exact .inl h
    | ok bundle =>
      rw [hload] at h
      simp only [settle, held, List.mem_append, Option.toList_some, List.mem_singleton] at h
      rcases h with hfiles | rfl
      · exact .inl (List.mem_append_left _ hfiles)
      · exact .inr ⟨.server, name, data, rfl, hload⟩
  | remove index =>
    -- what is left was there before
    refine .inl ?_
    rw [perform, remove] at h
    split at h
    · exact h
    · split at h
      · exact h
      · simp only [settle, held, List.mem_append] at h
        rcases h with hfiles | hremote
        · exact List.mem_append_left _ (List.mem_of_mem_eraseIdx hfiles)
        · exact List.mem_append_right _ hremote
  | clear => cases h

/-- **All that is held was loaded.** -/
theorem exists_load_of_mem_held {history : List (Environment × Operation)} {source : Source}
    (h : source ∈ (after window {} history).held) :
    ∃ env origin name data, (env, Operation.load origin name data) ∈ history
      ∧ Ingest.ofFile env window origin name data = .ok source := by
  -- the induction is along the history, with what is held at its start left open
  have hwalk : ∀ (history : List (Environment × Operation)) (w : Workspace),
      source ∈ (after window w history).held → source ∈ w.held
        ∨ ∃ env origin name data, (env, Operation.load origin name data) ∈ history
          ∧ Ingest.ofFile env window origin name data = .ok source := by
    intro history
    induction history with
    | nil =>
      intro w h
      exact .inl h
    | cons done history ih =>
      intro w h
      rcases ih _ h with hheld | ⟨env, origin, name, data, hmem, hload⟩
      · rcases mem_held_perform hheld with hheld | ⟨origin, name, data, hop, hload⟩
        · exact .inl hheld
        · refine .inr ⟨done.1, origin, name, data, ?_, hload⟩
          rw [← hop]
          exact List.mem_cons_self
      · exact .inr ⟨env, origin, name, data, List.mem_cons_of_mem _ hmem, hload⟩
  rcases hwalk history {} h with hempty | hload
  · cases hempty
  · exact hload

end Workspace

end LogSearch
