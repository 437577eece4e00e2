/-
Loading files at the same time.

To load a file takes two looks at the workspace: it is checked that no file of this name and
length is there, and when the file has been read, it is appended. Between the two, other calls may
make theirs, and files may be removed. So a state is a workspace together with the calls that have
passed the check and not appended yet (`Loading`).

The check does not know of these calls. Two calls for the same file that check before either has
appended will both append (`keys_of_two_checks`). The keys that count are therefore those of the
files and of the calls taken together (`Loading.expected`): nothing is held twice, however the
calls come to their ends, exactly as long as these differ. So the workspace stays without
duplicates exactly if no call passes its check while one for the same file is under way
(`isDistinct_iff_apart`), as when calls are made one after the other.
-/
import LogSearch.Proofs.Workspace.History
import Mathlib.Data.List.Nodup
import Mathlib.Data.List.Perm.Basic

set_option autoImplicit false

namespace LogSearch

namespace Workspace

/-! ## Calls -/

/-- What the check goes by: the name and the length. -/
def keyOf (file : Source) : String × Nat :=
  (file.name, file.size)

/-- Whether no file is held twice. -/
def IsDistinct (w : Workspace) : Prop :=
  (w.files.map keyOf).Nodup

instance (w : Workspace) : Decidable w.IsDistinct :=
  inferInstanceAs (Decidable (List.Nodup _))

/-- A call that loads a file of the user. -/
structure Call where
  /-- The surroundings. -/
  env : Environment
  /-- The name of the file. -/
  name : String
  /-- Its data. -/
  data : Bytes

namespace Call

/-- What the check goes by. -/
def key (c : Call) : String × Nat :=
  (c.name, c.data.length)

/-- The file that is appended, if reading it gets to an end. -/
def file? (window : Int) (c : Call) : Option Source :=
  match Ingest.ofFile c.env window .user c.name c.data with
  | .error _ => none
  | .ok file => some file

/-- Whether reading the file gets to an end. -/
def ends (window : Int) (c : Call) : Bool :=
  (c.file? window).isSome

end Call

/-- The workspace when a call has come to its end. A call whose reading does not get to an end
leaves the files as they are. -/
def settled (window : Int) (w : Workspace) (call : Call) : Workspace :=
  match call.file? window with
  | none => w
  | some file => w.append file

/-- A workspace with the calls that have passed the check and not appended yet. -/
structure Loading where
  /-- The workspace. -/
  workspace : Workspace := {}
  /-- The calls. -/
  calls : List Call := []

/-- What can happen. -/
inductive Moment where
  /-- A call makes its check. -/
  | check (call : Call)
  /-- The call of some number has read its file, and appends it. -/
  | append (number : Nat)
  /-- The file of some number is removed. -/
  | remove (index : Int)
  /-- Everything is removed. -/
  | clear

/-- Whether it is a check. -/
def Moment.isCheck : Moment → Bool
  | check _ => true
  | _ => false

theorem sublist_of_remove {w next : Workspace} {index : Int} {file : Source}
    (h : w.remove index = .ok (file, next)) : next.files.Sublist w.files := by
  rw [remove] at h
  split at h
  · cases h
  · split at h
    · cases h
    · obtain ⟨-, rfl⟩ := Prod.mk.inj (Except.ok.inj h)
      exact List.eraseIdx_sublist _ _

namespace Loading

variable (window : Int)

/-- What becomes of the workspace and the calls. A call that is refused changes nothing. -/
def step (l : Loading) : Moment → Loading
  | .check call =>
    if l.workspace.isLoaded call.name call.data.length then l
    else { l with calls := l.calls ++ [call] }
  | .append number =>
    match l.calls[number]? with
    | none => l
    | some call =>
      { workspace := l.workspace.settled window call, calls := l.calls.eraseIdx number }
  | .remove index =>
    match l.workspace.remove index with
    | .error _ => l
    | .ok (_, workspace) => { l with workspace }
  | .clear => { l with workspace := l.workspace.clear }

/-- The state behind a number of moments. -/
def after (l : Loading) (history : List Moment) : Loading :=
  history.foldl (step window) l

/-- The keys of the files that are there, and of those that the calls will append. -/
def expected (l : Loading) : List (String × Nat) :=
  l.workspace.files.map keyOf ++ (l.calls.filter (·.ends window)).map Call.key

/-- Whether along a history no call passes its check while one for the same file is under way.
Calls whose reading does not get to an end do not count. -/
def Apart (l : Loading) : List Moment → Prop
  | [] => True
  | moment :: history =>
    (∀ call, moment = .check call → call.ends window = true →
        l.workspace.isLoaded call.name call.data.length = false →
        ∀ other ∈ l.calls, other.ends window = true → other.key ≠ call.key)
      ∧ Apart (l.step window moment) history

/-! ## What a moment does to the keys -/

variable {window} {l : Loading}

theorem keyOf_of_file? {call : Call} {file : Source} (h : call.file? window = some file) :
    keyOf file = call.key := by
  rw [Call.file?] at h
  split at h
  · cases h
  · rename_i hfile
    obtain rfl := Option.some.inj h
    obtain ⟨hname, hsize⟩ := Ingest.name_size_of_ofFile hfile
    rw [keyOf, Call.key, hname, hsize]

theorem isLoaded_iff {w : Workspace} {call : Call} :
    w.isLoaded call.name call.data.length = true ↔ call.key ∈ w.files.map keyOf := by
  simp only [isLoaded, List.any_eq_true, Bool.and_eq_true, decide_eq_true_eq, List.mem_map, keyOf,
    Call.key, Prod.mk.injEq]

/-- The keys of the files when a call has come to its end. -/
theorem keys_settled (w : Workspace) (call : Call) :
    (w.settled window call).files.map keyOf
      = w.files.map keyOf ++ ([call].filter (·.ends window)).map Call.key := by
  rw [settled]
  cases hfile : call.file? window with
  | none =>
    have hends : call.ends window = false := by rw [Call.ends, hfile]; rfl
    rw [List.filter_cons_of_neg (by rw [hends]; exact Bool.false_ne_true), List.filter_nil,
      List.map_nil, List.append_nil]
  | some file =>
    have hends : call.ends window = true := by rw [Call.ends, hfile]; rfl
    rw [List.filter_cons_of_pos hends, List.filter_nil, List.map_singleton,
      ← keyOf_of_file? hfile]
    exact List.map_append

/-- A call that comes to its end does not change the keys that are expected. -/
theorem expected_append {number : Nat} {call : Call} (h : l.calls[number]? = some call) :
    ((l.step window (.append number)).expected window).Perm (l.expected window) := by
  obtain ⟨hlt, hget⟩ := List.getElem?_eq_some_iff.mp h
  have hcalls : (call :: l.calls.eraseIdx number).Perm l.calls := by
    rw [← hget]
    exact List.getElem_cons_eraseIdx_perm hlt
  rw [step, h]
  dsimp only
  rw [expected, keys_settled, expected, List.append_assoc, ← List.map_append,
    ← List.filter_append, List.singleton_append]
  exact ((hcalls.filter _).map _).append_left _

/-- **What a moment other than a check does to the keys.** None is new. -/
theorem nodup_expected_step (h : (l.expected window).Nodup) {moment : Moment}
    (hnot : moment.isCheck = false) : ((l.step window moment).expected window).Nodup := by
  cases moment with
  | check call => cases hnot
  | append number =>
    cases hcall : l.calls[number]? with
    | none => rwa [step, hcall]
    | some call => exact (expected_append hcall).nodup_iff.mpr h
  | remove index =>
    rw [step]
    split
    · exact h
    · rename_i hremove
      exact h.sublist (((sublist_of_remove hremove).map _).append_right _)
  | clear => exact h.sublist (List.sublist_append_right _ _)

/-- **What a check does to the keys.** They stay different exactly if no call for the same file is
under way. -/
theorem nodup_expected_check_iff (h : (l.expected window).Nodup) (call : Call) :
    ((l.step window (.check call)).expected window).Nodup
      ↔ (call.ends window = true →
          l.workspace.isLoaded call.name call.data.length = false →
          ∀ other ∈ l.calls, other.ends window = true → other.key ≠ call.key) := by
  by_cases hloaded : l.workspace.isLoaded call.name call.data.length = true
  · rw [step, if_pos hloaded]
    refine iff_of_true h fun _ hnot => ?_
    rw [hloaded] at hnot
    cases hnot
  have hexpected : ({ l with calls := l.calls ++ [call] } : Loading).expected window
      = l.expected window ++ ([call].filter (·.ends window)).map Call.key := by
    rw [expected, List.filter_append, List.map_append, ← List.append_assoc]
    rfl
  rw [step, if_neg hloaded, hexpected]
  by_cases hends : call.ends window = true
  · rw [List.filter_cons_of_pos hends, List.filter_nil, List.map_singleton, List.nodup_append]
    have hfiles : call.key ∉ l.workspace.files.map keyOf := fun hmem =>
      hloaded (isLoaded_iff.mpr hmem)
    refine ⟨?_, ?_⟩
    · rintro ⟨-, -, hother⟩ - - other hmem hotherEnds
      refine hother other.key ?_ call.key List.mem_cons_self
      exact List.mem_append_right _
        (List.mem_map_of_mem (List.mem_filter.mpr ⟨hmem, hotherEnds⟩))
    · intro hapart
      refine ⟨h, List.nodup_singleton _, ?_⟩
      rintro key hkey last hlast rfl
      obtain rfl := List.mem_singleton.mp hlast
      rcases List.mem_append.mp hkey with hfile | hcall
      · exact hfiles hfile
      · obtain ⟨other, hother, hsame⟩ := List.mem_map.mp hcall
        obtain ⟨hmem, hotherEnds⟩ := List.mem_filter.mp hother
        exact hapart hends (Bool.eq_false_iff.mpr hloaded) other hmem hotherEnds hsame
  · rw [List.filter_cons_of_neg hends, List.filter_nil, List.map_nil, List.append_nil]
    exact iff_of_true h fun hyes => absurd hyes hends

/-! ## Histories -/

/-- Nothing but a check makes two keys the same. -/
theorem nodup_expected_after (h : (l.expected window).Nodup) {rest : List Moment}
    (hnot : ∀ moment ∈ rest, moment.isCheck = false) :
    ((l.after window rest).expected window).Nodup := by
  induction rest generalizing l with
  | nil => exact h
  | cons moment rest ih =>
    exact ih (nodup_expected_step h (hnot moment List.mem_cons_self))
      fun later hlater => hnot later (List.mem_cons_of_mem _ hlater)

/-- All keys differ as long as calls are apart, and only so long. -/
theorem nodup_expected_iff_apart (h : (l.expected window).Nodup) (history : List Moment) :
    (∀ before, before <+: history → ((l.after window before).expected window).Nodup)
      ↔ l.Apart window history := by
  induction history generalizing l with
  | nil =>
    refine iff_of_true (fun before hbefore => ?_) trivial
    rw [List.prefix_nil.mp hbefore]
    exact h
  | cons moment history ih =>
    -- a moment keeps the keys different just if it is not a check out of turn
    have hmoment : ((l.step window moment).expected window).Nodup
        ↔ ∀ call, moment = .check call → call.ends window = true →
          l.workspace.isLoaded call.name call.data.length = false →
          ∀ other ∈ l.calls, other.ends window = true → other.key ≠ call.key := by
      cases hcheck : moment.isCheck with
      | false =>
        refine iff_of_true (nodup_expected_step h hcheck) fun call hcall => ?_
        rw [hcall] at hcheck
        cases hcheck
      | true =>
        cases moment with
        | check call =>
          rw [nodup_expected_check_iff h]
          exact ⟨fun hapart _ hcall => Moment.check.inj hcall ▸ hapart,
            fun hapart => hapart call rfl⟩
        | append number => cases hcheck
        | remove index => cases hcheck
        | clear => cases hcheck
    rw [Apart, ← hmoment]
    refine ⟨fun hall => ?_, ?_⟩
    · have hnext := hall [moment] (List.prefix_append [moment] history)
      refine ⟨hnext, (ih hnext).mp fun before hbefore => ?_⟩
      exact hall (moment :: before) (List.cons_prefix_cons.mpr ⟨rfl, hbefore⟩)
    · rintro ⟨hnext, hapart⟩ before hbefore
      rcases List.prefix_cons_iff.mp hbefore with rfl | ⟨rest, rfl, hrest⟩
      · exact h
      · exact (ih hnext).mpr hapart rest hrest

/-- When all calls have come to their ends, one after the other, the files have the keys that were
expected. -/
theorem keys_after_appends (l : Loading) :
    (l.after window (List.replicate l.calls.length (.append 0))).workspace.files.map keyOf
      = l.expected window := by
  obtain ⟨w, calls⟩ := l
  induction calls generalizing w with
  | nil => exact (List.append_nil _).symm
  | cons call calls ih =>
    have hnext := ih (w.settled window call)
    rw [expected, keys_settled, List.append_assoc, ← List.map_append, ← List.filter_append] at hnext
    exact hnext

end Loading

/-! ## Files that are held twice -/

/-- **Two calls at a time.** When two calls for a file that is not there check before either of
them has appended, the file is held twice. -/
theorem keys_of_two_checks {window : Int} {w : Workspace} {call : Call}
    (hnew : w.isLoaded call.name call.data.length = false) (hends : call.ends window = true) :
    (({ workspace := w } : Loading).after window
      [.check call, .check call, .append 0, .append 0]).workspace.files.map keyOf
        = w.files.map keyOf ++ [call.key, call.key] := by
  have hchecked : ({ workspace := w } : Loading).after window [.check call, .check call]
      = ⟨w, [call, call]⟩ := by
    simp only [Loading.after, List.foldl_cons, List.foldl_nil, Loading.step, hnew,
      Bool.false_eq_true, if_false, List.nil_append, List.singleton_append]
  have happended := @Loading.keys_after_appends window ⟨w, [call, call]⟩
  have hsplit : ({ workspace := w } : Loading).after window
      [.check call, .check call, .append 0, .append 0]
        = (({ workspace := w } : Loading).after window [.check call, .check call]).after window
          (List.replicate 2 (.append 0)) := rfl
  rw [hsplit, hchecked]
  refine happended.trans ?_
  rw [Loading.expected, List.filter_cons_of_pos hends, List.filter_cons_of_pos hends]
  rfl

/-- **When nothing is held twice.** However the calls that are under way come to their ends, and
whatever is removed meanwhile, no file is held twice, exactly if no call passes its check while
one for the same file is under way. -/
theorem isDistinct_iff_apart (window : Int) (history : List Moment) :
    (∀ before, before <+: history → ∀ rest : List Moment,
        (∀ moment ∈ rest, moment.isCheck = false) →
          (({} : Loading).after window (before ++ rest)).workspace.IsDistinct)
      ↔ ({} : Loading).Apart window history := by
  have hfresh : (({} : Loading).expected window).Nodup := List.nodup_nil
  rw [← Loading.nodup_expected_iff_apart hfresh history]
  refine forall_congr' fun before => forall_congr' fun hbefore => ?_
  refine ⟨fun hall => ?_, fun hnodup rest hrest => ?_⟩
  · rw [← Loading.keys_after_appends]
    have hdistinct := hall (List.replicate
      (({} : Loading).after window before).calls.length (.append 0))
      fun moment hmoment => by rw [List.eq_of_mem_replicate hmoment]; rfl
    rwa [Loading.after, List.foldl_append] at hdistinct
  · have hlater := Loading.nodup_expected_after hnodup hrest
    rw [Loading.after, List.foldl_append]
    exact hlater.sublist (List.sublist_append_left _ _)

/-- A log that is loaded by two calls at a time is held twice. -/
theorem not_isDistinct_of_two_checks :
    let call : Call := {
      env := { currentYear := 2026, processors := none }
      name := "a.log"
      data := Text.encodeUtf8 "2024-01-02 03:04:05 up" }
    let loading := ({} : Loading).after 1000 [.check call, .check call, .append 0, .append 0]
    ¬ loading.workspace.IsDistinct
      ∧ loading.workspace.files.map keyOf = [("a.log", 22), ("a.log", 22)] := by
  intro call loading
  have hends : call.ends 1000 = true := by decide +kernel
  have hlength : call.key = ("a.log", 22) := by decide +kernel
  have hkeys : loading.workspace.files.map keyOf = [("a.log", 22), ("a.log", 22)] := by
    rw [← hlength]
    exact keys_of_two_checks rfl hends
  refine ⟨?_, hkeys⟩
  rw [IsDistinct, hkeys]
  decide

/-! ## One call after the other -/

/-- A call that nothing comes in between is what adding a file is. -/
theorem after_check_append (window : Int) (w : Workspace) (call : Call) :
    ({ workspace := w } : Loading).after window [.check call, .append 0]
      = { workspace := (w.perform call.env window (.add call.name call.data)).2 } := by
  rw [perform, add, Loading.after, List.foldl_cons, List.foldl_cons, List.foldl_nil]
  by_cases hloaded : w.isLoaded call.name call.data.length = true
  · rw [if_pos hloaded]
    simp only [Loading.step, if_pos hloaded]
    rfl
  · rw [if_neg hloaded]
    simp only [Loading.step, if_neg hloaded]
    rw [List.nil_append, List.getElem?_cons_zero, List.eraseIdx_cons_zero]
    simp only [settled, Call.file?]
    cases Ingest.ofFile call.env window .user call.name call.data with
    | error a => rfl
    | ok file => rfl

theorem IsDistinct.perform {env : Environment} {window : Int} {w : Workspace}
    (h : w.IsDistinct) (op : Operation) : (w.perform env window op).2.IsDistinct := by
  have hexpected (w : Workspace) :
      ({ workspace := w } : Loading).expected window = w.files.map keyOf := List.append_nil _
  cases op with
  | add name data =>
    have hfresh : (({ workspace := w } : Loading).expected window).Nodup := by rwa [hexpected]
    have hchecked := (Loading.nodup_expected_check_iff hfresh ⟨env, name, data⟩).mpr
      fun _ _ _ hother => absurd hother List.not_mem_nil
    have happended := @Loading.nodup_expected_step _ _ hchecked (.append 0) rfl
    have hperform := after_check_append window w ⟨env, name, data⟩
    rw [Loading.after, List.foldl_cons, List.foldl_cons, List.foldl_nil] at hperform
    rwa [hperform, hexpected] at happended
  | setRemote name data =>
    rw [Workspace.perform, setRemote]
    cases Ingest.ofFile env window .server name data with
    | error a => exact h
    | ok bundle => exact h
  | remove index =>
    rw [Workspace.perform]
    cases hremove : w.remove index with
    | error e => exact h
    | ok removed => exact h.sublist ((sublist_of_remove hremove).map _)
  | clear => exact List.nodup_nil

/-- **One after the other.** A workspace whose files are added one after the other holds none
twice, whatever else is done to it. -/
theorem isDistinct_after (window : Int) (history : List (Environment × Operation)) :
    (({} : Workspace).after window history).IsDistinct := by
  have hall {w : Workspace} (h : w.IsDistinct) : (w.after window history).IsDistinct := by
    induction history generalizing w with
    | nil => exact h
    | cons done history ih => exact ih (h.perform done.2)
  exact hall List.nodup_nil

end Workspace

end LogSearch
