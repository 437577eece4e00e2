/-
What is read of the parameters of requests.

The members of an object are not checked for their types. Each is used as it comes, at the point
where it is needed, so whether reading gets to an end depends on the members that are looked at,
and which ones are looked at depends on what those before them say. For every reader there is one
condition under which it does not crash, put together in the order in which it reads (`Reads`);
all its other refusals are those of a bad request.

What is read of a search is what its members say, no more and no less (`readSearch_eq_ok_iff`).
-/
import LogSearch.Chain
import LogSearch.Service.Parameters

set_option autoImplicit false

namespace LogSearch.Service

open Json (Value)
open Calendar (DateTime)

/-! ## Readers of parameters -/

/-- Reading crashes exactly if something that is looked at is not of its type. If it does not, there
is a result, or the request is a bad one. -/
inductive Reads {α : Type} (read : Except Refusal α) (typed : Prop) : Prop where
  | ok (a : α) (h : read = .ok a) (htyped : typed)
  | denied (detail : String) (h : read = .error (.denied 400 detail)) (htyped : typed)
  | crashed (h : read = .error .crashed) (hnot : ¬ typed)

namespace Reads

variable {α β : Type} {typed typed' : Prop} {read : Except Refusal α}

theorem congr (h : Reads read typed) (hiff : typed ↔ typed') : Reads read typed' := by
  rwa [← hiff]

/-- What comes next only looks at something where the reading goes on. -/
theorem bind {next : α → Except Refusal β} (typedNext : α → Prop) (h : Reads read typed)
    (hnext : ∀ a, read = .ok a → Reads (next a) (typedNext a)) :
    Reads (read >>= next) (typed ∧ ∀ a, read = .ok a → typedNext a) := by
  cases h with
  | ok a h htyped =>
    subst h
    refine (hnext a rfl).congr ⟨fun h => ⟨htyped, fun a' ha => ?_⟩, fun h => h.2 a rfl⟩
    rwa [← Except.ok.inj ha]
  | denied detail h htyped =>
    subst h
    exact .denied detail rfl ⟨htyped, fun a ha => by cases ha⟩
  | crashed h hnot =>
    subst h
    exact .crashed rfl fun h => hnot h.1

/-- What comes next need not look at anything else. -/
theorem andThen {next : α → Except Refusal β} (h : Reads read typed)
    (hnext : ∀ a, Reads (next a) True) : Reads (read >>= next) typed :=
  (h.bind (fun _ => True) fun a _ => hnext a).congr (and_iff_left fun _ _ => trivial)

/-- A check does not look at types. -/
theorem check {p : Prop} [Decidable p] {detail : String} (h : Reads read typed) :
    Reads (if p then throw (.denied 400 detail) else read) (¬ p → typed) := by
  by_cases hp : p
  · rw [if_pos hp]
    exact .denied detail rfl fun hnot => absurd hp hnot
  · rw [if_neg hp]
    exact h.congr ⟨fun htyped _ => htyped, fun htyped => htyped hp⟩

end Reads

theorem reads_textOf (v : Value) : Reads (textOf v) (∃ text, v = .string text) := by
  unfold textOf
  split
  · exact .ok _ rfl ⟨_, rfl⟩
  · rename_i hother
    refine .crashed rfl ?_
    rintro ⟨text, h⟩
    exact hother text h

theorem reads_givenText (v : Value) : Reads (givenText v) v.IsText := by
  rw [givenText]
  by_cases hgiven : v.isGiven = true
  · rw [if_pos hgiven]
    have hiff : (∃ text, v = .string text) ↔ v.IsText := ⟨fun h _ => h, fun h => h hgiven⟩
    cases reads_textOf v with
    | ok text h htyped => exact .ok (some text) (by rw [h]; rfl) (hiff.mp htyped)
    | denied detail h htyped => exact .denied detail (by rw [h]; rfl) (hiff.mp htyped)
    | crashed h hnot => exact .crashed (by rw [h]; rfl) (mt hiff.mpr hnot)
  · rw [if_neg hgiven]
    exact .ok none rfl fun h => absurd h hgiven

/-! ## Queries and windows -/

/-- What is looked at of a query: nothing where the query is null and has no mode, and else the
query, which has to be a text, and the mode, if it is given. -/
def QueryTyped (m : Members) : Prop :=
  (m.query = .null ∧ (m.get "logic").isGiven = false)
    ∨ (∃ text, m.query = .string text) ∧ (m.get "logic").IsText

theorem readQuery_of_mode {m : Members} (h : (m.get "logic").isGiven = true) :
    readQuery m = textOf m.query >>= fun text =>
      textOf (m.get "logic") >>= fun mode => .ok (Query.compile text (some mode)) := by
  unfold readQuery
  dsimp only
  rw [h]
  cases m.query <;> rfl

theorem readQuery_of_null {m : Members} (h : (m.get "logic").isGiven = false)
    (hquery : m.query = .null) : readQuery m = .ok (Query.compile "" none) := by
  unfold readQuery
  dsimp only
  rw [h, hquery]
  rfl

theorem readQuery_of_no_mode {m : Members} (h : (m.get "logic").isGiven = false)
    (hquery : m.query ≠ .null) :
    readQuery m = textOf m.query >>= fun text => .ok (Query.compile text none) := by
  unfold readQuery
  dsimp only
  rw [h]
  cases hvalue : m.query with
  | null => exact absurd hvalue hquery
  | _ => rfl

theorem reads_readQuery (m : Members) : Reads (readQuery m) (QueryTyped m) := by
  by_cases hmode : (m.get "logic").isGiven = true
  · rw [readQuery_of_mode hmode]
    -- with a mode even a query that is null has to be a text
    refine ((reads_textOf m.query).bind _ fun text _ =>
      (reads_textOf (m.get "logic")).andThen fun mode => .ok _ rfl trivial).congr ?_
    simp only [QueryTyped, Value.IsText, hmode, Bool.true_eq_false, and_false, false_or,
      true_implies]
    refine and_congr_right fun htyped => ⟨fun h => ?_, fun h _ _ => h⟩
    obtain ⟨text, htext⟩ := htyped
    exact h text (by rw [htext]; rfl)
  · rw [Bool.not_eq_true] at hmode
    by_cases hquery : m.query = .null
    · rw [readQuery_of_null hmode hquery]
      exact .ok _ rfl (.inl ⟨hquery, hmode⟩)
    · rw [readQuery_of_no_mode hmode hquery]
      refine ((reads_textOf m.query).andThen fun text => .ok _ rfl trivial).congr ?_
      simp [QueryTyped, Value.IsText, hmode, hquery]

theorem eq_crashed_of_textOf {v : Value} {refusal : Refusal} (h : textOf v = .error refusal) :
    refusal = .crashed := by
  unfold textOf at h
  split at h
  · cases h
  · exact (Except.error.inj h).symm

/-- A query that cannot be compiled has been read, so the only refusal is a crash. -/
theorem eq_crashed_of_readQuery {m : Members} {refusal : Refusal}
    (h : readQuery m = .error refusal) : refusal = .crashed := by
  by_cases hmode : (m.get "logic").isGiven = true
  · rw [readQuery_of_mode hmode, bind_eq_error_iff] at h
    rcases h with htext | ⟨text, -, h⟩
    · exact eq_crashed_of_textOf htext
    rcases bind_eq_error_iff.mp h with hmode | ⟨mode, -, h⟩
    · exact eq_crashed_of_textOf hmode
    · cases h
  · rw [Bool.not_eq_true] at hmode
    by_cases hquery : m.query = .null
    · rw [readQuery_of_null hmode hquery] at h
      cases h
    · rw [readQuery_of_no_mode hmode hquery, bind_eq_error_iff] at h
      rcases h with htext | ⟨text, -, h⟩
      · exact eq_crashed_of_textOf htext
      · cases h

/-- What is looked at of a window. -/
def WindowTyped (m : Members) : Prop :=
  (m.get "begin_time").IsText
    ∧ ∀ start, readBound (m.get "begin_time") = .ok start → (m.get "end_time").IsText

theorem reads_readBound (v : Value) : Reads (readBound v) v.IsText := by
  unfold readBound
  refine (reads_givenText v).andThen fun text => ?_
  split
  · exact .ok _ rfl trivial
  · exact .denied _ rfl trivial

theorem reads_readWindow (m : Members) : Reads (readWindow m) (WindowTyped m) := by
  unfold readWindow
  exact (reads_readBound _).bind _ fun start _ =>
    (reads_readBound _).andThen fun stop => .ok ⟨start, stop⟩ rfl trivial

/-! ## Searches -/

/-- What is looked at of the number of records: any value will do but one without end. -/
def NumberTyped (m : Members) : Prop :=
  ∀ isNegative, m.get "max_results" ≠ .float (.infinite isNegative)

theorem reads_wholeNumber (v : Value) :
    Reads (wholeNumber v) (∀ isNegative, v ≠ .float (.infinite isNegative)) := by
  unfold wholeNumber
  split
  · exact .ok _ rfl fun _ h => by cases h
  · exact .ok _ rfl fun _ h => by cases h
  · split
    · exact .ok _ rfl fun _ h => by cases h
    · exact .denied _ rfl fun _ h => by cases h
  · rename_i x
    split
    · rename_i n htruncate
      refine .ok _ rfl fun isNegative h => ?_
      obtain rfl := Value.float.inj h
      cases htruncate
    · exact .crashed rfl fun h => h _ rfl
    · rename_i hother _
      refine .denied _ rfl fun isNegative h => ?_
      exact hother isNegative (Value.float.inj h)
  · rename_i hother
    exact .denied _ rfl fun isNegative h => hother _ h

/-- The number of records is positive. -/
def checkPositive (n : Int) : Except Refusal Int :=
  if n ≤ 0 then throw (.denied 400 "max_results must be positive") else pure n

theorem reads_checkPositive (n : Int) : Reads (checkPositive n) True :=
  (Reads.check (.ok n rfl trivial)).congr (iff_true_intro fun _ => trivial)

theorem checkPositive_eq_ok_iff {n k : Int} : checkPositive n = .ok k ↔ n = k ∧ 0 < k := by
  rw [checkPositive]
  split
  · refine iff_of_false (fun h => by cases h) ?_
    omega
  · constructor
    · intro h
      obtain rfl := Except.ok.inj h
      exact ⟨rfl, by omega⟩
    · rintro ⟨rfl, -⟩
      rfl

theorem readMaxResults_of_given {m : Members} (h : (m.get "max_results").isGiven = true)
    (default : Int) :
    readMaxResults default m = wholeNumber (m.get "max_results") >>= checkPositive := by
  unfold readMaxResults
  dsimp only
  rw [if_pos h]
  rfl

theorem readMaxResults_of_not_given {m : Members} (h : ¬ (m.get "max_results").isGiven = true)
    (default : Int) : readMaxResults default m = checkPositive default := by
  unfold readMaxResults
  dsimp only
  rw [if_neg h]
  rfl

theorem reads_readMaxResults (default : Int) (m : Members) :
    Reads (readMaxResults default m) (NumberTyped m) := by
  by_cases hgiven : (m.get "max_results").isGiven = true
  · rw [readMaxResults_of_given hgiven]
    exact (reads_wholeNumber _).andThen reads_checkPositive
  · rw [readMaxResults_of_not_given hgiven]
    refine (reads_checkPositive default).congr (iff_of_true trivial fun isNegative h => ?_)
    rw [h] at hgiven
    exact hgiven rfl

/-- What is looked at of a search: the query, the window if the query is right, and the number of
records if the window is right too. -/
def SearchTyped (m : Members) : Prop :=
  QueryTyped m ∧ ∀ e, readQuery m = .ok (.ok e) →
    WindowTyped m ∧ ∀ window, readWindow m = .ok window → isReversed window = false → NumberTyped m

theorem reads_readSearch (settings : Settings.Engine) (m : Members) :
    Reads (readSearch settings m) (SearchTyped m) := by
  -- everything behind the query, which is not looked at if the query does not compile
  have hrest (e : Query.Expr) : Reads (readWindow m >>= fun window =>
        if isReversed window then throw (.denied 400 "begin_time is after end_time")
        else readMaxResults settings.maxResults m >>= fun n =>
          pure (⟨⟨e, window⟩, n⟩ : SearchParameters))
      (WindowTyped m ∧
        ∀ window, readWindow m = .ok window → ¬ isReversed window = true → NumberTyped m) :=
    (reads_readWindow m).bind _ fun window _ =>
      ((reads_readMaxResults _ m).andThen fun n => .ok _ rfl trivial).check
  simp only [Bool.not_eq_true] at hrest
  unfold readSearch
  refine ((reads_readQuery m).bind (fun query => ∀ e, query = .ok e → WindowTyped m ∧
    ∀ window, readWindow m = .ok window → isReversed window = false → NumberTyped m)
      fun query _ => ?_).congr ?_
  · cases query with
    | error e => exact .denied _ rfl fun _ h => by cases h
    | ok e => exact (hrest e).congr ⟨fun h _ _ => h, fun h => h e rfl⟩
  · exact and_congr_right fun _ =>
      ⟨fun h e he => h _ he e rfl, fun h query hquery e he => h e (he ▸ hquery)⟩

/-! ### What is known of a search that is read -/

/-- The query is the written form of an expression. -/
def Compiles (m : Members) (e : Query.Expr) : Prop :=
  ∃ text, m.query = .string text
    ∧ (((m.get "logic").isGiven = false ∧ Query.compile text none = .ok e)
      ∨ ∃ mode, m.get "logic" = .string mode ∧ mode ≠ "" ∧ Query.compile text (some mode) = .ok e)

/-- The window ends before it begins only if both of its ends are there. -/
theorem isReversed_eq_false_iff {w : Search.Window} :
    isReversed w = false
      ↔ ∀ start stop, w.start = some start → w.stop = some stop → start ≤ stop := by
  obtain ⟨first, last⟩ := w
  unfold isReversed
  cases first with
  | none => simp
  | some start =>
    cases last with
    | none => simp
    | some stop => simp [DateTime.lt_iff, DateTime.le_iff]

/-- A search as its members say it: the query is right, so are both bounds, and they are in order,
and the number of records is the one that is given, or else that of the settings. -/
structure IsOrderly (settings : Settings.Engine) (m : Members) (p : SearchParameters) : Prop where
  query : Compiles m p.criteria.expression
  start : readBound (m.get "begin_time") = .ok p.criteria.window.start
  stop : readBound (m.get "end_time") = .ok p.criteria.window.stop
  inOrder : ∀ start stop, p.criteria.window.start = some start →
    p.criteria.window.stop = some stop → start ≤ stop
  unlimited : (m.get "max_results").isGiven = false → p.maxResults = settings.maxResults
  limited : (m.get "max_results").isGiven = true →
    wholeNumber (m.get "max_results") = .ok p.maxResults
  positive : 0 < p.maxResults

theorem textOf_eq_ok_iff {v : Value} {text : String} : textOf v = .ok text ↔ v = .string text := by
  cases v <;> simp [textOf]

theorem readQuery_eq_ok_iff {m : Members} {e : Query.Expr} :
    readQuery m = .ok (.ok e) ↔ Compiles m e := by
  by_cases hmode : (m.get "logic").isGiven = true
  · rw [readQuery_of_mode hmode]
    simp only [bind_eq_ok_iff, textOf_eq_ok_iff, Except.ok.injEq]
    constructor
    · rintro ⟨text, htext, mode, hlogic, hcompile⟩
      rw [hlogic, Value.isGiven_string] at hmode
      exact ⟨text, htext, .inr ⟨mode, hlogic, hmode, hcompile⟩⟩
    · rintro ⟨text, htext, ⟨hnot, -⟩ | ⟨mode, hlogic, -, hcompile⟩⟩
      · -- there is a mode
        rw [hmode] at hnot
        cases hnot
      · exact ⟨text, htext, mode, hlogic, hcompile⟩
  · rw [Bool.not_eq_true] at hmode
    have hiff : Compiles m e ↔ ∃ text, m.query = .string text ∧ Query.compile text none = .ok e := by
      refine exists_congr fun text => and_congr_right fun _ => ⟨?_, fun h => .inl ⟨hmode, h⟩⟩
      rintro (⟨-, hcompile⟩ | ⟨mode, hlogic, hne, -⟩)
      · exact hcompile
      · rw [hlogic, ← Bool.not_eq_true, Value.isGiven_string] at hmode
        exact absurd hne hmode
    rw [hiff]
    by_cases hquery : m.query = .null
    · rw [readQuery_of_null hmode hquery]
      refine iff_of_false (fun h => by cases h) ?_
      rintro ⟨text, htext, -⟩
      cases hquery.symm.trans htext
    · rw [readQuery_of_no_mode hmode hquery]
      simp only [bind_eq_ok_iff, textOf_eq_ok_iff, Except.ok.injEq]

theorem readWindow_eq_ok_iff {m : Members} {w : Search.Window} :
    readWindow m = .ok w
      ↔ readBound (m.get "begin_time") = .ok w.start
        ∧ readBound (m.get "end_time") = .ok w.stop := by
  rw [readWindow]
  constructor
  · intro h
    obtain ⟨start, hstart, h⟩ := exists_of_bind_eq_ok h
    obtain ⟨stop, hstop, h⟩ := exists_of_bind_eq_ok h
    obtain rfl := Except.ok.inj h
    exact ⟨hstart, hstop⟩
  · rintro ⟨hstart, hstop⟩
    rw [hstart, hstop]
    rfl

theorem readMaxResults_eq_ok_iff {default n : Int} {m : Members} :
    readMaxResults default m = .ok n
      ↔ ((m.get "max_results").isGiven = false → n = default)
        ∧ ((m.get "max_results").isGiven = true → wholeNumber (m.get "max_results") = .ok n)
        ∧ 0 < n := by
  by_cases hgiven : (m.get "max_results").isGiven = true
  · rw [readMaxResults_of_given hgiven]
    simp only [bind_eq_ok_iff, checkPositive_eq_ok_iff, hgiven, Bool.true_eq_false,
      false_implies, true_implies, true_and]
    constructor
    · rintro ⟨k, hk, rfl, hpos⟩
      exact ⟨hk, hpos⟩
    · rintro ⟨hn, hpos⟩
      exact ⟨n, hn, rfl, hpos⟩
  · rw [readMaxResults_of_not_given hgiven, checkPositive_eq_ok_iff]
    rw [Bool.not_eq_true] at hgiven
    simp only [hgiven, Bool.false_eq_true, false_implies, true_implies, true_and, eq_comm]

/-- **What is read of a search** is just what its members say. -/
theorem readSearch_eq_ok_iff {settings : Settings.Engine} {m : Members} {p : SearchParameters} :
    readSearch settings m = .ok p ↔ IsOrderly settings m p := by
  rw [readSearch]
  constructor
  · intro h
    -- each member was read where the one before it was in order
    obtain ⟨query, hquery, h⟩ := exists_of_bind_eq_ok h
    rcases query with e | e
    · cases h
    obtain ⟨window, hwindow, h⟩ := exists_of_bind_eq_ok h
    dsimp only at h
    split at h
    · cases h
    · rename_i horder
      obtain ⟨n, hn, h⟩ := exists_of_bind_eq_ok h
      obtain rfl := Except.ok.inj h
      obtain ⟨hstart, hstop⟩ := readWindow_eq_ok_iff.mp hwindow
      obtain ⟨hunlimited, hlimited, hpos⟩ := readMaxResults_eq_ok_iff.mp hn
      exact ⟨readQuery_eq_ok_iff.mp hquery, hstart, hstop,
        isReversed_eq_false_iff.mp (Bool.not_eq_true _ ▸ horder), hunlimited, hlimited, hpos⟩
  · intro h
    have horder := isReversed_eq_false_iff.mpr h.inOrder
    rw [readQuery_eq_ok_iff.mpr h.query]
    refine bind_eq_ok_iff.mpr ⟨_, rfl, bind_eq_ok_iff.mpr ⟨p.criteria.window,
      readWindow_eq_ok_iff.mpr ⟨h.start, h.stop⟩, ?_⟩⟩
    dsimp only
    rw [if_neg (by rw [horder]; exact Bool.false_ne_true)]
    exact bind_eq_ok_iff.mpr ⟨p.maxResults,
      readMaxResults_eq_ok_iff.mpr ⟨h.unlimited, h.limited, h.positive⟩, rfl⟩

/-! ## Fetches -/

/-- What is looked at of a fetch: the address, and the window if there is an address. -/
def FetchTyped (m : Members) : Prop :=
  (m.get "server_address").IsText
    ∧ ∀ text, givenText (m.get "server_address") = .ok text →
      (Text.trim (text.getD "")).isEmpty = false → WindowTyped m

theorem reads_readFetch (settings : Settings.Remote) (m : Members) :
    Reads (readFetch settings m) (FetchTyped m) := by
  unfold readFetch
  refine (reads_givenText _).bind _ fun text _ => ?_
  dsimp only
  split
  · rename_i hempty
    refine .denied _ rfl fun hnot => ?_
    rw [hempty] at hnot
    cases hnot
  · rename_i hsome
    refine ((reads_readWindow m).andThen fun window => ?_).congr
      ⟨fun h _ => h, fun h => h (Bool.not_eq_true _ ▸ hsome)⟩
    split
    · exact .ok _ rfl trivial
    · exact .denied _ rfl trivial

end LogSearch.Service
