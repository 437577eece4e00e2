/-
The parameters of requests, which are the members of a JSON object.

A member that is missing, null or empty is not given. For the others the type is
not checked beforehand. A member of the wrong type makes the handling crash at
the point where it is used as a text; only the number of records may come in
any type that stands for a whole number, and has reports of its own.
-/
import LogSearch.Calendar.Bound
import LogSearch.Json.Shown
import LogSearch.Query.Keywords
import LogSearch.Search.Engine
import LogSearch.Service.Message
import LogSearch.Settings.Remote

set_option autoImplicit false

namespace LogSearch.Service

open Json (Value)
open Calendar (DateTime)

/-- Named members of a JSON object. -/
abbrev Members := List (String × Value)

/-- The member of some name, or nothing. -/
def Members.get (m : Members) (name : String) : Value :=
  Value.member name m

/-- The text of a member. -/
def textOf : Value → Except Refusal String
  | .string s => .ok s
  | _ => .error .crashed

/-- The text of a member, if it is given. -/
def givenText (v : Value) : Except Refusal (Option String) :=
  if v.isGiven then (textOf v).map some else .ok none

/-! ## Queries -/

/-- The member with the query. One that is missing is an empty text. -/
def Members.query (m : Members) : Value :=
  (Value.member? "query" m).getD (.string "")

/-- Reads the query of a request; the inner error is that of the query. -/
def readQuery (m : Members) : Except Refusal (Except Query.SyntaxError Query.Expr) := do
  let logic := m.get "logic"
  match m.query, logic.isGiven with
  | .null, false => return Query.compile "" none
  | query, false => return Query.compile (← textOf query) none
  | query, true => return Query.compile (← textOf query) (some (← textOf logic))

/-! ## Windows -/

/-- Reads a bound of a window. -/
def readBound (v : Value) : Except Refusal (Option DateTime) := do
  match Calendar.readBound (← givenText v) with
  | .ok bound => return bound
  | .error e => throw (.denied 400 ("Invalid time bound: " ++ e.message))

/-- Reads a window, which may be open. -/
def readWindow (m : Members) : Except Refusal Search.Window := do
  return ⟨← readBound (m.get "begin_time"), ← readBound (m.get "end_time")⟩

/-- Whether a window ends before it begins. -/
def isReversed (w : Search.Window) : Bool :=
  match w.start, w.stop with
  | some start, some stop => stop < start
  | _, _ => false

/-! ## The number of records -/

/-- The whole number that a value stands for. -/
def wholeNumber : Value → Except Refusal Int
  | .int n => .ok n
  | .bool b => .ok (if b then 1 else 0)
  | .string s =>
    match Decimal.readInt? s with
    | some n => .ok n
    | none => .error (.denied 400 "max_results must be an integer")
  | .float x =>
    match x.truncate?, x with
    | some n, _ => .ok n
    | none, .infinite _ => .error .crashed
    | none, _ => .error (.denied 400 "max_results must be an integer")
  | _ => .error (.denied 400 "max_results must be an integer")

/-- Reads the number of records; `default` stands for one that is not given. -/
def readMaxResults (default : Int) (m : Members) : Except Refusal Int := do
  let value := m.get "max_results"
  let n ← if value.isGiven then wholeNumber value else pure default
  if n ≤ 0 then throw (.denied 400 "max_results must be positive")
  return n

/-! ## Searches -/

/-- What to search for, and how much of it. -/
structure SearchParameters where
  /-- What to search for. -/
  criteria : Search.Criteria
  /-- The most records. -/
  maxResults : Int

/-- Reads the parameters of a search. -/
def readSearch (settings : Settings.Engine) (m : Members) : Except Refusal SearchParameters := do
  match ← readQuery m with
  | .error e => throw (.denied 400 e.report)
  | .ok expression =>
    let window ← readWindow m
    if isReversed window then throw (.denied 400 "begin_time is after end_time")
    let maxResults ← readMaxResults settings.maxResults m
    return ⟨{ expression, window }, maxResults⟩

/-! ## Bundles from log servers -/

/-- Which bundle to fetch, and from where. -/
structure FetchParameters where
  /-- The address of the log server. -/
  address : String
  /-- The secret that proves who asks. -/
  token : String
  /-- The first time. -/
  start : DateTime
  /-- The last time. -/
  stop : DateTime

/-- Reads the parameters of a fetch. -/
def readFetch (settings : Settings.Remote) (m : Members) : Except Refusal FetchParameters := do
  let address := Text.trim ((← givenText (m.get "server_address")).getD "")
  if address.isEmpty then throw (.denied 400 "server_address required")
  let window ← readWindow m
  match window.start, window.stop with
  | some start, some stop =>
    let token := m.get "token"
    return ⟨address, if token.isGiven then token.shown else settings.token, start, stop⟩
  | _, _ => throw (.denied 400 "begin_time and end_time required")

end LogSearch.Service
