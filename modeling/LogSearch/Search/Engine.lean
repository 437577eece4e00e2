/-
The search engine: it runs one search at a time, and remembers the last one.

A search needs the slot. A caller may claim it beforehand, which makes sure that
no other search gets in between; otherwise the search claims it by itself. In
either case it is free again when the search has ended, however it ends.

Whoever takes the slot gets a signal of its own, which is known by its number.
Calling off raises the signal that the engine has noted for the holder of the
slot, and a search looks at the signal that was noted when it began.
-/
import LogSearch.Search.Run

set_option autoImplicit false

namespace LogSearch.Search

/-- The search engine. -/
structure Engine where
  /-- How searches run. -/
  settings : Settings.Engine
  /-- Whether the slot is taken. -/
  isTaken : Bool := false
  /-- The number of the signal of the holder of the slot. -/
  token : Option Nat := none
  /-- The signals that have been given out, the first one first. -/
  signals : Array Signal := #[]
  /-- What the last complete search found. -/
  lastResults : Option Results := none
  /-- The report on the last complete search. -/
  lastSummary : Option Summary := none

/-- Why the engine refuses, or a search fails. -/
inductive EngineError where
  /-- The slot is taken. -/
  | busy
  /-- The slot is free, so that it cannot be given back. -/
  | notHeld
  /-- The search broke off. -/
  | aborted (a : Abort)
deriving DecidableEq, Repr

/-- The text of the report. -/
def EngineError.message : EngineError → String
  | busy => "A search is already running"
  | notHeld => "release unlocked lock"
  | aborted a => a.message

/-- What came of a search: what it found, and its report. -/
structure Outcome where
  /-- What it found. -/
  results : Results
  /-- The report, or why it failed. -/
  report : Except EngineError Summary

namespace Engine

/-- Whether the slot is taken. -/
def isSearching (e : Engine) : Bool :=
  e.isTaken

/-- Claims the slot, with a new signal. -/
def acquire (e : Engine) : Except EngineError Engine :=
  if e.isTaken then .error .busy
  else .ok { e with
    isTaken := true
    token := some e.signals.size
    signals := e.signals.push {} }

/-- Gives the slot back. The signal is forgotten even if the slot is not taken. -/
def release (e : Engine) : Except EngineError Unit × Engine :=
  if e.isTaken then (.ok (), { e with token := none, isTaken := false })
  else (.error .notHeld, { e with token := none })

/-- Calls off the search that holds the slot. The answer is whether there is one. -/
def cancel (e : Engine) : Bool × Engine :=
  match e.token with
  | none => (false, e)
  | some number => (true, { e with signals := e.signals.modify number Signal.raise })

/-- The signal for a search that begins. A search without the slot gets one that nobody raises. -/
def signal (e : Engine) : Signal :=
  (e.token.bind (e.signals[·]?)).getD {}

/-- Starts a search. `isClaimed` says that the slot has been claimed for it. -/
def start (isClaimed : Bool) (e : Engine) : Except EngineError Engine :=
  if isClaimed then .ok e else e.acquire

/-- Remembers a search that has ended, if it is complete. -/
def remember (ending : Ending Results) (e : Engine) : Engine :=
  match ending.report with
  | .ok summary => { e with lastResults := some ending.sink, lastSummary := some summary }
  | .error _ => e

/-- Ends a search that has come to an ending. -/
def complete (ending : Ending Results) (e : Engine) : Outcome × Engine :=
  match (e.remember ending).release with
  | (.error refusal, e) => (⟨ending.sink, .error refusal⟩, e)
  | (.ok (), e) => (⟨ending.sink, ending.report.mapError .aborted⟩, e)

/-- Searches the logs of some tasks for so many records at most. -/
def search (environment : Environment) (criteria : Criteria) (maxResults : Int)
    (isClaimed : Bool) (tasks : List Task) (e : Engine) : Outcome × Engine :=
  match e.start isClaimed with
  | .error refusal => (⟨{}, .error refusal⟩, e)
  | .ok e =>
    let job : Job := { criteria, environment, settings := e.settings }
    e.complete (run job (Results.sink maxResults) e.signal {} tasks)

end Engine

end LogSearch.Search
