/-
Searches.

The logs are shared out, every share gets a worker, and the workers make their
steps until all are done. In which order they make them is left open by the rules
and shows in nothing but the order of the records; here one worker goes all the
way before the next one starts.
-/
import LogSearch.Search.Worker

set_option autoImplicit false

namespace LogSearch.Search

/-- The report of a search. -/
structure Summary where
  /-- The number of logs. -/
  total : Nat
  /-- The number of logs that were handed over. -/
  completed : Nat := 0
  /-- The number of workers. -/
  workers : Nat := 0
  /-- The number of records that were handed over. -/
  matched : Nat := 0
  /-- The logs that could not be read. -/
  failures : List Failure := []
  /-- Whether the sink ended the search. -/
  isFull : Bool := false
  /-- Whether the search was called off. -/
  isCancelled : Bool := false
deriving DecidableEq, Repr

/-- A search on its way: its workers, and what they share. -/
structure Run (σ : Type) where
  /-- The workers. -/
  workers : List Worker
  /-- What they share. -/
  progress : Progress σ

/-- How a search ended: its report or why it broke off, and what the sink holds. -/
structure Ending (σ : Type) where
  /-- The report. -/
  report : Except Abort Summary
  /-- What the sink holds. -/
  sink : σ

namespace Run

variable {σ : Type}

/-- A search with one worker for each share. -/
def ofShares (shares : List (List Task)) (signal : Signal) (start : σ) : Run σ where
  workers := shares.map .ready
  progress := { signal, sink := start }

/-- Lets one worker after the other go to its end. -/
def finishEach (job : Job) (sink : Sink σ) :
    List Worker → Progress σ → List Worker × Progress σ
  | [], p => ([], p)
  | w :: ws, p =>
    let ended := w.run job sink p
    let others := finishEach job sink ws ended.2
    (ended.1 :: others.1, others.2)

/-- Goes on until all workers are done. -/
def finish (job : Job) (sink : Sink σ) (run : Run σ) : Run σ :=
  let ended := finishEach job sink run.workers run.progress
  ⟨ended.1, ended.2⟩

/-- The first reason of a worker to break off. -/
def abort? (run : Run σ) : Option Abort :=
  run.workers.findSome? fun
    | .broken a => some a
    | _ => none

/-- The report on so many logs. The signal is looked at once more, to tell whether the search was
called off. -/
def report (total workers : Nat) (run : Run σ) : Except Abort Summary :=
  match run.abort? with
  | some a => .error a
  | none =>
    let p := run.progress
    .ok {
      total, workers
      completed := p.completed
      matched := p.matched
      failures := p.failures.toList
      isFull := p.isFull
      isCancelled := p.look.1 && !p.isFull }

end Run

/-- Searches the logs of some tasks. -/
def run {σ : Type} (job : Job) (sink : Sink σ) (signal : Signal) (start : σ)
    (tasks : List Task) : Ending σ :=
  if tasks.isEmpty then ⟨.ok { total := 0 }, start⟩
  else
    let workers := workerCount job.environment job.settings tasks.length
    match shares workers tasks with
    | .error e => ⟨.error (.unshared e), start⟩
    | .ok shares =>
      let ended := (Run.ofShares shares signal start).finish job sink
      ⟨ended.report tasks.length workers, ended.progress.sink⟩

end LogSearch.Search
