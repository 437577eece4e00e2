/-
Sinks: where the matching records of a search go.

The records of one log come as one batch. A sink answers whether it wants no
more, and is told of logs that have more matching records than they may hand
over.

`Results` is the sink of a search: it keeps the records up to a limit, and
remembers which slices it has passed on to whoever follows the search. It is
full only when a record had to be left out, so a search that finds exactly as
many records as it may is complete.
-/
import LogSearch.Record

set_option autoImplicit false

namespace LogSearch.Search

/-- A place for records, with a state of type `σ`. -/
structure Sink (σ : Type) where
  /-- Takes a batch; the answer is whether the search is to stop. -/
  accept : List Record → σ → Bool × σ
  /-- Takes note that the log of some name was cut short. -/
  noteCapped : String → σ → σ

/-- What a search has found. -/
structure Results where
  /-- The records, in the order in which they came. -/
  records : Array Record := #[]
  /-- The slices of them that were passed on. -/
  deliveries : Array (List Record) := #[]
  /-- Whether records were left out. -/
  isCapped : Bool := false
  /-- The logs that were cut short. -/
  cappedSources : Array String := #[]
deriving Repr

namespace Results

/-- Adds a slice and passes it on, unless it is empty. -/
def add (r : Results) (slice : List Record) : Results :=
  { r with
    records := r.records ++ slice
    deliveries := if slice.isEmpty then r.deliveries else r.deliveries.push slice }

/-- Takes a batch as far as there is room. The search is to stop if there was not enough of it. -/
def accept (limit : Int) (batch : List Record) (r : Results) : Bool × Results :=
  if limit < r.records.size + batch.length then
    (true, { r.add (batch.take (limit - r.records.size).toNat) with isCapped := true })
  else (false, r.add batch)

/-- Takes note of a log that was cut short. -/
def noteCapped (source : String) (r : Results) : Results :=
  { r with isCapped := true, cappedSources := r.cappedSources.push source }

/-- The sink that keeps so many records. -/
def sink (limit : Int) : Sink Results where
  accept := accept limit
  noteCapped := noteCapped

end Results

end LogSearch.Search
