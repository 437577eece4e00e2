/-
Log records.

A line that starts with a timestamp opens a record, and all lines up to the next
such line belong to it: stack traces, wrapped messages. Lines in front of the
first record are dropped. Records of one source are numbered in the order of
their opening lines.

The assembler takes one line at a time, so that a search can pause between any
two lines. A record is only complete once the next one opens or the lines end.
-/
import LogSearch.Text.Lines
import LogSearch.Timestamp.Dating

set_option autoImplicit false

namespace LogSearch

open Calendar (DateTime)

/-- A log record. -/
structure Record where
  /-- The time of its opening line. -/
  timestamp : DateTime
  /-- Its lines. -/
  content : String
  /-- The name of the log that it is from. -/
  source : String
  /-- The number of records of the source in front of it. -/
  sequence : Nat
  /-- The number of its opening line, counted from one. -/
  lineNumber : Int
deriving DecidableEq, Repr

namespace Record

/-- A record that still takes lines, the latest first. -/
structure Draft where
  /-- The time of the opening line. -/
  timestamp : DateTime
  /-- The number of the opening line. -/
  lineNumber : Int
  /-- The lines so far, the latest first. -/
  reversedLines : List String
deriving DecidableEq, Repr

/-- Groups the lines of one source into records. -/
structure Assembler where
  /-- The name of the source. -/
  source : String
  /-- The year for timestamps without one. -/
  year : Int
  /-- The number of records so far. -/
  count : Nat := 0
  /-- The record that is open, if any. -/
  draft : Option Draft := none
deriving DecidableEq, Repr

namespace Assembler

/-- The record that a draft becomes when it takes no more lines. -/
def finish (a : Assembler) (d : Draft) : Record where
  timestamp := d.timestamp
  content := Text.joinLines d.reversedLines.reverse
  source := a.source
  sequence := a.count
  lineNumber := d.lineNumber

/-- Ends the input: completes the open record, if any. -/
def flush (a : Assembler) : Option Record × Assembler :=
  match a.draft with
  | none => (none, a)
  | some d => (some (a.finish d), { a with count := a.count + 1, draft := none })

/-- Takes a line: it completes the open record if it opens a new one, and belongs to the open
record otherwise. -/
def feed (a : Assembler) (lineNumber : Int) (line : String) : Option Record × Assembler :=
  match Timestamp.openingStamp? a.year line with
  | none =>
    match a.draft with
    | none => (none, a)
    | some d => (none, { a with draft := some { d with reversedLines := line :: d.reversedLines } })
  | some stamp =>
    let (record, a) := a.flush
    (record, { a with draft := some ⟨stamp.time, lineNumber, [line]⟩ })

/-- The records of some lines, the last one completed by their end. -/
def records (a : Assembler) : List (Nat × String) → List Record
  | [] => a.flush.1.toList
  | (lineNumber, line) :: lines =>
    let (record, a) := a.feed lineNumber line
    record.toList ++ records a lines

end Assembler

/-- The records of a text from some source, with a year for timestamps without one. -/
def ofText (text source : String) (year : Int) : List Record :=
  Assembler.records { source, year } (Text.numberedLines text)

end Record

/-- The year that timestamps without one get in a log: its name is that of the file, or of the
source where the file has none. -/
def Timestamp.yearFor (currentYear : Nat) (source : String) (fileName : Option String)
    (named : Option Int) : FallbackYear :=
  let name := match fileName with
    | none => source
    | some "" => source
    | some name => name
  fallbackYear currentYear (some name) named

end LogSearch
