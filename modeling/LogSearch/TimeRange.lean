/-
Spans of time, and the span of a log.

A range never ends before it starts; that is part of the type. It also tells
how sure its years are. Merging takes the least start, the greatest end and the
weakest year, so a guessed year stays visible however many files are merged.

The span of a log is found without reading all of it: the first time among its
first lines, and the last one among its last lines. A log that is out of order
can give them the wrong way round, and they are swapped then.
-/
import LogSearch.Calendar.Written
import LogSearch.Text.Lines
import LogSearch.Timestamp.Dating

set_option autoImplicit false

namespace LogSearch

open Calendar (DateTime)

/-- A span of time, its ends included. -/
@[ext] structure TimeRange where
  /-- The first time of the span. -/
  start : DateTime
  /-- The last time of the span. -/
  stop : DateTime
  /-- How the years of its ends were found. -/
  yearSource : YearSource := .none
  /-- The span does not end before it starts. -/
  ordered : start ≤ stop
deriving DecidableEq

/-- Why there is no range. -/
inductive RangeError where
  /-- The start lies behind the end. -/
  | reversed (start stop : DateTime)
  /-- There is no preset of this name. -/
  | unknownPreset (name : String)
  /-- The preset begins before the calendar does. -/
  | outsideCalendar
deriving DecidableEq, Repr

/-- What is wrong. -/
def RangeError.message : RangeError → String
  | reversed start stop =>
    "TimeRange start " ++ start.written " " ++ " is after end " ++ stop.written " "
  | unknownPreset name => s!"Unknown time range preset: {name}"
  | outsideCalendar => "date value out of range"

namespace TimeRange

/-- The range between two times that are in order. -/
def ofBounds (start stop : DateTime) (yearSource : YearSource) : Except RangeError TimeRange :=
  if h : start ≤ stop then .ok ⟨start, stop, yearSource, h⟩ else .error (.reversed start stop)

/-- The range between two times in either order. -/
def between (s t : DateTime) (yearSource : YearSource) : TimeRange :=
  if h : s ≤ t then ⟨s, t, yearSource, h⟩ else ⟨t, s, yearSource, Nat.le_of_not_le h⟩

/-! ## Merging -/

/-- The smallest range that covers two others. -/
def cover (a b : TimeRange) : TimeRange where
  start := if b.start < a.start then b.start else a.start
  stop := if a.stop < b.stop then b.stop else a.stop
  yearSource := a.yearSource.weaker b.yearSource
  ordered := by
    have ha := a.ordered
    have hb := b.ordered
    simp only [LE.le, LT.lt] at *
    split <;> split <;> simp only [Nat.lt_eq, Nat.le_eq] at * <;> omega

/-- The smallest range that covers all of the given ones. -/
def merge : List TimeRange → Option TimeRange
  | [] => none
  | r :: rs => some (rs.foldl cover r)

/-! ## Presets -/

/-- The lengths of the named windows, in microseconds; `all` has none. -/
def presetLength? : String → Option (Option Nat)
  | "all" => some none
  | "last1h" => some (some 3600000000)
  | "last6h" => some (some 21600000000)
  | "last24h" => some (some 86400000000)
  | _ => none

/-- The part of a range that a named window selects: it ends where the range ends, and starts no
earlier than the range does. -/
def preset (overall : TimeRange) (name : String) : Except RangeError TimeRange :=
  match presetLength? name with
  | none => .error (.unknownPreset name)
  | some none => .ok overall
  | some (some length) =>
    match overall.stop.shift? (-(length : Int)) with
    | none => .error .outsideCalendar
    | some start =>
      if start < overall.start then ofBounds overall.start overall.stop overall.yearSource
      else ofBounds start overall.stop overall.yearSource

/-! ## The range of a text -/

/-- The first line with a time, together with whether a year was filled in on the way. -/
def firstStamp (year : Int) : List String → Option Timestamp.Stamp
  | [] => none
  | line :: lines => (Timestamp.date? year line).or (firstStamp year lines)

/-- The times of some lines, in order. -/
def stamps (year : Int) (lines : List String) : List Timestamp.Stamp :=
  lines.filterMap (Timestamp.date? year)

/-- The range from the first time among the first `window` lines to the last one among the last
`window` lines. It names the source of the fallback year if a line that was looked at needed it:
at the start the search ends with the first time, at the end it goes through all lines. -/
def ofText (fallback : Timestamp.FallbackYear) (window : Int) (text : String) : Option TimeRange :=
  let front := firstStamp fallback.year (Text.firstLines window text)
  let back := stamps fallback.year (Text.lastLines window text)
  match front, back.getLast? with
  | some first, some last =>
    let isGuessed := first.isGuessed || back.any (·.isGuessed)
    some (between first.time last.time (if isGuessed then fallback.source else .none))
  | _, _ => none

end TimeRange

end LogSearch
