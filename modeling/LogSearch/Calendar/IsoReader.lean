/-
Reading a time from ISO 8601.

A date is `YYYY-MM-DD`, `YYYYMMDD` or a week date `YYYY-Www`, `YYYY-Www-D`,
`YYYYWww`, `YYYYWwwD`. A clock may follow, behind one character of any kind:
hours, then minutes, then seconds, with colons throughout or not at all, then a
fraction that is always taken as one of a second. At the end may stand `Z` or a
signed offset, itself written as a clock.

Where the date ends is decided first, by its length, the fifth and the sixth
character, and the digits behind a week number; then both parts are read. Two
leniencies come with that plan. The seconds of a clock without colons may be
followed by the digits of the fraction directly. And a clock in front of an
offset may have a stray character behind it, since the search for the offset
has already settled where the clock ends; a clock with nothing behind it may
not. A colon may introduce the fraction as well.
-/
import LogSearch.Calendar.DateTime
import LogSearch.Text.Digit
import LogSearch.Text.Quoted

set_option autoImplicit false

namespace LogSearch.Calendar

/-- Why a text is no time. -/
inductive ReadError where
  /-- The text has not the form of a time. -/
  | malformed (text : String)
  /-- The form is right but one of the numbers is not. -/
  | field (error : FieldError)
  /-- The offset is a day or more; it is kept in microseconds. -/
  | offset (micros : Int)
deriving DecidableEq, Repr

/-- A span of time by its days, seconds and microseconds, of which only the days may be negative
and those that are zero are left out. -/
def spanWritten (micros : Int) : String :=
  let days := micros.fdiv 86400000000
  let rest := (micros.fmod 86400000000).toNat
  let seconds := rest / 1000000
  let parts :=
    (if days = 0 then [] else ["days=" ++ toString days]) ++
    (if seconds = 0 then [] else ["seconds=" ++ toString seconds]) ++
    (if rest % 1000000 = 0 then [] else ["microseconds=" ++ toString (rest % 1000000)])
  "datetime.timedelta(" ++ ", ".intercalate parts ++ ")"

/-- What is wrong with the text. -/
def ReadError.message : ReadError → String
  | malformed text => "Invalid isoformat string: " ++ Text.quoted text
  | field error => error.message
  | offset micros =>
    "offset must be a timedelta strictly between -timedelta(hours=24) and timedelta(hours=24), not "
      ++ spanWritten micros ++ "."

/-! ## Pieces -/

/-- Reads exactly `n` ASCII digits; the number goes on from `start`. -/
def readDigits : Nat → Nat → List Char → Option (Nat × List Char)
  | 0, start, cs => some (start, cs)
  | _ + 1, _, [] => none
  | n + 1, start, c :: cs =>
    match Text.asciiDigit? c with
    | none => none
    | some d => readDigits n (10 * start + d) cs

/-- Whether the character is an ASCII digit. -/
def isAsciiDigit (c : Char) : Bool :=
  (Text.asciiDigit? c).isSome

/-- Whether nothing is left to read. A null character ends a text as well. -/
def isEnd (cs : List Char) : Bool :=
  cs.head?.getD '\x00' = '\x00'

/-! ## Dates -/

/-- The number of characters of the date at the start of a text. -/
def dateLength (cs : List Char) : Nat :=
  if cs.length = 7 then 7
  else if cs[4]? = some '-' then
    if cs[5]? = some 'W' then
      -- behind the week number a hyphen starts the weekday, unless two digits follow it
      if cs[8]? = some '-' ∧ !(cs[10]?.any isAsciiDigit) then 10 else 8
    else 10
  else if cs[4]? = some 'W' then
    let stop := 7 + ((cs.drop 7).takeWhile isAsciiDigit).length
    -- clock digits come in pairs, so the parity tells whether a weekday stands before them
    if stop < 9 then stop else if stop % 2 = 0 then 7 else 8
  else 8

/-- The numbers of a date, not yet checked. -/
structure DateFields where
  /-- The year. -/
  year : Nat
  /-- The month. -/
  month : Nat
  /-- The day. -/
  day : Nat

/-- The date of a weekday in a week of a year. Weeks of the year 0 have no month. A day beyond the
last year comes out as one in the year 10000. -/
def weekDate? (year week weekday : Nat) : Option DateFields :=
  if !hasWeek year week ∨ weekday < 1 ∨ 7 < weekday then none
  else if year = 0 then some ⟨1, 0, 0⟩
  else
    match Date.ofDayNumber? (mondayOfWeekOne year + (week - 1) * 7 + (weekday - 1)) with
    | some d => some ⟨d.year, d.month, d.day⟩
    | none => some ⟨10000, 1, 1⟩

/-- Reads the numbers of a date from all of the given characters. -/
def readDate? (cs : List Char) : Option DateFields := do
  let (year, cs) ← readDigits 4 0 cs
  let (dashed, cs) := match cs with
    | '-' :: cs => (true, cs)
    | cs => (false, cs)
  let hyphen (cs : List Char) : Option (List Char) :=
    if !dashed then some cs else if cs.head? = some '-' then some cs.tail else none
  match cs with
  | 'W' :: cs =>
    let (week, cs) ← readDigits 2 0 cs
    if cs.isEmpty then weekDate? year week 1
    else
      let (weekday, _) ← readDigits 1 0 (← hyphen cs)
      weekDate? year week weekday
  | cs =>
    let (month, cs) ← readDigits 2 0 cs
    let (day, _) ← readDigits 2 0 (← hyphen cs)
    return ⟨year, month, day⟩

/-! ## Clocks -/

/-- The numbers of a clock, and whether it goes to the end of its text. -/
structure ClockFields where
  /-- The hour. -/
  hour : Nat
  /-- The minute. -/
  minute : Nat
  /-- The second. -/
  second : Nat
  /-- The microsecond. -/
  micro : Nat
  /-- Whether nothing stands behind it. -/
  complete : Bool

/-- The microseconds that the clock is past midnight. -/
def ClockFields.micros (c : ClockFields) : Nat :=
  (c.hour * 3600 + c.minute * 60 + c.second) * 1000000 + c.micro

/-- Reads a fraction of a second: six digits count, or all if there are fewer, and more digits are
passed over. -/
def readFraction? (cs : List Char) : Option (Nat × Bool) := do
  let count := min 6 cs.length
  let (n, rest) ← readDigits count 0 cs
  return (n * Nat.pow 10 (6 - count), isEnd (rest.dropWhile isAsciiDigit))

/-- What stands behind two digits of a clock. -/
inductive AfterPair where
  /-- The clock ends; the flag says whether cleanly. -/
  | stop (complete : Bool)
  /-- The next two digits follow, with colons or without. -/
  | pair (colons : Bool) (rest : List Char)
  /-- The fraction follows. -/
  | fraction (rest : List Char)
  /-- Nothing that a clock could go on with. -/
  | bad

/-- Looks behind two digits. `colons` is not known yet after the hours; a single ASCII character
behind the digits always ends the clock. -/
def afterPair (colons : Option Bool) : List Char → AfterPair
  | [] => .stop true
  | [c] => if c.toNat < 0x80 then .stop (c = '\x00') else .bad
  | c :: cs =>
    let colons := colons.getD (c = ':')
    if colons ∧ c = ':' then .pair true cs
    else if c = '.' ∨ c = ',' then .fraction cs
    else if !colons then .pair false (c :: cs)
    else .bad

/-- Reads a clock. -/
def readClock? (cs : List Char) : Option ClockFields := do
  let (hour, cs) ← readDigits 2 0 cs
  match afterPair none cs with
  | .bad => none
  | .stop complete => return ⟨hour, 0, 0, 0, complete⟩
  | .fraction cs =>
    let (micro, complete) ← readFraction? cs
    return ⟨hour, 0, 0, micro, complete⟩
  | .pair colons cs =>
    let (minute, cs) ← readDigits 2 0 cs
    match afterPair (some colons) cs with
    | .bad => none
    | .stop complete => return ⟨hour, minute, 0, 0, complete⟩
    | .fraction cs =>
      let (micro, complete) ← readFraction? cs
      return ⟨hour, minute, 0, micro, complete⟩
    | .pair _ cs =>
      let (second, cs) ← readDigits 2 0 cs
      match afterPair (some colons) cs with
      | .bad => none
      | .stop complete => return ⟨hour, minute, second, 0, complete⟩
      | .fraction cs =>
        let (micro, complete) ← readFraction? cs
        return ⟨hour, minute, second, micro, complete⟩
      | .pair _ cs =>
        -- there is no fourth pair: what follows is the fraction, its point replaced or left out
        let (micro, complete) ← readFraction? cs
        return ⟨hour, minute, second, micro, complete⟩

/-- Whether the character starts the zone. -/
def startsZone (c : Char) : Bool :=
  c = '+' || c = '-' || c = 'Z'

/-- Reads a zone as the microseconds by which its clocks are ahead; whole seconds must be among
them for a fraction to count. -/
def readZone? : List Char → Option Int
  | 'Z' :: rest => if isEnd rest then some 0 else none
  | sign :: rest =>
    match readClock? rest with
    | some clock =>
      if !clock.complete then none
      else if clock.micros < 1000000 then some 0
      else some (if sign = '-' then -(clock.micros : Int) else clock.micros)
    | none => none
  | [] => none

/-! ## Times -/

/-- A time as it is written, with the offset of its clock if one is given. -/
structure ZonedTime where
  /-- What the clock shows. -/
  wall : DateTime
  /-- The microseconds by which the clock is ahead. -/
  offset : Option Int
deriving DecidableEq, Repr

/-- The numbers of a clock and the zone behind it, from all of the given characters. -/
def readClockAndZone? (cs : List Char) : Option (ClockFields × Option Int) := do
  let clock ← readClock? (cs.takeWhile fun c => !startsZone c)
  match cs.dropWhile fun c => !startsZone c with
  | [] => if clock.complete then return (clock, none) else none
  | zone => return (clock, some (← readZone? zone))

/-- Reads a time. An offset of a day or more is reported before any other number. -/
def readIso (text : String) : Except ReadError ZonedTime := do
  let cs := text.toList
  if cs.length < 7 then throw (.malformed text)
  let count := dateLength cs
  let some date := readDate? (cs.take count) | throw (.malformed text)
  let (clock, offset) ←
    match cs.drop count with
    | [] => pure (⟨0, 0, 0, 0, true⟩, none)
    | _ :: rest =>
      match readClockAndZone? rest with
      | some read => pure read
      | none => throw (.malformed text)
  if let some micros := offset then
    if micros.natAbs ≥ DateTime.microsPerDay then throw (.offset micros)
  match DateTime.ofFields date.year date.month date.day clock.hour clock.minute clock.second
      clock.micro with
  | .ok wall => return ⟨wall, offset⟩
  | .error e => throw (.field e)

end LogSearch.Calendar
