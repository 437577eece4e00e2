/-
Timestamps as they are written.

A spelling is a timestamp piece by piece, with the characters of every piece. It says what
the pieces are made of and which numbers they write, and nothing about how they are found in
a line. The shapes that are read are the spellings that a line opens with.

Three digits of a fraction count: more are cut off, and zeros stand in for missing ones.
-/
import LogSearch.Timestamp.Dating

set_option autoImplicit false

namespace LogSearch.Timestamp

open Calendar (DateTime)

/-- A number as it is written with `width` digits. -/
structure Digits (width : Nat) where
  chars : List Char
  length_eq : chars.length = width
  areDigits : ∀ c ∈ chars, Text.isDigit c

def Digits.value {width : Nat} (d : Digits width) : Nat :=
  Text.digitsToNat d.chars

/-- The white space between a date and a clock. -/
structure Gap where
  chars : List Char
  ne_nil : chars ≠ []
  areBlank : ∀ c ∈ chars, Text.isBlank c

/-- The letters for the level of a message that stand in front of a glog timestamp. -/
def isLevel (c : Char) : Bool :=
  c = 'I' || c = 'W' || c = 'E' || c = 'F'

/-- A date as it is written: with its year, or without one behind the letter of a level. -/
inductive DateSpelling where
  | full (year : Digits 4) (first : Char) (month : Digits 2) (second : Char) (day : Digits 2)
      (areSeparators : isDateSeparator first ∧ isDateSeparator second)
  | glog (level : Char) (month day : Digits 2) (isLevel : isLevel level)

namespace DateSpelling

def chars : DateSpelling → List Char
  | full year first month second day _ =>
    year.chars ++ first :: (month.chars ++ second :: day.chars)
  | glog level month day _ => level :: (month.chars ++ day.chars)

def year? : DateSpelling → Option Nat
  | full year _ _ _ _ _ => some year.value
  | glog _ _ _ _ => none

def month : DateSpelling → Nat
  | full _ _ month _ _ _ => month.value
  | glog _ month _ _ => month.value

def day : DateSpelling → Nat
  | full _ _ _ _ day _ => day.value
  | glog _ _ day _ => day.value

end DateSpelling

/-- A timestamp as it is written. One without a year has three digits of a fraction or more. -/
structure Spelling where
  date : DateSpelling
  gap : Gap
  hour : Digits 2
  minute : Digits 2
  second : Digits 2
  fraction : List Char
  areDigits : ∀ c ∈ fraction, Text.isDigit c
  isLong : date.year? = none → 3 ≤ fraction.length

namespace Spelling

/-- Whether the year is written. -/
def hasYear (s : Spelling) : Bool :=
  s.date.year?.isSome

/-- The milliseconds: the first three digits of the fraction, with zeros for missing ones. -/
def millis (s : Spelling) : Nat :=
  Text.digitsToNat ((s.fraction ++ ['0', '0', '0']).take 3)

/-- The numbers that are written. -/
def fields (s : Spelling) : Fields :=
  ⟨s.date.year?, s.date.month, s.date.day,
    ⟨s.hour.value, s.minute.value, s.second.value, s.millis⟩⟩

/-- The point and the digits of the fraction, if there are any. -/
def fractionChars (s : Spelling) : List Char :=
  if s.fraction = [] then [] else '.' :: s.fraction

def chars (s : Spelling) : List Char :=
  s.date.chars ++ (s.gap.chars ++ (s.hour.chars ++ ':' :: (s.minute.chars
    ++ ':' :: (s.second.chars ++ s.fractionChars))))

/-- Whether the fraction does not go on in what follows the timestamp. -/
def EndsBefore (s : Spelling) (rest : List Char) : Prop :=
  if s.fraction = [] then ∀ more, rest = '.' :: more → ∀ d ∈ more.head?, Text.isDigit d = false
  else ∀ d ∈ rest.head?, Text.isDigit d = false

/-- Whether the timestamp stands at the start of some characters. -/
def Opens (s : Spelling) (cs : List Char) : Prop :=
  ∃ rest, cs = s.chars ++ rest ∧ s.EndsBefore rest

/-- Whether the timestamp is the first one with its year, at whatever place of the characters. -/
def IsFirstIn (s : Spelling) (cs : List Char) : Prop :=
  s.hasYear ∧ ∃ before after, cs = before ++ after ∧ s.Opens after
    ∧ ∀ earlier later, cs = earlier ++ later → earlier.length < before.length →
      ∀ t : Spelling, t.hasYear → ¬ t.Opens later

end Spelling

/-- The year that is written, or `year` in its place. -/
def Fields.yearOr (f : Fields) (year : Int) : Int :=
  match f.year with
  | some written => written
  | none => year

/-- Whether a time has the numbers of a timestamp, where `year` stands in for a missing one. -/
def Fields.Denotes (f : Fields) (year : Int) (t : DateTime) : Prop :=
  f.yearOr year = t.date.year ∧ f.month = t.date.month ∧ f.day = t.date.day
  ∧ f.clock.hour = t.hour ∧ f.clock.minute = t.minute ∧ f.clock.second = t.second
  ∧ f.clock.millis * 1000 = t.micro

end LogSearch.Timestamp
