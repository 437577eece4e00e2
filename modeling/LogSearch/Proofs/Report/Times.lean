/-
Times in reports.

Reports write times in two forms. Ranges have the full form, from which every time is read back,
so whatever a range comes from, its ends can be sent back as they are. Records have the form in
milliseconds, which loses what is finer than that. No record has anything finer: its time is
dated by a timestamp in its opening line, and of the fraction there three digits count
(`exists_dating_of_mem`). So this form loses nothing either (`readBound_isoMillis_of_mem`), and a
search from the time of a record to the same time keeps it.
-/
import LogSearch.Proofs.Calendar.Reading
import LogSearch.Proofs.Record.Dating
import LogSearch.Report
import LogSearch.Service.Parameters

set_option autoImplicit false

namespace LogSearch

namespace Timestamp

variable {year : Int} {line : String} {stamp : Stamp}

/-- A line is dated by the first timestamp with its year, or by a glog prefix. -/
def Spelling.Dates (s : Spelling) (line : String) : Prop :=
  s.IsFirstIn line.toList ∨ s.hasYear = false ∧ s.Opens line.toList

theorem exists_dates_of_date? (h : date? year line = some stamp) :
    ∃ s : Spelling, s.Dates line ∧ s.fields.Denotes year stamp.time := by
  rcases exists_of_date?_eq_some h with ⟨s, hfirst, hdenotes⟩ | ⟨-, s, hyear, hopens, hdenotes⟩
  · exact ⟨s, .inl hfirst, hdenotes⟩
  · exact ⟨s, .inr ⟨hyear, hopens⟩, hdenotes⟩

/-- The fraction of a time that has the numbers of a timestamp: its milliseconds, nothing finer. -/
theorem Spelling.micro_of_denotes {s : Spelling} {t : Calendar.DateTime}
    (h : s.fields.Denotes year t) : t.micro = 1000 * s.millis := by
  obtain ⟨-, -, -, -, -, -, hmicro⟩ := h
  exact hmicro.symm.trans (Nat.mul_comm _ _)

end Timestamp

namespace Record

open Timestamp (Spelling)

variable {text source : String} {year : Int} {record : Record}

/-- A record has the time of a timestamp in its opening line. -/
theorem exists_dating_of_mem (h : record ∈ ofText text source year) :
    ∃ line ∈ Text.numberedLines text, record.lineNumber = line.1
      ∧ ∃ s : Spelling, s.Dates line.2 ∧ s.fields.Denotes year record.timestamp := by
  obtain ⟨line, hline, stamp, -, hdate, hnumber, htime⟩ := exists_opening_of_mem h
  obtain ⟨s, hdates, hdenotes⟩ := Timestamp.exists_dates_of_date? hdate
  exact ⟨line, hline, hnumber, s, hdates, htime ▸ hdenotes⟩

/-- The time of a record has nothing finer than a millisecond. -/
theorem dvd_micro_of_mem (h : record ∈ ofText text source year) : 1000 ∣ record.timestamp.micro := by
  obtain ⟨line, -, -, s, -, hdenotes⟩ := exists_dating_of_mem h
  exact ⟨s.millis, Timestamp.Spelling.micro_of_denotes hdenotes⟩

theorem readBound_isoMillis_of_mem (h : record ∈ ofText text source year) :
    Calendar.readBound (some record.timestamp.isoMillis) = .ok (some record.timestamp) := by
  rw [Calendar.readBound_isoMillis, Calendar.DateTime.inMillis_of_dvd (dvd_micro_of_mem h)]

end Record

namespace Service

open Calendar (DateTime)

/-- A text that is read as a time is a bound of a window. -/
theorem readBound_string {written : String} {t : DateTime}
    (h : Calendar.readBound (some written) = .ok (some t)) :
    readBound (.string written) = .ok (some t) := by
  have hgiven : (Json.Value.string written).isGiven = true := by
    refine Json.Value.isGiven_string.mpr ?_
    rintro rfl
    cases h
  have htext : givenText (.string written) = .ok (some written) := by
    rw [givenText, if_pos hgiven]
    rfl
  have hbound : Calendar.readBound (some written) = .ok (some t) := h
  rw [readBound, htext]
  simp only [bind, Except.bind, hbound]
  rfl

/-- A window from a time to the same time. -/
theorem readWindow_of_same {m : Members} {written : String} {t : DateTime}
    (hstart : m.get "begin_time" = .string written) (hstop : m.get "end_time" = .string written)
    (h : Calendar.readBound (some written) = .ok (some t)) :
    readWindow m = .ok ⟨some t, some t⟩ := by
  unfold readWindow
  rw [hstart, hstop, readBound_string h]
  rfl

theorem isReversed_of_same (t : DateTime) : isReversed ⟨some t, some t⟩ = false := by
  have hirrefl : ¬ t < t := fun h => Nat.lt_irrefl _ (DateTime.lt_iff.mp h)
  exact decide_eq_false hirrefl

end Service

/-- The window from a time to the same time has this time in it. -/
theorem Search.Window.contains_of_same (t : Calendar.DateTime) :
    Window.contains ⟨some t, some t⟩ t = true := by
  have hrefl : t ≤ t := Calendar.DateTime.le_iff.mpr (Nat.le_refl _)
  rw [Window.contains, Option.all_some, Option.all_some, decide_eq_true hrefl, Bool.and_self]

namespace Report

open Json (Value)

/-- Whether a report has a member with some text. -/
def HasText (report : Value) (name text : String) : Prop :=
  ∃ members, report = .object members ∧ Value.member name members = .string text

/-- **Times in reports can be sent back.** A record has the time of a timestamp in its opening
line, with the first three digits of the fraction as its milliseconds, zeros standing in for
missing ones, and nothing finer. The text for it in reports is read back as this time, so a search
from that text to the same text takes the record if its content matches. For a range, whatever it
comes from, the texts for its ends are read back as its ends. -/
theorem times_readBack (text source : String) (currentYear : Nat) (fileName : Option String)
    (named : Option Int) :
    let year := (Timestamp.yearFor currentYear source fileName named).year
    (∀ record ∈ Record.ofText text source year,
      (∃ line ∈ Text.numberedLines text, record.lineNumber = line.1
        ∧ ∃ s : Timestamp.Spelling, s.Dates line.2 ∧ s.fields.Denotes year record.timestamp
          ∧ record.timestamp.micro
            = 1000 * Text.digitsToNat ((s.fraction ++ ['0', '0', '0']).take 3))
      ∧ ∃ written, HasText (Report.record record) "timestamp" written
        ∧ Calendar.readBound (some written) = .ok (some record.timestamp)
        ∧ ∀ m : Service.Members, m.get "begin_time" = .string written →
          m.get "end_time" = .string written →
          ∃ window, Service.readWindow m = .ok window ∧ Service.isReversed window = false
            ∧ ∀ expression : Query.Expr,
              Search.Criteria.accept ⟨expression, window⟩ record
                = expression.holdsFor record.content)
    ∧ ∀ r : TimeRange, ∃ start stop, HasText (Report.range r) "start" start
      ∧ HasText (Report.range r) "end" stop
      ∧ Calendar.readBound (some start) = .ok (some r.start)
      ∧ Calendar.readBound (some stop) = .ok (some r.stop) := by
  intro year
  refine ⟨fun record hrecord => ⟨?_, ?_⟩, fun r => ?_⟩
  · obtain ⟨line, hline, hnumber, s, hdates, hdenotes⟩ := Record.exists_dating_of_mem hrecord
    have hmicro := Timestamp.Spelling.micro_of_denotes hdenotes
    rw [Timestamp.Spelling.millis] at hmicro
    exact ⟨line, hline, hnumber, s, hdates, hdenotes, hmicro⟩
  · have hread := Record.readBound_isoMillis_of_mem hrecord
    refine ⟨_, ⟨_, rfl, rfl⟩, hread, fun m hstart hstop => ?_⟩
    refine ⟨_, Service.readWindow_of_same hstart hstop hread, Service.isReversed_of_same _,
      fun expression => ?_⟩
    rw [Search.Criteria.accept, Search.Window.contains_of_same, Bool.true_and]
  · exact ⟨_, _, ⟨_, rfl, rfl⟩, ⟨_, rfl, rfl⟩, Calendar.readBound_iso r.start,
      Calendar.readBound_iso r.stop⟩

/-- Of a long fraction three digits are left, and they are sent back. -/
theorem times_readBack_longFraction :
    let text := "I0102 03:04:05.6789 up\n  at Main"
    let source := "app-20240102.log"
    let year := (Timestamp.yearFor 2026 source none none).year
    let time : Calendar.DateTime := ⟨⟨2024, 1, 2, by decide⟩, 3, 4, 5, 678000, by decide⟩
    ∃ record ∈ Record.ofText text source year, record.timestamp = time
      ∧ ∃ written, HasText (Report.record record) "timestamp" written
        ∧ ∃ window,
          Service.readWindow [("begin_time", .string written), ("end_time", .string written)]
            = .ok window
          ∧ window.contains time = true := by
  intro text source year time
  have hrecord : (⟨time, text, source, 0, 1⟩ : Record) ∈ Record.ofText text source year := by
    decide +kernel
  obtain ⟨-, written, hwritten, -, hsearch⟩ :=
    (times_readBack text source 2026 none none).1 _ hrecord
  obtain ⟨window, hwindow, -, haccept⟩ :=
    hsearch [("begin_time", .string written), ("end_time", .string written)] rfl rfl
  refine ⟨_, hrecord, rfl, written, hwritten, window, hwindow, ?_⟩
  -- the keyword is in the content, so what takes the record is the window
  have hkept := haccept (.keyword "up")
  have hholds : (Query.Expr.keyword "up").holdsFor text = true := by decide +kernel
  rw [hholds] at hkept
  exact (Bool.and_eq_true_iff.mp hkept).1

end Report

end LogSearch
