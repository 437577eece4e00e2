/-
The time of a record against the prefix of its opening line.

A line opens a record by the timestamp at its start, but it is dated by the first timestamp
with a year at whatever place, and only without one by a glog prefix. For a prefix with its
year these are the same (`denotes_of_opens_hasYear`), since nothing comes before the start.
A glog prefix, however, loses against a date that is quoted in the message behind it
(`exists_of_date?_eq_some`). So the time of a record is the one of its prefix exactly if the
prefix has its year or the line quotes no other time.
-/
import LogSearch.Proofs.Record.Partition
import LogSearch.Proofs.Timestamp.Shapes

set_option autoImplicit false

namespace LogSearch

namespace Timestamp

open Calendar (DateTime)

variable {year : Int} {line : String} {stamp : Stamp}

/-- A line starts a record exactly if a timestamp stands at its start. -/
theorem startsRecord_iff : startsRecord line = true ↔ ∃ s : Spelling, s.Opens line.toList := by
  unfold startsRecord
  rw [Bool.or_eq_true, Option.isSome_iff_exists, Option.isSome_iff_exists]
  constructor
  · rintro (⟨f, hread⟩ | ⟨f, hread⟩)
    · obtain ⟨s, -, hopens, -⟩ := loose?_eq_some_iff.mp hread
      exact ⟨s, hopens⟩
    · obtain ⟨s, -, hopens, -⟩ := glog?_eq_some_iff.mp hread
      exact ⟨s, hopens⟩
  · rintro ⟨s, hopens⟩
    cases hyear : s.hasYear with
    | true => exact .inl ⟨s.fields, loose?_eq_some_iff.mpr ⟨s, hyear, hopens, rfl⟩⟩
    | false => exact .inr ⟨s.fields, glog?_eq_some_iff.mpr ⟨s, hyear, hopens, rfl⟩⟩

/-- Where the time of a line comes from: the first timestamp with its year, or a glog prefix
if that is missing or no time. -/
theorem exists_of_date?_eq_some (h : date? year line = some stamp) :
    (∃ s : Spelling, s.IsFirstIn line.toList ∧ s.fields.Denotes year stamp.time)
      ∨ (∀ s : Spelling, s.IsFirstIn line.toList → ∀ t, ¬ s.fields.Denotes year t)
        ∧ ∃ s : Spelling, s.hasYear = false ∧ s.Opens line.toList
          ∧ s.fields.Denotes year stamp.time := by
  rw [date?_eq] at h
  cases hfirst : (findLoose? line.toList).bind (·.time? year) with
  | some t =>
    rw [hfirst] at h
    cases h
    obtain ⟨f, hfind, ht⟩ := Option.bind_eq_some_iff.mp hfirst
    obtain ⟨s, hs, rfl⟩ := findLoose?_eq_some_iff.mp hfind
    exact .inl ⟨s, hs, Fields.time?_eq_some_iff.mp ht⟩
  | none =>
    rw [hfirst, Option.map_none, Option.none_or] at h
    obtain ⟨t, hglog, rfl⟩ := Option.map_eq_some_iff.mp h
    obtain ⟨f, hread, ht⟩ := Option.bind_eq_some_iff.mp hglog
    obtain ⟨s, hyear, hopens, rfl⟩ := glog?_eq_some_iff.mp hread
    refine .inr ⟨fun q hq t' hdenotes => ?_, s, hyear, hopens, Fields.time?_eq_some_iff.mp ht⟩
    rw [findLoose?_eq_some_iff.mpr ⟨q, hq, rfl⟩, Option.bind_some,
      Fields.time?_eq_some_iff.mpr hdenotes] at hfirst
    cases hfirst

/-- The numbers of a timestamp belong to one time at most. -/
theorem Fields.Denotes.unique {f : Fields} {t t' : DateTime} (h : f.Denotes year t)
    (h' : f.Denotes year t') : t = t' := by
  have htime := time?_eq_some_iff.mpr h
  rw [time?_eq_some_iff.mpr h'] at htime
  exact (Option.some.inj htime).symm

theorem Spelling.IsFirstIn.fields_eq {s s' : Spelling} {cs : List Char} (h : s.IsFirstIn cs)
    (h' : s'.IsFirstIn cs) : s.fields = s'.fields := by
  have hfind := findLoose?_eq_some_iff.mpr ⟨s, h, rfl⟩
  rw [findLoose?_eq_some_iff.mpr ⟨s', h', rfl⟩] at hfind
  exact (Option.some.inj hfind).symm

theorem Spelling.Opens.fields_eq {s s' : Spelling} {cs : List Char} (h : s.Opens cs)
    (h' : s'.Opens cs) (hyear : s.hasYear = false) (hyear' : s'.hasYear = false) :
    s.fields = s'.fields := by
  have hread := glog?_eq_some_iff.mpr ⟨s, hyear, h, rfl⟩
  rw [glog?_eq_some_iff.mpr ⟨s', hyear', h', rfl⟩] at hread
  exact (Option.some.inj hread).symm

/-- A prefix with its year dates its line: the first place of such a timestamp is the start. -/
theorem denotes_of_opens_hasYear {s : Spelling} (hyear : s.hasYear = true)
    (hopens : s.Opens line.toList) (h : date? year line = some stamp) :
    s.fields.Denotes year stamp.time := by
  rcases exists_of_date?_eq_some h with ⟨first, hfirst, hdenotes⟩ | ⟨-, q, hq, hqopens, -⟩
  · rw [(Spelling.isFirstIn_of_opens hyear hopens).fields_eq hfirst]
    exact hdenotes
  · have hnone := glog?_of_loose? (loose?_eq_some_iff.mpr ⟨s, hyear, hopens, rfl⟩)
    rw [glog?_eq_some_iff.mpr ⟨q, hq, hqopens, rfl⟩] at hnone
    cases hnone

/-- A prefix dates its line exactly if it has its year or the line quotes no other time. -/
theorem denotes_iff_of_opens {s : Spelling} (hopens : s.Opens line.toList)
    (h : date? year line = some stamp) :
    s.fields.Denotes year stamp.time
      ↔ s.hasYear = true ∨ ∀ q : Spelling, q.IsFirstIn line.toList →
        ∀ t, q.fields.Denotes year t → s.fields.Denotes year t := by
  cases hyear : s.hasYear with
  | true => exact ⟨fun _ => .inl rfl, fun _ => denotes_of_opens_hasYear hyear hopens h⟩
  | false =>
    rcases exists_of_date?_eq_some h with
      ⟨first, hfirst, hdenotes⟩ | ⟨hnone, s', hyear', hopens', hdenotes⟩
    · constructor
      · intro hs
        refine .inr fun q hq t ht => ?_
        -- There is one first timestamp, so the time that is quoted is the one of the line.
        rw [hq.fields_eq hfirst] at ht
        rw [ht.unique hdenotes]
        exact hs
      · rintro (hwritten | hquoted)
        · cases hwritten
        · exact hquoted first hfirst stamp.time hdenotes
    · constructor
      · intro _
        exact .inr fun q hq t ht => absurd ht (hnone q hq t)
      · intro _
        rw [hopens.fields_eq hopens' hyear hyear']
        exact hdenotes

end Timestamp

namespace Record

open Timestamp (Spelling)

/-- A record comes from an opening line, with the number and the time of that line. -/
theorem exists_opening_of_mem {text source : String} {year : Int} {record : Record}
    (h : record ∈ ofText text source year) :
    ∃ line ∈ Text.numberedLines text, ∃ stamp, opens year line = true
      ∧ Timestamp.date? year line.2 = some stamp
      ∧ record.lineNumber = line.1 ∧ record.timestamp = stamp.time := by
  obtain ⟨k, hk⟩ := List.mem_iff_getElem?.mp h
  have hrecords : ofText text source year
      = (Assembler.begin source year 0).records (Text.numberedLines text) := rfl
  rw [hrecords] at hk
  obtain ⟨before, line, after, stamp, hlines, -, hopens, hdate, rfl⟩ :=
    Assembler.records_begin_getElem?_eq_some_iff.mp hk
  refine ⟨line, ?_, stamp, hopens, hdate, rfl, rfl⟩
  rw [hlines]
  exact List.mem_append_right before List.mem_cons_self

/-- **The time of a record is the one of its prefix, unless another one is quoted.** The opening
line of a record has a timestamp at its start. The time of the record is the one that is
written there exactly if it is written with its year, or if no other time is quoted by the
first timestamp with a year in the line. Otherwise the time is the quoted one. -/
theorem timestamp_denotes_iff (text source : String) (currentYear : Nat)
    (fileName : Option String) (named : Option Int) :
    let year := (Timestamp.yearFor currentYear source fileName named).year
    ∀ record ∈ ofText text source year, ∃ line ∈ Text.numberedLines text,
      record.lineNumber = line.1
      ∧ (∃ s : Spelling, s.Opens line.2.toList)
      ∧ ∀ s : Spelling, s.Opens line.2.toList →
        (s.fields.Denotes year record.timestamp
          ↔ s.hasYear = true ∨ ∀ q : Spelling, q.IsFirstIn line.2.toList →
            ∀ t, q.fields.Denotes year t → s.fields.Denotes year t)
        ∧ (¬ s.fields.Denotes year record.timestamp →
          ∃ q : Spelling, q.IsFirstIn line.2.toList
            ∧ q.fields.Denotes year record.timestamp) := by
  intro year record hrecord
  obtain ⟨line, hline, stamp, hopens, hdate, hnumber, htime⟩ := exists_opening_of_mem hrecord
  have hstarts : Timestamp.startsRecord line.2 = true := (Bool.and_eq_true_iff.mp hopens).1
  refine ⟨line, hline, hnumber, Timestamp.startsRecord_iff.mp hstarts, fun s hs => ?_⟩
  rw [htime]
  have hiff := Timestamp.denotes_iff_of_opens hs hdate
  refine ⟨hiff, fun hother => ?_⟩
  rcases Timestamp.exists_of_date?_eq_some hdate with hquoted | ⟨hnone, -⟩
  · exact hquoted
  · exact absurd (hiff.mpr (.inr fun q hq t ht => absurd ht (hnone q hq t))) hother

/-- In a log of two records the second has the time of its prefix, whatever it quotes. -/
theorem timestamp_denotes_iff_fullPrefix :
    let text := "I0102 03:04:05.678 up\n  at Main\n2024/01/02 03:04:06.5 retry of 2019-05-06 07:08:09"
    let source := "app-20240102.log"
    let year := (Timestamp.yearFor 2026 source none none).year
    let time : Calendar.DateTime := ⟨⟨2024, 1, 2, by decide⟩, 3, 4, 6, 500000, by decide⟩
    ∃ record ∈ ofText text source year, record.timestamp = time
      ∧ ∃ line ∈ Text.numberedLines text, record.lineNumber = line.1
        ∧ ∃ s : Spelling, s.Opens line.2.toList ∧ s.fields.Denotes year time := by
  intro text source year time
  have hrecord : (⟨time, "2024/01/02 03:04:06.5 retry of 2019-05-06 07:08:09", source, 1, 3⟩ : Record)
      ∈ ofText text source year := by decide +kernel
  obtain ⟨line, hline, hnumber, ⟨s, hs⟩, hdated⟩ :=
    timestamp_denotes_iff text source 2026 none none _ hrecord
  refine ⟨_, hrecord, rfl, line, hline, hnumber, s, hs, (hdated s hs).1.mpr (.inl ?_)⟩
  have hlast : ∀ line ∈ Text.numberedLines text, (3 : Int) = line.1 →
      Timestamp.glog? line.2.toList = none := by decide +kernel
  cases hyear : s.hasYear with
  | true => rfl
  | false =>
    have hglog := hlast line hline hnumber
    rw [Timestamp.glog?_eq_some_iff.mpr ⟨s, hyear, hs, rfl⟩] at hglog
    cases hglog

/-- A glog prefix loses against a date that is quoted behind it: the line below is dated by the
time of the attempt that it reports. -/
theorem timestamp_of_quoted_date :
    let text := "I0102 03:04:05.678 retry of 2019-05-06 07:08:09"
    let source := "app-20240102.log"
    let year := (Timestamp.yearFor 2026 source none none).year
    ∃ record ∈ ofText text source year, ∀ line ∈ Text.numberedLines text,
      (∃ s : Spelling, s.Opens line.2.toList)
        ∧ ∀ s : Spelling, s.Opens line.2.toList → ¬ s.fields.Denotes year record.timestamp := by
  intro text source year
  have hrecord : (⟨⟨⟨2019, 5, 6, by decide⟩, 7, 8, 9, 0, by decide⟩, text, source, 0, 1⟩ : Record)
      ∈ ofText text source year := by decide +kernel
  have hlines : Text.numberedLines text = [(1, text)] := by decide +kernel
  have hglog : Timestamp.glog? text.toList = some ⟨none, 1, 2, 3, 4, 5, 678⟩ := by decide +kernel
  have hloose : Timestamp.loose? text.toList = none := by decide +kernel
  refine ⟨_, hrecord, fun line hline => ?_⟩
  rw [hlines, List.mem_singleton] at hline
  subst hline
  obtain ⟨s, hyear, hopens, hfields⟩ := Timestamp.glog?_eq_some_iff.mp hglog
  refine ⟨⟨s, hopens⟩, fun s' hopens' hdenotes => ?_⟩
  cases hyear' : s'.hasYear with
  | true =>
    rw [Timestamp.loose?_eq_some_iff.mpr ⟨s', hyear', hopens', rfl⟩] at hloose
    cases hloose
  | false =>
    rw [hopens'.fields_eq hopens hyear' hyear, ← hfields] at hdenotes
    have hmonth : 1 = 5 := hdenotes.2.1
    cases hmonth

end Record

end LogSearch
