/-
Reading times that were written.

A reader of digits takes a number off the front whatever follows it (`readDigits_append`). From
there each part of a time is read back from its written form: the date, whose length is settled
first by its fifth and its sixth character, and the clock with its fraction, whose digits count
from the point on and so may be as few as are needed (`readIso_of_toList`).

That covers all forms at once. The full form gives the time itself (`readBound_iso`), the one in
milliseconds the time that is cut to them (`readBound_isoMillis`). The form for log servers is the
latter with a `Z` behind it as long as the year needs four digits (`readBound_forServer`). A
shorter year moves the first hyphen to where a digit of the year has to stand, and nothing is
read (`readBound_forServer_of_short`).
-/
import LogSearch.Calendar.Bound
import LogSearch.Calendar.Written
import LogSearch.Proofs.Text.Digits
import Mathlib.Data.List.TakeWhile

set_option autoImplicit false

namespace LogSearch

namespace Text

/-- A text without white space is left as it is. -/
theorem trim_of_forall {s : String} (h : ∀ c ∈ s.toList, isBlank c = false) : trim s = s := by
  have hdrop (cs : List Char) (hcs : ∀ c ∈ cs, isBlank c = false) : cs.dropWhile isBlank = cs := by
    cases cs with
    | nil => rfl
    | cons c cs => exact List.dropWhile_cons_of_neg (by rw [hcs c List.mem_cons_self]; decide)
  rw [trim, stripWhile, dropRightWhile, hdrop _ h,
    hdrop _ fun c hc => h c (List.mem_reverse.mp hc), List.reverse_reverse, String.ofList_toList]

end Text

namespace Calendar

open Text (paddedDigits length_paddedDigits exists_of_mem_paddedDigits)

/-! ## Digits -/

theorem readDigits_add (a b start : Nat) (cs : List Char) :
    readDigits (a + b) start cs = (readDigits a start cs).bind fun r => readDigits b r.1 r.2 := by
  induction a generalizing start cs with
  | zero => rw [Nat.zero_add, readDigits, Option.bind_some]
  | succ a ih =>
    rw [Nat.succ_add]
    cases cs with
    | nil => rfl
    | cons c cs =>
      rw [readDigits, readDigits]
      cases Text.asciiDigit? c with
      | none => rfl
      | some d => exact ih (10 * start + d) cs

/-- Of a number as many digits are read as there are. -/
theorem readDigits_append_mod (width n start : Nat) (rest : List Char) :
    readDigits width start (paddedDigits width n ++ rest)
      = some (start * 10 ^ width + n % 10 ^ width, rest) := by
  induction width generalizing n rest with
  | zero => simp [readDigits, paddedDigits, Nat.mod_one]
  | succ width ih =>
    have hlast := Text.asciiDigit?_ofNat (n % 10) (Nat.mod_lt n (by decide))
    rw [readDigits_add, paddedDigits, List.append_assoc, ih, Option.bind_some, List.singleton_append,
      readDigits, hlast]
    simp only [readDigits]
    rw [Nat.pow_succ', Nat.mod_mul, Nat.mul_left_comm start 10]
    congr 2
    omega

/-- A number is read off the front, whatever follows it. -/
theorem readDigits_append {width n : Nat} (h : n < 10 ^ width) (rest : List Char) :
    readDigits width 0 (paddedDigits width n ++ rest) = some (n, rest) := by
  rw [readDigits_append_mod, Nat.zero_mul, Nat.zero_add, Nat.mod_eq_of_lt h]

/-- Nothing is read where one of the characters is no digit. -/
theorem readDigits_eq_none {width start : Nat} {cs : List Char} {c : Char} (hc : c ∈ cs.take width)
    (h : Text.asciiDigit? c = none) : readDigits width start cs = none := by
  induction width generalizing start cs with
  | zero => cases hc
  | succ width ih =>
    cases cs with
    | nil => rfl
    | cons first cs =>
      rw [readDigits]
      rcases List.mem_cons.mp hc with rfl | hc
      · rw [h]
      · cases Text.asciiDigit? first with
        | none => rfl
        | some d => exact ih hc

/-! ## Dates -/

/-- The characters of a date behind its year. -/
def Date.charsBehindYear (d : Date) : List Char :=
  '-' :: (paddedDigits 2 d.month ++ '-' :: paddedDigits 2 d.day)

/-- The characters of a date with its year in four digits. -/
def Date.chars (d : Date) : List Char :=
  paddedDigits 4 d.year ++ d.charsBehindYear

theorem Date.toList_written (d : Date) : d.written.toList = d.chars := by
  simp [Date.written, Date.chars, Date.charsBehindYear, Text.padded, String.toList_append]

theorem Date.length_chars (d : Date) : d.chars.length = 10 := rfl

theorem dateLength_append (d : Date) (rest : List Char) : dateLength (d.chars ++ rest) = 10 := by
  have hlength : (d.chars ++ rest).length ≠ 7 := by
    rw [List.length_append, d.length_chars]
    omega
  have hfifth : (d.chars ++ rest)[4]? = some '-' := rfl
  have hsixth : (d.chars ++ rest)[5]? ≠ some 'W' := by
    intro h
    have hdigit : some (Char.ofNat (0x30 + d.month / 10 % 10)) = some 'W' := h
    exact Text.ofNat_ne (Nat.mod_lt _ (by decide)) (by decide) (Option.some.inj hdigit)
  rw [dateLength, if_neg hlength, if_pos hfifth, if_neg hsixth]

theorem daysInMonth_le (year month : Nat) : daysInMonth year month ≤ 31 := by
  unfold daysInMonth
  repeat' split
  all_goals omega

theorem readDate?_chars (d : Date) : readDate? d.chars = some ⟨d.year, d.month, d.day⟩ := by
  obtain ⟨⟨-, hyear⟩, ⟨-, hmonth⟩, -, hday⟩ := d.isDate
  have hlong := daysInMonth_le d.year d.month
  have hlast : readDigits 2 0 (paddedDigits 2 d.day ++ []) = some (d.day, []) :=
    readDigits_append (by omega) []
  rw [List.append_nil] at hlast
  unfold readDate? Date.chars Date.charsBehindYear
  rw [readDigits_append (by omega)]
  simp only [Option.bind_eq_bind, Option.bind_some]
  split
  · rename_i heq
    have hdigit : some (Char.ofNat (0x30 + d.month / 10 % 10)) = some 'W' :=
      congrArg List.head? heq
    exact absurd (Option.some.inj hdigit) (Text.ofNat_ne (Nat.mod_lt _ (by decide)) (by decide))
  · rw [readDigits_append (by omega)]
    simp [hlast]

/-! ## Clocks -/

/-- That the characters behind a clock write its microseconds: none for zero, or a point and at
most six digits. -/
def WritesFraction (fraction : List Char) (micro : Nat) : Prop :=
  (fraction = [] ∧ micro = 0)
    ∨ ∃ width value, 1 ≤ width ∧ width ≤ 6 ∧ value < 10 ^ width
      ∧ fraction = '.' :: paddedDigits width value ∧ micro = value * 10 ^ (6 - width)

/-- The characters of a clock to the second. -/
def DateTime.clockChars (t : DateTime) : List Char :=
  paddedDigits 2 t.hour ++ ':' :: (paddedDigits 2 t.minute ++ ':' :: paddedDigits 2 t.second)

theorem DateTime.toList_clockWritten (t : DateTime) : t.clockWritten.toList = t.clockChars := by
  simp [clockWritten, clockChars, Text.padded, String.toList_append]

theorem paddedDigits_ne_nil {width : Nat} (h : 1 ≤ width) (n : Nat) : paddedDigits width n ≠ [] := by
  rw [← List.length_pos_iff, length_paddedDigits]
  exact h

theorem readFraction?_paddedDigits {width value : Nat} (hwidth : width ≤ 6)
    (hvalue : value < 10 ^ width) :
    readFraction? (paddedDigits width value) = some (value * 10 ^ (6 - width), true) := by
  have hread := readDigits_append hvalue []
  rw [List.append_nil] at hread
  unfold readFraction?
  rw [length_paddedDigits, Nat.min_eq_right hwidth]
  simp [hread, isEnd]

theorem afterPair_colon {colons : Option Bool} (h : colons ≠ some false) {cs : List Char}
    (hcs : cs ≠ []) : afterPair colons (':' :: cs) = .pair true cs := by
  obtain ⟨c, cs, rfl⟩ := List.exists_cons_of_ne_nil hcs
  have hcolons : colons.getD true = true := by
    cases colons with
    | none => rfl
    | some b => cases b with
      | false => exact absurd rfl h
      | true => rfl
  simp [afterPair, hcolons]

theorem afterPair_point {cs : List Char} (hcs : cs ≠ []) :
    afterPair (some true) ('.' :: cs) = .fraction cs := by
  obtain ⟨c, cs, rfl⟩ := List.exists_cons_of_ne_nil hcs
  rfl

/-- A clock is read pair by pair, the fraction at the end. -/
theorem readClock?_append (t : DateTime) {fraction : List Char}
    (h : WritesFraction fraction t.micro) :
    readClock? (t.clockChars ++ fraction) = some ⟨t.hour, t.minute, t.second, t.micro, true⟩ := by
  obtain ⟨hhour, hminute, hsecond, -⟩ := t.isTime
  have hpair (colons : Option Bool) (h : colons ≠ some false) (n : Nat) (rest : List Char) :
      afterPair colons (':' :: (paddedDigits 2 n ++ rest)) = .pair true (paddedDigits 2 n ++ rest) :=
    afterPair_colon h (by simp [paddedDigits_ne_nil])
  unfold readClock? DateTime.clockChars
  simp only [List.append_assoc, List.cons_append]
  rw [readDigits_append (by omega)]
  simp only [Option.bind_eq_bind, Option.bind_some, hpair none (by decide)]
  rw [readDigits_append (by omega)]
  simp only [Option.bind_some, hpair (some true) (by decide)]
  rw [readDigits_append (by omega)]
  simp only [Option.bind_some]
  rcases h with ⟨rfl, hmicro⟩ | ⟨width, value, hwidth, hwidth', hvalue, rfl, hmicro⟩
  · rw [hmicro]
    rfl
  · simp only [afterPair_point (paddedDigits_ne_nil hwidth value),
      readFraction?_paddedDigits hwidth' hvalue, Option.bind_some, hmicro]
    rfl

/-- The characters of a clock: digits, colons and points. -/
theorem exists_of_mem_clock {t : DateTime} {fraction : List Char} {micro : Nat}
    (h : WritesFraction fraction micro) {c : Char} (hc : c ∈ t.clockChars ++ fraction) :
    (∃ d < 10, c = Char.ofNat (0x30 + d)) ∨ c = ':' ∨ c = '.' := by
  have hfraction : c ∈ fraction → (∃ d < 10, c = Char.ofNat (0x30 + d)) ∨ c = '.' := by
    rcases h with ⟨rfl, -⟩ | ⟨width, value, -, -, -, rfl, -⟩
    · intro hnone
      cases hnone
    · intro hmem
      rcases List.mem_cons.mp hmem with hpoint | hdigit
      · exact .inr hpoint
      · exact .inl (exists_of_mem_paddedDigits hdigit)
  simp only [DateTime.clockChars, List.mem_append, List.mem_cons] at hc
  rcases hc with (hc | hc | hc | hc | hc) | hc
  · exact .inl (exists_of_mem_paddedDigits hc)
  · exact .inr (.inl hc)
  · exact .inl (exists_of_mem_paddedDigits hc)
  · exact .inr (.inl hc)
  · exact .inl (exists_of_mem_paddedDigits hc)
  · exact (hfraction hc).imp_right .inr

theorem readClockAndZone?_of_complete {cs : List Char} {clock : ClockFields}
    (hplain : ∀ c ∈ cs, startsZone c = false) (h : readClock? cs = some clock)
    (hcomplete : clock.complete = true) : readClockAndZone? cs = some (clock, none) := by
  have hall : ∀ c ∈ cs, (!startsZone c) = true := fun c hc => by rw [hplain c hc]; rfl
  unfold readClockAndZone?
  rw [List.takeWhile_eq_self_iff.mpr hall, List.dropWhile_eq_nil_iff.mpr hall, h]
  simp [hcomplete]

/-! ## Times -/

theorem ofFields_self (t : DateTime) :
    DateTime.ofFields t.date.year t.date.month t.date.day t.hour t.minute t.second t.micro
      = .ok t := by
  rw [DateTime.ofFields, dif_pos t.date.isDate, dif_pos t.isTime]

/-- A time is read from its date, any one character, its clock and a fraction that writes its
microseconds. -/
theorem readIso_of_toList {text : String} {t : DateTime} {separator : Char} {fraction : List Char}
    (h : text.toList = t.date.chars ++ separator :: (t.clockChars ++ fraction))
    (hfraction : WritesFraction fraction t.micro) : readIso text = .ok ⟨t, none⟩ := by
  have hlong : ¬ (t.date.chars ++ separator :: (t.clockChars ++ fraction)).length < 7 := by
    rw [List.length_append, Date.length_chars]
    omega
  have hclock := readClockAndZone?_of_complete (fun c hc => ?_) (readClock?_append t hfraction) rfl
  · unfold readIso
    simp only [h, dateLength_append]
    rw [List.take_left' (Date.length_chars _), List.drop_left' (Date.length_chars _),
      readDate?_chars]
    simp only [hlong, hclock, if_false, pure_bind, ofFields_self]
    rfl
  · rcases exists_of_mem_clock hfraction hc with ⟨d, hd, rfl⟩ | rfl | rfl
    · have hdigits : ∀ d < 10, startsZone (Char.ofNat (0x30 + d)) = false := by decide
      exact hdigits d hd
    · rfl
    · rfl

/-! ## Forms -/

namespace DateTime

/-- The time cut to whole milliseconds. -/
def inMillis (t : DateTime) : DateTime where
  date := t.date
  hour := t.hour
  minute := t.minute
  second := t.second
  micro := t.micro / 1000 * 1000
  isTime := by
    have := t.isTime
    omega

theorem inMillis_of_dvd {t : DateTime} (h : 1000 ∣ t.micro) : t.inMillis = t := by
  refine DateTime.ext rfl rfl rfl rfl ?_
  exact Nat.div_mul_cancel h

theorem toList_iso (t : DateTime) :
    t.iso.toList = t.date.chars ++ 'T' :: (t.clockChars ++ t.fractionWritten.toList) := by
  simp [iso, written, String.toList_append, Date.toList_written, toList_clockWritten]

theorem toList_isoMillis (t : DateTime) :
    t.isoMillis.toList = t.date.chars ++ 'T' :: (t.clockChars ++ t.millisWritten.toList) := by
  simp [isoMillis, String.toList_append, Date.toList_written, toList_clockWritten]

theorem writesFraction_fractionWritten (t : DateTime) :
    WritesFraction t.fractionWritten.toList t.micro := by
  obtain ⟨-, -, -, hmicro⟩ := t.isTime
  unfold fractionWritten
  split
  · rename_i hzero
    exact .inl ⟨rfl, hzero⟩
  · exact .inr ⟨6, t.micro, by decide, by decide, hmicro,
      by simp [Text.padded, String.toList_append], (Nat.mul_one _).symm⟩

theorem writesFraction_millisWritten (t : DateTime) :
    WritesFraction t.millisWritten.toList t.inMillis.micro := by
  obtain ⟨-, -, -, hmicro⟩ := t.isTime
  exact .inr ⟨3, t.micro / 1000, by decide, by decide, by omega,
    by simp [millisWritten, Text.padded, String.toList_append], rfl⟩

end DateTime

/-! ## Bounds -/

theorem dropZulu_of_not_mem {text : String} (h : 'Z' ∉ text.toList) : dropZulu text = text := by
  rw [dropZulu, if_neg]
  exact fun hlast => h (List.mem_of_getLast? hlast)

theorem dropZulu_append (text : String) : dropZulu (text ++ "Z") = text := by
  have htoList : (text ++ "Z").toList = text.toList ++ ['Z'] := String.toList_append
  rw [dropZulu, htoList, List.getLast?_concat, if_pos rfl, List.dropLast_concat,
    String.ofList_toList]

/-- What a bound comes to that has no white space in it. -/
theorem readBound_of_forall {text : String} (hne : text ≠ "")
    (hplain : ∀ c ∈ text.toList, Text.isBlank c = false) :
    readBound (some text) = (readIso (dropZulu text)).map fun read => some read.wall := by
  unfold readBound
  split
  · contradiction
  · rename_i heq
    exact absurd (Option.some.inj heq) hne
  · rename_i other _ heq
    cases heq
    rw [Text.trim_of_forall hplain]
    cases readIso (dropZulu text) <;> rfl

/-- Digits and the marks of dates and clocks are no white space, and none of them is a `Z`. -/
theorem isPlain_of_digit_or_mark {c : Char}
    (h : (∃ d < 10, c = Char.ofNat (0x30 + d)) ∨ c ∈ ['-', ':', '.', 'T']) :
    Text.isBlank c = false ∧ c ≠ 'Z' := by
  rcases h with ⟨d, hd, rfl⟩ | hmark
  · have hdigits : ∀ d < 10, Text.isBlank (Char.ofNat (0x30 + d)) = false := by decide
    exact ⟨hdigits d hd, Text.ofNat_ne hd (by decide)⟩
  · have hmarks : ['-', ':', '.', 'T'].all (fun c => !Text.isBlank c && c != 'Z') = true := by
      decide
    simpa using List.all_eq_true.mp hmarks c hmark

/-- All characters of a date and a clock, with the year in any number of digits. -/
theorem isPlain_of_mem (width year : Nat) {t : DateTime} {fraction : List Char} {micro : Nat}
    (h : WritesFraction fraction micro) :
    ∀ c ∈ paddedDigits width year ++ t.date.charsBehindYear ++ 'T' :: (t.clockChars ++ fraction),
      Text.isBlank c = false ∧ c ≠ 'Z' := by
  intro c hc
  apply isPlain_of_digit_or_mark
  rcases List.mem_append.mp hc with hdate | htime
  · simp only [Date.charsBehindYear, List.mem_append, List.mem_cons] at hdate
    rcases hdate with hdate | rfl | hdate | rfl | hdate
    · exact .inl (exists_of_mem_paddedDigits hdate)
    · exact .inr (by decide)
    · exact .inl (exists_of_mem_paddedDigits hdate)
    · exact .inr (by decide)
    · exact .inl (exists_of_mem_paddedDigits hdate)
  · rcases List.mem_cons.mp htime with rfl | hclock
    · exact .inr (by decide)
    · rcases exists_of_mem_clock h hclock with hdigit | rfl | rfl
      · exact .inl hdigit
      · exact .inr (by decide)
      · exact .inr (by decide)

/-- What a bound with a `Z` behind it comes to. -/
theorem readBound_append_zulu {text : String} (hplain : ∀ c ∈ text.toList, Text.isBlank c = false) :
    readBound (some (text ++ "Z")) = (readIso text).map fun read => some read.wall := by
  rw [readBound_of_forall (by simp) fun c hc => ?_, dropZulu_append]
  rw [String.toList_append, List.mem_append] at hc
  rcases hc with hc | hc
  · exact hplain c hc
  · rw [List.mem_singleton.mp hc]
    rfl

/-- A time that is written in full is read as a bound, with a `Z` behind it or without. -/
theorem readBound_of_toList {text : String} {t : DateTime} {fraction : List Char}
    (h : text.toList = t.date.chars ++ 'T' :: (t.clockChars ++ fraction))
    (hfraction : WritesFraction fraction t.micro) :
    readBound (some text) = .ok (some t) ∧ readBound (some (text ++ "Z")) = .ok (some t) := by
  have hplain := isPlain_of_mem 4 t.date.year (t := t) hfraction
  rw [← Date.chars, ← h] at hplain
  have hread := readIso_of_toList h hfraction
  constructor
  · have hne : text ≠ "" := by
      rintro rfl
      cases h
    rw [readBound_of_forall hne fun c hc => (hplain c hc).1,
      dropZulu_of_not_mem fun hc => (hplain 'Z' hc).2 rfl, hread]
    rfl
  · rw [readBound_append_zulu fun c hc => (hplain c hc).1, hread]
    rfl

/-- **The full form of a time** is read back as the time. -/
theorem readBound_iso (t : DateTime) : readBound (some t.iso) = .ok (some t) :=
  (readBound_of_toList t.toList_iso t.writesFraction_fractionWritten).1

/-- **The form in milliseconds** is read back as the time cut to them. -/
theorem readBound_isoMillis (t : DateTime) : readBound (some t.isoMillis) = .ok (some t.inMillis) :=
  (readBound_of_toList (t := t.inMillis) t.toList_isoMillis t.writesFraction_millisWritten).1

/-! ## The form for log servers -/

theorem Date.toList_writtenShort (d : Date) :
    d.writtenShort.toList = Nat.toDigits 10 d.year ++ d.charsBehindYear := by
  simp [Date.writtenShort, Date.charsBehindYear, Text.padded, String.toList_append]

/-- A year of four digits needs no zeros in front of it. -/
theorem shortMillis_eq_isoMillis {t : DateTime} (h : 1000 ≤ t.date.year) :
    t.shortMillis "T" = t.isoMillis := by
  obtain ⟨⟨-, hyear⟩, -⟩ := t.date.isDate
  have hdate : t.date.writtenShort = t.date.written := by
    rw [← String.toList_inj, Date.toList_writtenShort, Date.toList_written, Date.chars,
      Text.toDigits_eq_paddedDigits 3 h (by omega)]
  rw [DateTime.shortMillis, DateTime.isoMillis, hdate]

/-- A time of a year with four digits is read back from its form for log servers. -/
theorem readBound_forServer {t : DateTime} (h : 1000 ≤ t.date.year) :
    readBound (some (t.shortMillis "T" ++ "Z")) = .ok (some t.inMillis) := by
  rw [shortMillis_eq_isoMillis h]
  exact (readBound_of_toList (t := t.inMillis) t.toList_isoMillis t.writesFraction_millisWritten).2

/-- A year of fewer digits is written with just these. -/
theorem exists_toDigits_eq {n : Nat} (hlow : 1 ≤ n) (hhigh : n < 1000) :
    ∃ width ≤ 3, Nat.toDigits 10 n = paddedDigits width n := by
  by_cases hone : n < 10
  · exact ⟨1, by decide, Text.toDigits_eq_paddedDigits 0 hlow hone⟩
  · by_cases htwo : n < 100
    · exact ⟨2, by decide, Text.toDigits_eq_paddedDigits 1 (Nat.le_of_not_lt hone) htwo⟩
    · exact ⟨3, by decide,
        Text.toDigits_eq_paddedDigits 2 (Nat.le_of_not_lt htwo) hhigh⟩

theorem four_le_dateLength (cs : List Char) : 4 ≤ dateLength cs := by
  unfold dateLength
  dsimp only
  repeat' split
  all_goals omega

/-- Where one of the first four characters is no digit there is no time. -/
theorem readIso_of_mem_take {text : String} {c : Char} (hc : c ∈ text.toList.take 4)
    (h : Text.asciiDigit? c = none) : readIso text = .error (.malformed text) := by
  have hdate : readDate? (text.toList.take (dateLength text.toList)) = none := by
    have hyear : readDigits 4 0 (text.toList.take (dateLength text.toList)) = none := by
      refine readDigits_eq_none (c := c) ?_ h
      rwa [List.take_take, Nat.min_eq_left (four_le_dateLength _)]
    unfold readDate?
    rw [hyear]
    rfl
  unfold readIso
  dsimp only
  rw [hdate]
  split <;> rfl

theorem DateTime.toList_shortMillis (t : DateTime) :
    (t.shortMillis "T").toList = Nat.toDigits 10 t.date.year ++ t.date.charsBehindYear
      ++ 'T' :: (t.clockChars ++ t.millisWritten.toList) := by
  simp [shortMillis, String.toList_append, Date.toList_writtenShort, toList_clockWritten]

/-- A time of a year with fewer digits is not read back. -/
theorem readBound_forServer_of_short {t : DateTime} (h : t.date.year < 1000) :
    readBound (some (t.shortMillis "T" ++ "Z")) = .error (.malformed (t.shortMillis "T")) := by
  obtain ⟨⟨hyear, -⟩, -⟩ := t.date.isDate
  obtain ⟨width, hwidth, hdigits⟩ := exists_toDigits_eq hyear h
  have htoList := t.toList_shortMillis
  rw [hdigits] at htoList
  have hplain := isPlain_of_mem width t.date.year (t := t) t.writesFraction_millisWritten
  rw [← htoList] at hplain
  -- the hyphen behind the year comes too early
  have hhyphen : '-' ∈ (t.shortMillis "T").toList.take 4 := by
    rw [htoList, List.append_assoc, List.take_append, length_paddedDigits]
    refine List.mem_append_right _ ?_
    obtain ⟨k, hk⟩ : ∃ k, 4 - width = k + 1 := ⟨3 - width, by omega⟩
    rw [hk, Date.charsBehindYear, List.cons_append, List.take_succ_cons]
    exact List.mem_cons_self
  rw [readBound_append_zulu fun c hc => (hplain c hc).1, readIso_of_mem_take hhyphen (by decide)]
  rfl

end Calendar

end LogSearch
