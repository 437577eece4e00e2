/-
What the readers of timestamps read.

Each reader is matched with the piece that it takes, in both directions: it takes every piece
of its kind off the front, whatever follows (`takeDigits_append` and its like), and what it
takes is such a piece (`exists_of_takeDigits` and its like). Put together this says that the
loose shape is read exactly where a spelling with a year stands (`loose?_eq_some_iff`), the
glog shape where one without stands (`glog?_eq_some_iff`), and that the search for the loose
shape finds the first of them (`findLoose?_eq_some_iff`).

A spelling ends with a digit. So a character behind the line that is none, like a carriage
return, makes no difference (`date?_concat`).
-/
import LogSearch.Timestamp.Spelling

set_option autoImplicit false

namespace LogSearch

theorem eq_ok_of_toOption_eq_some {ε α : Type} {x : Except ε α} {a : α}
    (h : x.toOption = some a) : x = .ok a := by
  cases x with
  | error e => cases h
  | ok b => exact congrArg Except.ok (Option.some.inj h)

namespace Text

/-- No digit is white space: none of the rows of digits has a blank in it. -/
theorem isBlank_of_isDigit {c : Char} (h : isDigit c = true) : isBlank c = false := by
  have hrow : ∀ z ∈ 0x30 :: digitZeros, ∀ k < 10, isBlank (Char.ofNat (z + k)) = false := by
    decide +kernel
  have hvalue : ∃ z ∈ 0x30 :: digitZeros, ∃ k < 10, c.toNat = z + k := by
    unfold isDigit digitValue? asciiDigit? at h
    by_cases hascii : '0' ≤ c ∧ c ≤ '9'
    · have hlow : 0x30 ≤ c.toNat := hascii.1
      have hhigh : c.toNat ≤ 0x39 := hascii.2
      exact ⟨0x30, List.mem_cons_self, c.toNat - 0x30, by omega, by omega⟩
    · rw [if_neg hascii, Option.none_or, otherDigit?, Option.isSome_map] at h
      obtain ⟨z, hz⟩ := Option.isSome_iff_exists.mp h
      have hbounds := List.find?_some hz
      rw [Bool.and_eq_true, decide_eq_true_eq, decide_eq_true_eq] at hbounds
      exact ⟨z, List.mem_cons_of_mem _ (List.mem_of_find?_eq_some hz), c.toNat - z, by omega,
        by omega⟩
  obtain ⟨z, hz, k, hk, hcode⟩ := hvalue
  rw [← Char.ofNat_toNat c, hcode]
  exact hrow z hz k hk

end Text

namespace Timestamp

open Calendar (DateTime)

/-! ## Pieces -/

variable {rest : List Char}

theorem takeDigits_append {width : Nat} (d : Digits width) (rest : List Char) :
    takeDigits width (d.chars ++ rest) = some (d.value, rest) := by
  have htake : (d.chars ++ rest).take width = d.chars := List.take_left' d.length_eq
  have hdrop : (d.chars ++ rest).drop width = rest := List.drop_left' d.length_eq
  have hall : d.chars.all Text.isDigit = true := List.all_eq_true.mpr d.areDigits
  unfold takeDigits
  simp only [htake, hdrop]
  rw [if_pos ⟨d.length_eq, hall⟩, Digits.value]

theorem exists_of_takeDigits {width n : Nat} {cs : List Char}
    (h : takeDigits width cs = some (n, rest)) :
    ∃ d : Digits width, n = d.value ∧ cs = d.chars ++ rest := by
  unfold takeDigits at h
  dsimp only at h
  split at h
  · rename_i hdigits
    cases h
    exact ⟨⟨cs.take width, hdigits.1, List.all_eq_true.mp hdigits.2⟩, rfl,
      (List.take_append_drop width cs).symm⟩
  · cases h

theorem takeChar_cons {p : Char → Bool} {c : Char} (h : p c = true) :
    takeChar p (c :: rest) = some rest := by
  rw [takeChar, if_pos h]

theorem exists_of_takeChar {p : Char → Bool} {cs : List Char} (h : takeChar p cs = some rest) :
    ∃ c, p c = true ∧ cs = c :: rest := by
  cases cs with
  | nil => cases h
  | cons c cs =>
    rw [takeChar] at h
    split at h
    · rename_i hc
      cases h
      exact ⟨c, hc, rfl⟩
    · cases h

theorem Digits.exists_cons {width : Nat} (d : Digits (width + 1)) :
    ∃ c cs, d.chars = c :: cs ∧ Text.isDigit c = true := by
  have hne : d.chars ≠ [] := List.ne_nil_of_length_eq_add_one d.length_eq
  obtain ⟨c, cs, hcons⟩ := List.exists_cons_of_ne_nil hne
  exact ⟨c, cs, hcons, d.areDigits c (by rw [hcons]; exact List.mem_cons_self)⟩

/-- White space is taken up to the number behind it. -/
theorem takeBlanks_append {width : Nat} (g : Gap) (d : Digits (width + 1)) (rest : List Char) :
    takeBlanks (g.chars ++ (d.chars ++ rest)) = some (d.chars ++ rest) := by
  obtain ⟨first, others, hcons⟩ := List.exists_cons_of_ne_nil g.ne_nil
  obtain ⟨c, cs, hdigits, hc⟩ := d.exists_cons
  have hblank := g.areBlank
  rw [hcons] at hblank
  obtain ⟨hfirst, hothers⟩ := List.forall_mem_cons.mp hblank
  rw [hcons, List.cons_append, takeBlanks, if_pos hfirst, List.dropWhile_append_of_pos hothers,
    hdigits, List.cons_append,
    List.dropWhile_cons_of_neg (by rw [Text.isBlank_of_isDigit hc]; decide)]

theorem exists_of_takeBlanks {cs : List Char} (h : takeBlanks cs = some rest) :
    ∃ g : Gap, cs = g.chars ++ rest := by
  cases cs with
  | nil => cases h
  | cons c cs =>
    rw [takeBlanks] at h
    split at h
    · rename_i hc
      cases h
      refine ⟨⟨c :: cs.takeWhile Text.isBlank, List.cons_ne_nil _ _, ?_⟩, ?_⟩
      · intro d hd
        rcases List.mem_cons.mp hd with rfl | hd
        · exact hc
        · exact List.all_eq_true.mp List.all_takeWhile d hd
      · rw [List.cons_append, List.takeWhile_append_dropWhile]
    · cases h

theorem takeClock_append (hour minute second : Digits 2) (rest : List Char) :
    takeClock (hour.chars ++ ':' :: (minute.chars ++ ':' :: (second.chars ++ rest)))
      = some (⟨hour.value, minute.value, second.value, 0⟩, rest) := by
  unfold takeClock
  simp [takeDigits_append, takeChar_cons]

theorem exists_of_takeClock {cs : List Char} {clock : Clock} (h : takeClock cs = some (clock, rest)) :
    ∃ hour minute second : Digits 2, clock = ⟨hour.value, minute.value, second.value, 0⟩
      ∧ cs = hour.chars ++ ':' :: (minute.chars ++ ':' :: (second.chars ++ rest)) := by
  unfold takeClock at h
  simp only [Option.bind_eq_bind, Option.bind_eq_some_iff] at h
  obtain ⟨a, ha, cs₁, hfirst, b, hb, cs₂, hsecond, c, hc, hend⟩ := h
  obtain ⟨hour, hhour, rfl⟩ := exists_of_takeDigits ha
  obtain ⟨colon, hcolon, hcs₁⟩ := exists_of_takeChar hfirst
  obtain ⟨minute, hminute, rfl⟩ := exists_of_takeDigits hb
  obtain ⟨colon', hcolon', hcs₂⟩ := exists_of_takeChar hsecond
  obtain ⟨second, hlast, rfl⟩ := exists_of_takeDigits hc
  cases hend
  refine ⟨hour, minute, second, by rw [hhour, hminute, hlast], ?_⟩
  rw [hcs₁, hcs₂, of_decide_eq_true hcolon, of_decide_eq_true hcolon']

/-! ## Fractions -/

/-- No digits are taken where none is next. -/
theorem takeWhile_eq_nil (h : ∀ d ∈ rest.head?, Text.isDigit d = false) :
    rest.takeWhile Text.isDigit = [] := by
  cases rest with
  | nil => rfl
  | cons d more => exact List.takeWhile_cons_of_neg (by rw [h d rfl]; decide)

theorem fractionDigits_append (s : Spelling) (h : s.EndsBefore rest) :
    fractionDigits (s.fractionChars ++ rest) = s.fraction := by
  unfold Spelling.EndsBefore at h
  unfold Spelling.fractionChars
  by_cases hnone : s.fraction = []
  · rw [if_pos hnone] at h ⊢
    rw [hnone, List.nil_append]
    unfold fractionDigits
    split
    · exact takeWhile_eq_nil (h _ rfl)
    · rfl
  · rw [if_neg hnone] at h ⊢
    rw [List.cons_append, fractionDigits, List.takeWhile_append_of_pos s.areDigits,
      takeWhile_eq_nil h, List.append_nil]

theorem areDigits_fractionDigits (cs : List Char) :
    ∀ c ∈ fractionDigits cs, Text.isDigit c = true := by
  unfold fractionDigits
  split
  · exact List.all_eq_true.mp List.all_takeWhile
  · exact fun c hc => absurd hc List.not_mem_nil

/-- A fraction that is as long as it can be is followed by no more digits. -/
theorem exists_of_fractionDigits (s : Spelling) (h : s.fraction = fractionDigits rest) :
    ∃ behind, rest = s.fractionChars ++ behind ∧ s.EndsBefore behind := by
  -- What is left where the digits end does not go on with one.
  have hends (cs : List Char) (d : Char) (hd : d ∈ (cs.dropWhile Text.isDigit).head?) :
      Text.isDigit d = false := by
    have hhead := List.head?_dropWhile_not Text.isDigit cs
    rw [hd] at hhead
    simpa using hhead
  unfold Spelling.EndsBefore Spelling.fractionChars
  by_cases hnone : s.fraction = []
  · simp only [if_pos hnone]
    refine ⟨rest, rfl, ?_⟩
    rintro more rfl d hd
    rw [hnone, fractionDigits] at h
    refine hends more d ?_
    rw [← List.takeWhile_append_dropWhile (p := Text.isDigit) (l := more), ← h] at hd
    exact hd
  · simp only [if_neg hnone]
    rw [h] at hnone ⊢
    unfold fractionDigits at hnone ⊢
    split at hnone
    · rename_i cs
      refine ⟨cs.dropWhile Text.isDigit, ?_, hends cs⟩
      rw [List.cons_append, List.takeWhile_append_dropWhile]
    · exact absurd rfl hnone

/-- Cutting digits off and filling up with zeros are one rule. -/
theorem millisOf_eq (digits : List Char) :
    millisOf digits = Text.digitsToNat ((digits ++ ['0', '0', '0']).take 3) := by
  have hzero : Text.digitValue? '0' = some 0 := by decide
  match digits with
  | [] => simp [millisOf, Text.digitsToNat, hzero]
  | [a] => simp [millisOf, Text.digitsToNat, hzero]; omega
  | [a, b] => simp [millisOf, Text.digitsToNat, hzero]; omega
  | a :: b :: c :: more => simp [millisOf, Text.digitsToNat]

/-! ## Shapes -/

variable {cs : List Char} {f : Fields}

theorem loose?_append (s : Spelling) (hyear : s.hasYear = true) (h : s.EndsBefore rest) :
    loose? (s.chars ++ rest) = some s.fields := by
  have hfraction := fractionDigits_append s h
  obtain ⟨date, gap, hour, minute, second, fraction, areDigits, isLong⟩ := s
  cases date with
  | glog level month day isLevel => cases hyear
  | full year first month second' day areSeparators =>
    obtain ⟨hfirst, hsecond⟩ := areSeparators
    -- Every reader takes its piece, so the whole is read piece by piece.
    unfold loose? takeDateAndClock
    simp only [Spelling.chars, DateSpelling.chars, List.append_assoc, List.cons_append,
      takeDigits_append, takeChar_cons hfirst, takeChar_cons hsecond, takeBlanks_append,
      takeClock_append, hfraction, Option.bind_eq_bind, Option.bind_some, Option.pure_def]
    rw [Fields.withFraction, millisOf_eq]
    rfl

theorem glog?_append (s : Spelling) (hyear : s.hasYear = false) (h : s.EndsBefore rest) :
    glog? (s.chars ++ rest) = some s.fields := by
  have hfraction := fractionDigits_append s h
  obtain ⟨date, gap, hour, minute, second, fraction, areDigits, isLong⟩ := s
  cases date with
  | full year first month second' day areSeparators => cases hyear
  | glog level month day hlevel =>
    have hlong : 3 ≤ fraction.length := isLong rfl
    -- The reader spells out the letters of the levels.
    show (takeChar isLevel _).bind _ = _
    simp only [Spelling.chars, DateSpelling.chars, List.append_assoc, List.cons_append,
      takeDigits_append, takeChar_cons hlevel, takeBlanks_append,
      takeClock_append, hfraction, Option.bind_eq_bind, Option.bind_some, Option.pure_def]
    rw [if_pos hlong, Fields.withFraction, millisOf_eq]
    rfl

/-- A date, white space and a clock are a timestamp together with the digits of the fraction
behind them. -/
theorem exists_spelling (date : DateSpelling) (gap : Gap) (hour minute second : Digits 2)
    (rest : List Char) (hlong : date.year? = none → 3 ≤ (fractionDigits rest).length) :
    ∃ s : Spelling, s.date = date
      ∧ s.Opens (date.chars ++ (gap.chars ++ (hour.chars ++ ':' :: (minute.chars
        ++ ':' :: (second.chars ++ rest)))))
      ∧ s.fields = Fields.withFraction ⟨date.year?, date.month, date.day,
        ⟨hour.value, minute.value, second.value, 0⟩⟩ (fractionDigits rest) := by
  let s : Spelling := {
    date, gap, hour, minute, second
    fraction := fractionDigits rest
    areDigits := areDigits_fractionDigits rest
    isLong := hlong }
  obtain ⟨behind, hbehind, hends⟩ := exists_of_fractionDigits s rfl
  refine ⟨s, rfl, ⟨behind, ?_, hends⟩, ?_⟩
  · rw [hbehind]
    simp only [Spelling.chars, List.append_assoc, List.cons_append, s]
  · rw [Fields.withFraction, millisOf_eq]
    rfl

/-- Whatever separators are asked for, what is read is a timestamp with its year. -/
theorem exists_of_takeDateAndClock {separator : Char → Bool}
    (hseparator : ∀ c, separator c = true → isDateSeparator c = true)
    (h : takeDateAndClock separator cs = some (f, rest)) :
    ∃ s : Spelling, s.hasYear = true ∧ s.Opens cs
      ∧ f.withFraction (fractionDigits rest) = s.fields := by
  unfold takeDateAndClock at h
  simp only [Option.bind_eq_bind, Option.bind_eq_some_iff] at h
  obtain ⟨y, hy, cs₁, hcs₁, m, hm, cs₂, hcs₂, d, hd, cs₃, hcs₃, c, hc, hend⟩ := h
  obtain ⟨year, hyear, rfl⟩ := exists_of_takeDigits hy
  obtain ⟨first, hfirst, hafterYear⟩ := exists_of_takeChar hcs₁
  obtain ⟨month, hmonth, rfl⟩ := exists_of_takeDigits hm
  obtain ⟨second', hsecond, hafterMonth⟩ := exists_of_takeChar hcs₂
  obtain ⟨day, hday, rfl⟩ := exists_of_takeDigits hd
  obtain ⟨gap, hafterDay⟩ := exists_of_takeBlanks hcs₃
  obtain ⟨hour, minute, second, hclock, rfl⟩ := exists_of_takeClock hc
  cases hend
  let date : DateSpelling := .full year first month second' day
    ⟨hseparator first hfirst, hseparator second' hsecond⟩
  obtain ⟨s, hdate, hopens, hfields⟩ := exists_spelling date gap hour minute second c.2 nofun
  refine ⟨s, by rw [Spelling.hasYear, hdate]; rfl, ?_, ?_⟩
  · rw [hafterYear, hafterMonth, hafterDay]
    simpa only [date, DateSpelling.chars, List.append_assoc, List.cons_append] using hopens
  · rw [hfields, hyear, hmonth, hday, hclock]
    rfl

/-- The loose shape is read exactly where a timestamp with its year stands. -/
theorem loose?_eq_some_iff :
    loose? cs = some f ↔ ∃ s : Spelling, s.hasYear = true ∧ s.Opens cs ∧ f = s.fields := by
  constructor
  · intro h
    unfold loose? at h
    simp only [Option.bind_eq_bind, Option.bind_eq_some_iff] at h
    obtain ⟨read, hread, hend⟩ := h
    cases hend
    obtain ⟨s, hyear, hopens, hfields⟩ := exists_of_takeDateAndClock (fun _ hc => hc) hread
    exact ⟨s, hyear, hopens, hfields⟩
  · rintro ⟨s, hyear, ⟨rest, rfl, hends⟩, rfl⟩
    exact loose?_append s hyear hends

/-- The strict shape is a case of the loose one. -/
theorem loose?_of_strict? (h : strict? cs = some f) : loose? cs = some f := by
  unfold strict? at h
  simp only [Option.bind_eq_bind, Option.bind_eq_some_iff] at h
  obtain ⟨read, hread, hend⟩ := h
  split at hend
  · cases hend
    have hseparator : ∀ c, decide (c = '-') = true → isDateSeparator c = true := by
      intro c hc
      rw [of_decide_eq_true hc]
      decide
    obtain ⟨s, hyear, hopens, hfields⟩ := exists_of_takeDateAndClock hseparator hread
    exact loose?_eq_some_iff.mpr ⟨s, hyear, hopens, hfields⟩
  · cases hend

/-- The glog shape is read exactly where a timestamp without a year stands. -/
theorem glog?_eq_some_iff :
    glog? cs = some f ↔ ∃ s : Spelling, s.hasYear = false ∧ s.Opens cs ∧ f = s.fields := by
  constructor
  · intro h
    unfold glog? at h
    simp only [Option.bind_eq_bind, Option.bind_eq_some_iff] at h
    obtain ⟨cs₁, hcs₁, m, hm, d, hd, cs₂, hcs₂, c, hc, hend⟩ := h
    obtain ⟨level, hlevel, rfl⟩ := exists_of_takeChar hcs₁
    obtain ⟨month, hmonth, rfl⟩ := exists_of_takeDigits hm
    obtain ⟨day, hday, hafterMonth⟩ := exists_of_takeDigits hd
    obtain ⟨gap, hafterDay⟩ := exists_of_takeBlanks hcs₂
    obtain ⟨hour, minute, second, hclock, rfl⟩ := exists_of_takeClock hc
    split at hend
    · rename_i hlong
      cases hend
      obtain ⟨s, hdate, hopens, hfields⟩ :=
        exists_spelling (.glog level month day hlevel) gap hour minute second c.2 fun _ => hlong
      refine ⟨s, by rw [Spelling.hasYear, hdate]; rfl, ?_, ?_⟩
      · rw [hafterMonth, hafterDay]
        simpa only [DateSpelling.chars, List.append_assoc, List.cons_append] using hopens
      · rw [hfields, hmonth, hday, hclock]
        rfl
    · cases hend
  · rintro ⟨s, hyear, ⟨rest, rfl, hends⟩, rfl⟩
    exact glog?_append s hyear hends

/-- The level is a letter, so no characters open with both shapes. -/
theorem glog?_of_loose? (h : loose? cs = some f) : glog? cs = none := by
  unfold loose? takeDateAndClock at h
  simp only [Option.bind_eq_bind, Option.bind_eq_some_iff] at h
  obtain ⟨_, ⟨_, hread, _⟩, _⟩ := h
  obtain ⟨year, -, rfl⟩ := exists_of_takeDigits hread
  obtain ⟨c, others, hcons, hc⟩ := year.exists_cons
  have hletters : ['I', 'W', 'E', 'F'].any Text.isDigit = false := by decide +kernel
  have hlevel : isLevel c = false := by
    refine Bool.eq_false_iff.mpr fun hlevel => ?_
    have hmem : c ∈ ['I', 'W', 'E', 'F'] := by
      unfold isLevel at hlevel
      simpa [or_assoc] using hlevel
    exact List.any_eq_false.mp hletters c hmem hc
  rw [hcons]
  show (takeChar isLevel (c :: _)).bind _ = none
  rw [takeChar, hlevel]
  rfl

/-! ## The first place of the loose shape -/

theorem findLoose?_of_loose? (h : loose? cs = some f) : findLoose? cs = some f := by
  unfold findLoose?
  rw [h]

theorem findLoose?_cons {c : Char} (h : loose? (c :: cs) = none) :
    findLoose? (c :: cs) = findLoose? cs := by
  rw [findLoose?, h]

/-- A timestamp with its year that opens the characters is the first one in them. -/
theorem Spelling.isFirstIn_of_opens {s : Spelling} (hyear : s.hasYear = true) (h : s.Opens cs) :
    s.IsFirstIn cs :=
  ⟨hyear, [], cs, rfl, h, fun _ _ _ hlength => absurd hlength (Nat.not_lt_zero _)⟩

/-- Where no timestamp with its year opens the characters, the first place is behind the first
of them. -/
theorem Spelling.isFirstIn_cons_iff {s : Spelling} {c : Char}
    (hnone : ∀ t : Spelling, t.hasYear = true → ¬ t.Opens (c :: cs)) :
    s.IsFirstIn (c :: cs) ↔ s.IsFirstIn cs := by
  constructor
  · rintro ⟨hyear, before, after, hsplit, hopens, hfirst⟩
    cases before with
    | nil =>
      rw [List.nil_append] at hsplit
      exact absurd (hsplit ▸ hopens) (hnone s hyear)
    | cons d before =>
      rw [List.cons_append, List.cons.injEq] at hsplit
      refine ⟨hyear, before, after, hsplit.2, hopens, fun earlier later hcut hlength => ?_⟩
      refine hfirst (c :: earlier) later (by rw [List.cons_append, hcut]) ?_
      simpa using hlength
  · rintro ⟨hyear, before, after, rfl, hopens, hfirst⟩
    refine ⟨hyear, c :: before, after, rfl, hopens, fun earlier later hcut hlength => ?_⟩
    cases earlier with
    | nil =>
      rw [List.nil_append] at hcut
      exact hcut ▸ hnone
    | cons d earlier =>
      rw [List.cons_append, List.cons.injEq] at hcut
      exact hfirst earlier later hcut.2 (by simpa using hlength)

/-- The search for the loose shape finds the first timestamp with its year. -/
theorem findLoose?_eq_some_iff :
    findLoose? cs = some f ↔ ∃ s : Spelling, s.IsFirstIn cs ∧ f = s.fields := by
  -- Either a timestamp opens the characters, and then it is the first, or the first one is that
  -- of the tail.
  induction cs with
  | nil =>
    constructor
    · intro h
      cases h
    · rintro ⟨s, ⟨hyear, before, after, hsplit, hopens, -⟩, -⟩
      obtain ⟨-, rfl⟩ := List.append_eq_nil_iff.mp hsplit.symm
      have hread := loose?_eq_some_iff.mpr ⟨s, hyear, hopens, rfl⟩
      cases hread
  | cons c cs ih =>
    cases h : loose? (c :: cs) with
    | some read =>
      rw [findLoose?_of_loose? h]
      constructor
      · rintro ⟨⟩
        obtain ⟨s, hyear, hopens, hfields⟩ := loose?_eq_some_iff.mp h
        exact ⟨s, Spelling.isFirstIn_of_opens hyear hopens, hfields⟩
      · rintro ⟨s, ⟨hyear, before, after, hsplit, hopens, hfirst⟩, rfl⟩
        obtain ⟨t, htyear, htopens, -⟩ := loose?_eq_some_iff.mp h
        cases before with
        | nil =>
          rw [List.nil_append] at hsplit
          rw [← h, hsplit]
          exact loose?_eq_some_iff.mpr ⟨s, hyear, hopens, rfl⟩
        | cons d before =>
          exact absurd htopens (hfirst [] (c :: cs) rfl (Nat.succ_pos _) t htyear)
    | none =>
      have hnone : ∀ t : Spelling, t.hasYear = true → ¬ t.Opens (c :: cs) := by
        intro t htyear htopens
        rw [loose?_eq_some_iff.mpr ⟨t, htyear, htopens, rfl⟩] at h
        cases h
      rw [findLoose?_cons h, ih]
      simp only [Spelling.isFirstIn_cons_iff hnone]

/-! ## Times -/

/-- There is a time with some numbers exactly if they are those of a time. -/
theorem ofFields_toOption_eq_some_iff {year month day hour minute second micro : Nat}
    {t : DateTime} :
    (DateTime.ofFields year month day hour minute second micro).toOption = some t
      ↔ year = t.date.year ∧ month = t.date.month ∧ day = t.date.day ∧ hour = t.hour
        ∧ minute = t.minute ∧ second = t.second ∧ micro = t.micro := by
  constructor
  · intro h
    have hok := eq_ok_of_toOption_eq_some h
    unfold DateTime.ofFields at hok
    split at hok
    · split at hok
      · cases hok
        exact ⟨rfl, rfl, rfl, rfl, rfl, rfl, rfl⟩
      · repeat' split at hok
        all_goals cases hok
    · repeat' split at hok
      all_goals cases hok
  · rintro ⟨rfl, rfl, rfl, rfl, rfl, rfl, rfl⟩
    rw [DateTime.ofFields, dif_pos t.date.isDate, dif_pos t.isTime]
    rfl

/-- A timestamp is a time if there is one with its numbers. -/
theorem Fields.time?_eq_some_iff {year : Int} {t : DateTime} :
    f.time? year = some t ↔ f.Denotes year t := by
  have htime : f.time? year = if f.yearOr year < 0 then none
      else (DateTime.ofFields (f.yearOr year).toNat f.month f.day f.clock.hour f.clock.minute
        f.clock.second (f.clock.millis * 1000)).toOption := rfl
  rw [htime, Fields.Denotes]
  by_cases hyear : f.yearOr year < 0
  · rw [if_pos hyear]
    constructor
    · intro h
      cases h
    · rintro ⟨h, -⟩
      omega
  · rw [if_neg hyear, ofFields_toOption_eq_some_iff]
    have hnat : (f.yearOr year).toNat = t.date.year ↔ f.yearOr year = t.date.year := by omega
    rw [hnat]

/-- The strict shape adds nothing to the loose one, so a timestamp with its year is the first
one of the line. -/
theorem date?_eq (year : Int) (line : String) :
    date? year line
      = (((findLoose? line.toList).bind (·.time? year)).map (⟨·, false⟩)).or
        (((glog? line.toList).bind (·.time? year)).map (⟨·, true⟩)) := by
  have hwritten : ((strict? line.toList).bind (·.time? year)).or
      ((findLoose? line.toList).bind (·.time? year))
        = (findLoose? line.toList).bind (·.time? year) := by
    cases hstrict : strict? line.toList with
    | none => rfl
    | some f =>
      rw [findLoose?_of_loose? (loose?_of_strict? hstrict)]
      exact Option.or_self
  unfold date?
  simp only [hwritten]
  cases (findLoose? line.toList).bind (·.time? year) with
  | none => rfl
  | some time => rfl

/-! ## Behind the last digit -/

theorem Digits.exists_concat {width : Nat} (d : Digits (width + 1)) :
    ∃ cs c, d.chars = cs ++ [c] ∧ Text.isDigit c = true := by
  have hne : d.chars ≠ [] := List.ne_nil_of_length_eq_add_one d.length_eq
  refine ⟨d.chars.dropLast, d.chars.getLast hne, (List.dropLast_concat_getLast hne).symm, ?_⟩
  exact d.areDigits _ (List.getLast_mem hne)

/-- A timestamp ends with a digit, that of its second or of its fraction. -/
theorem Spelling.exists_concat (s : Spelling) :
    ∃ cs c, s.chars = cs ++ [c] ∧ Text.isDigit c = true := by
  suffices hend : ∃ cs c, s.second.chars ++ s.fractionChars = cs ++ [c] ∧ Text.isDigit c = true by
    obtain ⟨cs, c, hcs, hc⟩ := hend
    refine ⟨s.date.chars ++ (s.gap.chars ++ (s.hour.chars ++ ':' :: (s.minute.chars
      ++ ':' :: cs))), c, ?_, hc⟩
    rw [Spelling.chars, hcs]
    simp only [List.append_assoc, List.cons_append]
  unfold Spelling.fractionChars
  by_cases hnone : s.fraction = []
  · rw [if_pos hnone, List.append_nil]
    exact s.second.exists_concat
  · rw [if_neg hnone]
    refine ⟨s.second.chars ++ '.' :: s.fraction.dropLast, s.fraction.getLast hnone, ?_,
      s.areDigits _ (List.getLast_mem hnone)⟩
    rw [List.append_assoc, List.cons_append, List.dropLast_concat_getLast hnone]

section Concat

variable {c : Char}

theorem head?_concat_iff (hc : Text.isDigit c = false) :
    (∀ d ∈ (rest ++ [c]).head?, Text.isDigit d = false)
      ↔ ∀ d ∈ rest.head?, Text.isDigit d = false := by
  cases rest with
  | nil =>
    constructor
    · intro _ d hd
      cases hd
    · intro _ d hd
      cases hd
      exact hc
  | cons first others => rfl

theorem Spelling.endsBefore_concat_iff (s : Spelling) (hc : Text.isDigit c = false) :
    s.EndsBefore (rest ++ [c]) ↔ s.EndsBefore rest := by
  unfold Spelling.EndsBefore
  by_cases hnone : s.fraction = []
  · rw [if_pos hnone, if_pos hnone]
    constructor
    · rintro h more rfl
      exact (head?_concat_iff hc).mp (h (more ++ [c]) rfl)
    · intro h more hrest
      cases rest with
      | nil =>
        -- The character may be a point itself, but then nothing is behind it.
        cases hrest
        exact fun d hd => nomatch hd
      | cons first others =>
        cases hrest
        exact (head?_concat_iff hc).mpr (h others rfl)
  · rw [if_neg hnone, if_neg hnone]
    exact head?_concat_iff hc

/-- Which timestamps open some characters does not depend on a last one that is no digit. -/
theorem Spelling.opens_concat_iff (s : Spelling) (hc : Text.isDigit c = false) :
    s.Opens (cs ++ [c]) ↔ s.Opens cs := by
  constructor
  · rintro ⟨rest, hsplit, hends⟩
    -- The last character belongs to what follows the timestamp, since that ends with a digit.
    rcases List.eq_nil_or_concat rest with rfl | ⟨rest, d, rfl⟩
    · obtain ⟨front, last, hchars, hlast⟩ := s.exists_concat
      rw [List.append_nil, hchars] at hsplit
      rw [← List.singleton_inj.mp (List.append_inj_right' hsplit rfl), hc] at hlast
      cases hlast
    · rw [List.concat_eq_append, ← List.append_assoc] at hsplit
      obtain ⟨rfl, hcd⟩ := List.append_inj' hsplit rfl
      rw [List.concat_eq_append, ← hcd, s.endsBefore_concat_iff hc] at hends
      exact ⟨rest, rfl, hends⟩
  · rintro ⟨rest, rfl, hends⟩
    exact ⟨rest ++ [c], List.append_assoc .., (s.endsBefore_concat_iff hc).mpr hends⟩

theorem loose?_concat (cs : List Char) (hc : Text.isDigit c = false) :
    loose? (cs ++ [c]) = loose? cs := by
  refine Option.ext fun f => ?_
  simp only [loose?_eq_some_iff, Spelling.opens_concat_iff _ hc]

theorem glog?_concat (hc : Text.isDigit c = false) : glog? (cs ++ [c]) = glog? cs := by
  refine Option.ext fun f => ?_
  simp only [glog?_eq_some_iff, Spelling.opens_concat_iff _ hc]

theorem findLoose?_concat (hc : Text.isDigit c = false) :
    findLoose? (cs ++ [c]) = findLoose? cs := by
  induction cs with
  | nil =>
    have hnone : loose? [c] = none := loose?_concat [] hc
    rw [List.nil_append, findLoose?_cons hnone]
  | cons d cs ih =>
    have hlonger : loose? (d :: (cs ++ [c])) = loose? (d :: cs) := loose?_concat (d :: cs) hc
    rw [List.cons_append]
    cases h : loose? (d :: cs) with
    | some f => rw [findLoose?_of_loose? h, findLoose?_of_loose? (hlonger.trans h)]
    | none => rw [findLoose?_cons h, findLoose?_cons (hlonger.trans h), ih]

/-- The time of a line does not depend on a last character that is no digit. -/
theorem date?_concat (year : Int) (hc : Text.isDigit c = false) :
    date? year (String.ofList (cs ++ [c])) = date? year (String.ofList cs) := by
  simp only [date?_eq, String.toList_ofList, findLoose?_concat hc, glog?_concat hc]

end Concat

end Timestamp

end LogSearch
