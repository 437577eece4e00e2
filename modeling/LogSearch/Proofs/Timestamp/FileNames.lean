/-
Years from file names.

The year of a name is that of a date in it: of the first one that is written without separators,
and only if there is none of these, of the first one with them (`yearOfName?_eq_some_iff`). What
counts as a date here are eight digits with 20 in front. Their month and day are read over but not
looked at, so they need not be those of the calendar. A run of digits, like a count of seconds, can
so be taken for a date, and it is preferred to a real date with separators that stands beside it.

So a year that is found is one of the 21st century, but it is the year of a real date in the name
exactly if such a date shares its year with what was taken for one (`yearOfName?_isDated_iff`).

Searching is for the longest tail that a reader can read: the further to the left it begins, the
longer it is.
-/
import LogSearch.Proofs.Timestamp.Shapes
import Mathlib

set_option autoImplicit false

namespace LogSearch

theorem Text.digitValue?_getD_le (c : Char) : (digitValue? c).getD 0 ≤ 9 := by
  cases hvalue : digitValue? c with
  | none => exact Nat.zero_le 9
  | some value =>
    rcases Option.or_eq_some_iff.mp hvalue with hascii | ⟨-, hother⟩
    · unfold asciiDigit? at hascii
      split at hascii
      · rename_i hrow
        cases hascii
        have hhigh : c.toNat ≤ 0x39 := hrow.2
        show c.toNat - 0x30 ≤ 9
        omega
      · cases hascii
    · obtain ⟨first, hfirst, rfl⟩ := Option.map_eq_some_iff.mp hother
      have hrow := List.find?_some hfirst
      rw [Bool.and_eq_true, decide_eq_true_eq, decide_eq_true_eq] at hrow
      show c.toNat - first ≤ 9
      omega

namespace Timestamp

open Calendar (IsDate)

/-! ## Searching -/

section Searching

variable {reader : List Char → Option Nat} {cs : List Char} {year : Nat}

/-- The longest tail of some characters with some property. -/
def IsLongestTail (p : List Char → Prop) (cs tail : List Char) : Prop :=
  tail <:+ cs ∧ p tail ∧ ∀ other, other <:+ cs → p other → other.length ≤ tail.length

/-- A search looks at all characters first, and then at those behind the first one. -/
theorem firstYear?_eq (reader : List Char → Option Nat) (cs : List Char) :
    firstYear? reader cs
      = (reader cs).or (if cs = [] then none else firstYear? reader cs.tail) := by
  rw [firstYear?.eq_def]
  cases reader cs <;> cases cs <;> rfl

/-- All characters are the longest tail if they have the property. -/
theorem isLongestTail_self {p : List Char → Prop} (h : p cs) : IsLongestTail p cs cs :=
  ⟨List.suffix_rfl, h, fun _ hother _ => hother.length_le⟩

theorem isLongestTail_cons {p : List Char → Prop} {c : Char} {tail : List Char}
    (h : ¬ p (c :: cs)) : IsLongestTail p (c :: cs) tail ↔ IsLongestTail p cs tail := by
  have htail : ∀ t, p t → (t <:+ c :: cs ↔ t <:+ cs) := by
    intro t ht
    rw [List.suffix_cons_iff]
    exact or_iff_right fun heq => h (heq ▸ ht)
  constructor
  · rintro ⟨hsuffix, hp, hlongest⟩
    exact ⟨(htail tail hp).mp hsuffix, hp, fun t ht hpt => hlongest t ((htail t hpt).mpr ht) hpt⟩
  · rintro ⟨hsuffix, hp, hlongest⟩
    exact ⟨(htail tail hp).mpr hsuffix, hp, fun t ht hpt => hlongest t ((htail t hpt).mp ht) hpt⟩

/-- What is found is what is read of the longest tail that can be read. -/
theorem firstYear?_eq_some_iff : firstYear? reader cs = some year
    ↔ ∃ tail, IsLongestTail (fun t => reader t ≠ none) cs tail ∧ reader tail = some year := by
  induction cs with
  | nil =>
    rw [firstYear?_eq, if_pos rfl, Option.or_none]
    constructor
    · intro h
      exact ⟨[], isLongestTail_self (by rw [h]; nofun), h⟩
    · rintro ⟨tail, ⟨hsuffix, -⟩, hread⟩
      rwa [List.suffix_nil.mp hsuffix] at hread
  | cons c cs ih =>
    rw [firstYear?_eq, if_neg (List.cons_ne_nil c cs), List.tail_cons]
    cases h : reader (c :: cs) with
    | some read =>
      have hreads : reader (c :: cs) ≠ none := by rw [h]; nofun
      rw [Option.some_or]
      constructor
      · rintro ⟨⟩
        exact ⟨c :: cs, isLongestTail_self hreads, h⟩
      · rintro ⟨tail, ⟨hsuffix, -, hlongest⟩, hread⟩
        have hall : tail = c :: cs :=
          hsuffix.eq_of_length_le (hlongest _ List.suffix_rfl hreads)
        rwa [hall, h] at hread
    | none =>
      have hskip : ∀ tail, IsLongestTail (fun t => reader t ≠ none) (c :: cs) tail
          ↔ IsLongestTail (fun t => reader t ≠ none) cs tail :=
        fun tail => isLongestTail_cons (not_not_intro h)
      rw [Option.none_or, ih]
      simp only [hskip]

theorem firstYear?_eq_none_iff :
    firstYear? reader cs = none ↔ ∀ tail, tail <:+ cs → reader tail = none := by
  induction cs with
  | nil =>
    rw [firstYear?_eq, if_pos rfl, Option.or_none]
    simp only [List.suffix_nil, forall_eq]
  | cons c cs ih =>
    rw [firstYear?_eq, if_neg (List.cons_ne_nil c cs), List.tail_cons, Option.or_eq_none_iff, ih]
    simp only [List.suffix_cons_iff, forall_eq_or_imp]

end Searching

/-! ## Dates in names -/

/-- Eight digits that are written like a date, with whatever stands between its numbers. -/
structure NameDate where
  year : Digits 4
  first : List Char
  month : Digits 2
  second : List Char
  day : Digits 2

namespace NameDate

def chars (d : NameDate) : List Char :=
  d.year.chars ++ (d.first ++ (d.month.chars ++ (d.second ++ d.day.chars)))

theorem chars_append (d : NameDate) (rest : List Char) : d.chars ++ rest
    = d.year.chars ++ (d.first ++ (d.month.chars ++ (d.second ++ (d.day.chars ++ rest)))) := by
  show d.year.chars ++ (d.first ++ (d.month.chars ++ (d.second ++ d.day.chars))) ++ rest = _
  simp only [List.append_assoc]

/-- Whether the year is written with 20 in front. -/
def IsRecent (d : NameDate) : Prop :=
  d.year.chars.take 2 = ['2', '0']

def IsCompact (d : NameDate) : Prop :=
  d.first = [] ∧ d.second = []

/-- Whether the numbers are kept apart, each time by one separator. -/
def IsSeparated (d : NameDate) : Prop :=
  (∃ c, isDateSeparator c = true ∧ d.first = [c])
    ∧ ∃ c, isDateSeparator c = true ∧ d.second = [c]

/-- Whether the numbers are those of a day of the calendar. -/
def IsReal (d : NameDate) : Prop :=
  IsDate d.year.value d.month.value d.day.value

/-- Whether the date is the first of its kind in some characters. -/
def IsFirst (kind : NameDate → Prop) (d : NameDate) (cs : List Char) : Prop :=
  kind d ∧ ∃ tail, d.chars <+: tail
    ∧ IsLongestTail (fun t => ∃ e, kind e ∧ e.chars <+: t) cs tail

/-- Whether the year of a name is that of this date: the first without separators, or, where there
is none, the first with separators. -/
def Decides (d : NameDate) (name : String) : Prop :=
  d.IsFirst (fun e => e.IsRecent ∧ e.IsCompact) name.toList
    ∨ (∀ e : NameDate, e.IsRecent → e.IsCompact → ¬ e.chars <:+: name.toList)
      ∧ d.IsFirst (fun e => e.IsRecent ∧ e.IsSeparated) name.toList

end NameDate

/-- Whether a real date of some year stands in a name. -/
def IsDatedIn (year : Nat) (name : String) : Prop :=
  ∃ d : NameDate, (d.IsCompact ∨ d.IsSeparated) ∧ d.IsReal ∧ d.year.value = year
    ∧ d.chars <:+: name.toList

/-! ## Places -/

theorem take_drop_of_eq {α : Type} {cs piece : List α} {n width : Nat} (front back : List α)
    (h : cs = front ++ (piece ++ back)) (hfront : front.length = n) (hpiece : piece.length = width) :
    (cs.drop n).take width = piece := by
  rw [h, List.drop_left' hfront, List.take_left' hpiece]

/-- Where the numbers of a date stand that is somewhere in a name. -/
theorem NameDate.exists_place {d : NameDate} {cs : List Char} (hkind : d.IsCompact ∨ d.IsSeparated)
    (h : d.chars <:+: cs) : ∃ n ≤ cs.length, ∃ gap < 2,
      Text.digitsToNat ((cs.drop n).take 4) = d.year.value
        ∧ Text.digitsToNat ((cs.drop (n + (4 + gap))).take 2) = d.month.value
        ∧ Text.digitsToNat ((cs.drop (n + (4 + gap) + (2 + gap))).take 2) = d.day.value := by
  obtain ⟨before, after, hcs⟩ := h
  rw [List.append_assoc, d.chars_append] at hcs
  obtain ⟨gap, hgap, hfirst, hsecond⟩ : ∃ gap < 2, d.first.length = gap ∧ d.second.length = gap := by
    rcases hkind with ⟨hfirst, hsecond⟩ | ⟨⟨a, -, hfirst⟩, ⟨b, -, hsecond⟩⟩
    · exact ⟨0, by decide, by rw [hfirst]; rfl, by rw [hsecond]; rfl⟩
    · exact ⟨1, by decide, by rw [hfirst]; rfl, by rw [hsecond]; rfl⟩
  have hlength := congrArg List.length hcs
  rw [List.length_append] at hlength
  refine ⟨before.length, by omega, gap, hgap, congrArg Text.digitsToNat ?_,
    congrArg Text.digitsToNat ?_, congrArg Text.digitsToNat ?_⟩
  · exact take_drop_of_eq before _ hcs.symm rfl d.year.length_eq
  · refine take_drop_of_eq (before ++ (d.year.chars ++ d.first))
      (d.second ++ (d.day.chars ++ after)) ?_ ?_ d.month.length_eq
    · rw [← hcs]
      simp only [List.append_assoc]
    · simp only [List.length_append, d.year.length_eq, hfirst]
  · refine take_drop_of_eq (before ++ (d.year.chars ++ d.first ++ (d.month.chars ++ d.second)))
      after ?_ ?_ d.day.length_eq
    · rw [← hcs]
      simp only [List.append_assoc]
    · simp only [List.length_append, d.year.length_eq, d.month.length_eq, hfirst, hsecond]
      omega

/-! ## Reading -/

section Reading

variable {between : List Char → Option (List Char)} {cs : List Char} {year : Nat}

theorem takeDigits_eq_some_iff {width n : Nat} {rest : List Char} :
    takeDigits width cs = some (n, rest) ↔ ∃ d : Digits width, d.value = n ∧ cs = d.chars ++ rest := by
  constructor
  · intro h
    obtain ⟨d, hvalue, hchars⟩ := exists_of_takeDigits h
    exact ⟨d, hvalue.symm, hchars⟩
  · rintro ⟨d, rfl, rfl⟩
    exact takeDigits_append d rest

theorem take_two_append {d : Digits 4} {rest : List Char} :
    (d.chars ++ rest).take 2 = d.chars.take 2 :=
  List.take_append_of_le_length (by rw [d.length_eq]; decide)

/-- What is read where certain characters are taken between the numbers. -/
theorem yearAt?_eq_some_iff (separates : List Char → Prop)
    (hbetween : ∀ cs rest, between cs = some rest ↔ ∃ sep, separates sep ∧ cs = sep ++ rest) :
    yearAt? between cs = some year
      ↔ ∃ d : NameDate, (d.IsRecent ∧ separates d.first ∧ separates d.second)
        ∧ d.chars <+: cs ∧ d.year.value = year := by
  constructor
  · intro h
    unfold yearAt? at h
    simp only [Option.bind_eq_bind, Option.bind_eq_some_iff] at h
    obtain ⟨y, hy, h⟩ := h
    by_cases hrecent : cs.take 2 = ['2', '0']
    · rw [if_neg (not_not_intro hrecent)] at h
      simp only [Option.bind_eq_some_iff] at h
      obtain ⟨cs₁, hcs₁, m, hm, cs₂, hcs₂, d, hd, hend⟩ := h
      cases hend
      -- each number that was read is some digits, and between them stands what separates them
      obtain ⟨yearDigits, hvalue, rfl⟩ := takeDigits_eq_some_iff.mp hy
      obtain ⟨first, hfirst, hafterYear⟩ := (hbetween _ _).mp hcs₁
      obtain ⟨month, -, rfl⟩ := takeDigits_eq_some_iff.mp hm
      obtain ⟨second, hsecond, hafterMonth⟩ := (hbetween _ _).mp hcs₂
      obtain ⟨day, -, rfl⟩ := takeDigits_eq_some_iff.mp hd
      refine ⟨⟨yearDigits, first, month, second, day⟩, ⟨?_, hfirst, hsecond⟩, ⟨d.2, ?_⟩, hvalue⟩
      · rwa [take_two_append] at hrecent
      · rw [NameDate.chars_append, hafterYear, hafterMonth]
    · rw [if_pos hrecent, Option.bind_none] at h
      cases h
  · rintro ⟨⟨yearDigits, first, month, second, day⟩, ⟨hrecent, hfirst, hsecond⟩, ⟨rest, rfl⟩, rfl⟩
    have htake : between (first ++ (month.chars ++ (second ++ (day.chars ++ rest))))
        = some (month.chars ++ (second ++ (day.chars ++ rest))) :=
      (hbetween _ _).mpr ⟨first, hfirst, rfl⟩
    have htake' : between (second ++ (day.chars ++ rest)) = some (day.chars ++ rest) :=
      (hbetween _ _).mpr ⟨second, hsecond, rfl⟩
    have hcentury : yearDigits.chars.take 2 = ['2', '0'] := hrecent
    unfold yearAt?
    simp only [NameDate.chars_append, takeDigits_append, take_two_append, hcentury, htake, htake',
      Option.bind_eq_bind, Option.bind_some, ne_eq, not_true_eq_false, if_false,
      Option.pure_def]

theorem yearAt?_compact_eq_some_iff : yearAt? some cs = some year
    ↔ ∃ d : NameDate, (d.IsRecent ∧ d.IsCompact) ∧ d.chars <+: cs ∧ d.year.value = year :=
  yearAt?_eq_some_iff (· = []) fun cs rest => by simp

theorem yearAt?_separated_eq_some_iff : yearAt? (takeChar isDateSeparator) cs = some year
    ↔ ∃ d : NameDate, (d.IsRecent ∧ d.IsSeparated) ∧ d.chars <+: cs ∧ d.year.value = year := by
  refine yearAt?_eq_some_iff (fun sep => ∃ c, isDateSeparator c = true ∧ sep = [c])
    fun cs rest => ?_
  constructor
  · intro h
    obtain ⟨c, hc, hcs⟩ := exists_of_takeChar h
    exact ⟨[c], ⟨c, hc, rfl⟩, hcs⟩
  · rintro ⟨-, ⟨c, hc, rfl⟩, rfl⟩
    exact takeChar_cons hc

/-- A search with a reader that reads the dates of some kind finds the first of them. -/
theorem firstYear?_eq_some_iff_isFirst {reader : List Char → Option Nat} {kind : NameDate → Prop}
    (hreader : ∀ cs year, reader cs = some year
      ↔ ∃ d : NameDate, kind d ∧ d.chars <+: cs ∧ d.year.value = year) :
    firstYear? reader cs = some year ↔ ∃ d : NameDate, d.IsFirst kind cs ∧ d.year.value = year := by
  have hreads : ∀ t, reader t ≠ none ↔ ∃ e : NameDate, kind e ∧ e.chars <+: t := by
    intro t
    rw [Option.ne_none_iff_exists']
    constructor
    · rintro ⟨read, hread⟩
      obtain ⟨e, hkind, hchars, -⟩ := (hreader t read).mp hread
      exact ⟨e, hkind, hchars⟩
    · rintro ⟨e, hkind, hchars⟩
      exact ⟨_, (hreader t _).mpr ⟨e, hkind, hchars, rfl⟩⟩
  simp only [firstYear?_eq_some_iff, hreads, hreader]
  constructor
  · rintro ⟨tail, hlongest, d, hkind, hchars, hyear⟩
    exact ⟨d, ⟨hkind, tail, hchars, hlongest⟩, hyear⟩
  · rintro ⟨d, ⟨hkind, tail, hchars, hlongest⟩, hyear⟩
    exact ⟨tail, hlongest, d, hkind, hchars, hyear⟩

/-- Nothing is found exactly if no date of the kind stands anywhere. -/
theorem firstYear?_eq_none_iff_forall {reader : List Char → Option Nat} {kind : NameDate → Prop}
    (hreader : ∀ cs year, reader cs = some year
      ↔ ∃ d : NameDate, kind d ∧ d.chars <+: cs ∧ d.year.value = year) :
    firstYear? reader cs = none ↔ ∀ e : NameDate, kind e → ¬ e.chars <:+: cs := by
  rw [firstYear?_eq_none_iff]
  constructor
  · intro hnone e hkind hinfix
    obtain ⟨tail, hprefix, hsuffix⟩ := List.infix_iff_prefix_suffix.mp hinfix
    have hread := (hreader tail _).mpr ⟨e, hkind, hprefix, rfl⟩
    rw [hnone tail hsuffix] at hread
    cases hread
  · intro hall tail hsuffix
    refine Option.eq_none_iff_forall_not_mem.mpr fun read hread => ?_
    obtain ⟨e, hkind, hprefix, -⟩ := (hreader tail read).mp hread
    exact hall e hkind (List.infix_iff_prefix_suffix.mpr ⟨tail, hprefix, hsuffix⟩)

end Reading

/-! ## The year of a name -/

section Name

variable {name : String} {year : Nat}

theorem firstYear?_compact_eq_none_iff : firstYear? (yearAt? some) name.toList = none
    ↔ ∀ e : NameDate, e.IsRecent → e.IsCompact → ¬ e.chars <:+: name.toList := by
  rw [firstYear?_eq_none_iff_forall fun cs year => yearAt?_compact_eq_some_iff]
  simp only [and_imp]

/-- The year of a name is that of the date that decides. -/
theorem yearOfName?_eq_some_iff :
    yearOfName? name = some year ↔ ∃ d : NameDate, d.Decides name ∧ d.year.value = year := by
  simp only [yearOfName?, Option.or_eq_some_iff, firstYear?_compact_eq_none_iff,
    firstYear?_eq_some_iff_isFirst fun cs year => yearAt?_compact_eq_some_iff,
    firstYear?_eq_some_iff_isFirst fun cs year => yearAt?_separated_eq_some_iff]
  constructor
  · rintro (⟨d, hfirst, hyear⟩ | ⟨hnone, d, hfirst, hyear⟩)
    · exact ⟨d, .inl hfirst, hyear⟩
    · exact ⟨d, .inr ⟨hnone, hfirst⟩, hyear⟩
  · rintro ⟨d, hfirst | ⟨hnone, hfirst⟩, hyear⟩
    · exact .inl ⟨d, hfirst, hyear⟩
    · exact .inr ⟨hnone, d, hfirst, hyear⟩

theorem yearOfName?_eq_none_iff : yearOfName? name = none
    ↔ ∀ d : NameDate, d.IsRecent → d.IsCompact ∨ d.IsSeparated → ¬ d.chars <:+: name.toList := by
  rw [yearOfName?, Option.or_eq_none_iff, firstYear?_compact_eq_none_iff,
    firstYear?_eq_none_iff_forall fun cs year => yearAt?_separated_eq_some_iff]
  constructor
  · rintro ⟨hcompact, hseparated⟩ d hrecent (hkind | hkind)
    · exact hcompact d hrecent hkind
    · exact hseparated d ⟨hrecent, hkind⟩
  · intro hall
    exact ⟨fun d hrecent hkind => hall d hrecent (.inl hkind),
      fun d hkind => hall d hkind.1 (.inr hkind.2)⟩

theorem NameDate.IsFirst.infix {kind : NameDate → Prop} {d : NameDate} {cs : List Char}
    (h : d.IsFirst kind cs) : d.chars <:+: cs := by
  obtain ⟨-, tail, hprefix, hsuffix, -⟩ := h
  exact List.infix_iff_prefix_suffix.mpr ⟨tail, hprefix, hsuffix⟩

/-- A real date that decides is one of its year. -/
theorem NameDate.Decides.isDatedIn {d : NameDate} (h : d.Decides name) (hreal : d.IsReal) :
    IsDatedIn d.year.value name := by
  rcases h with h | ⟨-, h⟩
  · exact ⟨d, .inl h.1.2, hreal, rfl, h.infix⟩
  · exact ⟨d, .inr h.1.2, hreal, rfl, h.infix⟩

theorem NameDate.Decides.isRecent {d : NameDate} (h : d.Decides name) : d.IsRecent := by
  rcases h with h | ⟨-, h⟩
  · exact h.1.1
  · exact h.1.1

/-- A year with 20 in front is one of the 21st century, whatever digits are behind. -/
theorem NameDate.IsRecent.bounds {d : NameDate} (h : d.IsRecent) :
    2000 ≤ d.year.value ∧ d.year.value ≤ 2099 := by
  have hlength := d.year.length_eq
  have hsplit := List.take_append_drop 2 d.year.chars
  have hcentury : d.year.chars.take 2 = ['2', '0'] := h
  rw [hcentury] at hsplit
  obtain ⟨a, b, hab⟩ : ∃ a b, d.year.chars.drop 2 = [a, b] :=
    List.length_eq_two.mp (by rw [List.length_drop, hlength])
  rw [hab] at hsplit
  have ha := Text.digitValue?_getD_le a
  have hb := Text.digitValue?_getD_le b
  have hvalue : d.year.value
      = 2000 + 10 * (Text.digitValue? a).getD 0 + (Text.digitValue? b).getD 0 := by
    have htwo : Text.digitValue? '2' = some 2 := by decide
    have hzero : Text.digitValue? '0' = some 0 := by decide
    rw [Digits.value, ← hsplit]
    simp only [Text.digitsToNat, List.cons_append, List.nil_append, List.foldl_cons, List.foldl_nil,
      htwo, hzero, Option.getD_some]
    omega
  omega

/-- **Whether the year of a name is that of a date in it.** A name has a year exactly if something
like a date stands in it, and then it is a year of the 21st century, that of the first of them
without separators, or of the first with separators if there is none of the others. A real date of
this year stands in the name exactly if one shares its year with what was taken for a date, as it
does itself if it is real. -/
theorem yearOfName?_isDated_iff (name : String) :
    (∀ year, yearOfName? name = some year
      ↔ ∃ d : NameDate, d.Decides name ∧ d.year.value = year)
      ∧ (yearOfName? name = none ↔ ∀ d : NameDate, d.IsRecent → d.IsCompact ∨ d.IsSeparated →
        ¬ d.chars <:+: name.toList)
      ∧ (∀ year, yearOfName? name = some year → 2000 ≤ year ∧ year ≤ 2099)
      ∧ ((∀ year, yearOfName? name = some year → IsDatedIn year name)
        ↔ ∀ d : NameDate, d.Decides name → IsDatedIn d.year.value name)
      ∧ ∀ d : NameDate, d.Decides name → d.IsReal → IsDatedIn d.year.value name := by
  refine ⟨fun year => yearOfName?_eq_some_iff, yearOfName?_eq_none_iff, fun year h => ?_, ?_,
    fun d hdecides => hdecides.isDatedIn⟩
  · obtain ⟨d, hdecides, rfl⟩ := yearOfName?_eq_some_iff.mp h
    exact hdecides.isRecent.bounds
  · constructor
    · intro hall d hdecides
      exact hall _ (yearOfName?_eq_some_iff.mpr ⟨d, hdecides, rfl⟩)
    · intro hall year h
      obtain ⟨d, hdecides, rfl⟩ := yearOfName?_eq_some_iff.mp h
      exact hall d hdecides

/-- What only looks like a date hides the date behind it. -/
example : yearOfName? "v20991399-2024-01-02.log" = some 2099 := by cbv

/-- A count of seconds behind a number is taken for a date of a month and a day that do not exist,
and its year for that of the log. -/
theorem not_isDatedIn_of_seconds :
    let name := "app-1720051234.log"
    yearOfName? name = some 2005 ∧ fallbackYear 2026 (some name) none = ⟨2005, .filename⟩
      ∧ ¬ IsDatedIn 2005 name := by
  intro name
  refine ⟨by cbv, by cbv, ?_⟩
  rintro ⟨d, hkind, hreal, hyear, hchars⟩
  obtain ⟨n, hn, gap, hgap, hplace, hmonth, hday⟩ := d.exists_place hkind hchars
  have hnowhere : ∀ n ≤ name.toList.length, ∀ gap < 2,
      Text.digitsToNat ((name.toList.drop n).take 4) = 2005 →
      ¬ IsDate 2005 (Text.digitsToNat ((name.toList.drop (n + (4 + gap))).take 2))
        (Text.digitsToNat ((name.toList.drop (n + (4 + gap) + (2 + gap))).take 2)) := by
    decide
  refine hnowhere n hn gap hgap (hplace.trans hyear) ?_
  rw [hmonth, hday, ← hyear]
  exact hreal

end Name

end Timestamp

end LogSearch
