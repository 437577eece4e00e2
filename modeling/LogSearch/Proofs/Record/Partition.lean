/-
Records as a partition of the lines.

The assembler keeps an open record, and only the next opening line or the end of the
input completes it. Seen from an opening line, however, nothing in front of it
matters except how many records there are: the record takes the lines up to the next
opening line, and the assembler behind it is one without an open record again. So the
records follow a recursion on the lines that has no open record in it
(`records_begin_opening`, `records_begin_skipped`), and each property below is an
induction along it.

* `length_records_begin`: one record for each opening line;
* `records_begin_getElem?_eq_some_iff`: which record is the `k`-th;
* `content_records_begin`: the contents are the joined blocks of the lines, and
  `flatten_blocks` says that the blocks together are the lines from the first opening
  line on.
-/
import LogSearch.Proofs.Record.Feeding

set_option autoImplicit false

namespace LogSearch

namespace Text

/-! ## Joined lines -/

/-- Joining groups of lines and then the results joins all lines at once. An empty group
would leave an empty line behind. -/
theorem joinLines_flatten {groups : List (List String)} (h : ∀ group ∈ groups, group ≠ []) :
    joinLines (groups.map joinLines) = joinLines groups.flatten := by
  induction groups with
  | nil => rfl
  | cons group groups ih =>
    obtain ⟨hgroup, hgroups⟩ := List.forall_mem_cons.mp h
    cases groups with
    | nil =>
      rw [List.map_singleton, List.flatten_singleton, joinLines, String.intercalate_singleton]
    | cons next groups =>
      have hrest : (next :: groups).flatten ≠ [] :=
        fun hempty => hgroups next List.mem_cons_self
          (List.flatten_eq_nil_iff.mp hempty next List.mem_cons_self)
      calc joinLines ((group :: next :: groups).map joinLines)
          = joinLines group ++ "\n" ++ joinLines ((next :: groups).map joinLines) :=
            String.intercalate_cons_cons
        _ = joinLines group ++ "\n" ++ joinLines (next :: groups).flatten := by rw [ih hgroups]
        _ = joinLines (group :: next :: groups).flatten :=
            (String.intercalate_append_of_ne_nil hgroup hrest).symm

end Text

namespace Record

open Text (joinLines)

variable {year : Int} {line : Nat × String} {lines : List (Nat × String)}

/-! ## Opening lines -/

/-- Whether a line opens a record: it has the shape of one that does, and its timestamp
is a time. -/
def opens (year : Int) (line : Nat × String) : Bool :=
  Timestamp.startsRecord line.2 && (Timestamp.date? year line.2).isSome

/-- The lines that an open record takes: those in front of the next opening line. -/
def following (year : Int) (lines : List (Nat × String)) : List (Nat × String) :=
  lines.takeWhile (! opens year ·)

/-- The lines from the first opening line on. -/
def fromOpening (year : Int) (lines : List (Nat × String)) : List (Nat × String) :=
  lines.dropWhile (! opens year ·)

/-- Each opening line with the lines that its record takes. -/
def blocks (year : Int) : List (Nat × String) → List (List (Nat × String))
  | [] => []
  | line :: lines =>
    if opens year line then (line :: following year lines) :: blocks year lines
    else blocks year lines

theorem openingStamp?_eq_some_iff {stamp : Timestamp.Stamp} :
    Timestamp.openingStamp? year line.2 = some stamp
      ↔ opens year line = true ∧ Timestamp.date? year line.2 = some stamp := by
  rw [Timestamp.openingStamp?, opens]
  constructor
  · intro h
    split at h
    · rename_i hstarts
      exact ⟨by rw [hstarts, h]; rfl, h⟩
    · cases h
  · rintro ⟨hopens, hdate⟩
    rw [if_pos (Bool.and_eq_true_iff.mp hopens).1, hdate]

theorem exists_openingStamp? (h : opens year line = true) :
    ∃ stamp, Timestamp.openingStamp? year line.2 = some stamp := by
  obtain ⟨stamp, hdate⟩ := Option.isSome_iff_exists.mp (Bool.and_eq_true_iff.mp h).2
  exact ⟨stamp, openingStamp?_eq_some_iff.mpr ⟨h, hdate⟩⟩

theorem openingStamp?_of_not_opens (h : opens year line = false) :
    Timestamp.openingStamp? year line.2 = none := by
  refine Option.eq_none_iff_forall_ne_some.mpr fun stamp hstamp => ?_
  rw [(openingStamp?_eq_some_iff.mp hstamp).1] at h
  cases h

/-- The opening line with `k` opening lines in front of it. -/
theorem exists_opening {k : Nat} (h : k < (lines.filter (opens year)).length) :
    ∃ before line after, lines = before ++ line :: after
      ∧ (before.filter (opens year)).length = k ∧ opens year line = true := by
  -- The opening lines are cut in front of the `k`-th, and the lines are cut along with them.
  obtain ⟨front, back, hlines, hfront, hback⟩ :=
    List.filter_eq_append_iff.mp (List.take_append_drop k (lines.filter (opens year))).symm
  rw [List.drop_eq_getElem_cons h] at hback
  obtain ⟨skipped, after, hafter, hskipped, hopens, -⟩ := List.filter_eq_cons_iff.mp hback
  refine ⟨front ++ skipped, _, after, ?_, ?_, hopens⟩
  · rw [List.append_assoc, ← hafter, hlines]
  · rw [List.filter_append, List.filter_eq_nil_iff.mpr hskipped, List.append_nil, hfront,
      List.length_take, Nat.min_eq_left (Nat.le_of_lt h)]

/-! ## Blocks of lines -/

theorem following_cons_of_not_opens (h : opens year line = false) :
    following year (line :: lines) = line :: following year lines :=
  List.takeWhile_cons_of_pos (by rw [h]; rfl)

theorem following_cons_of_opens (h : opens year line = true) :
    following year (line :: lines) = [] :=
  List.takeWhile_cons_of_neg (by rw [h]; decide)

/-- What is behind the next opening line does not matter to an open record. -/
theorem following_append (before : List (Nat × String)) {after : List (Nat × String)}
    (h : opens year line = true) :
    following year (before ++ line :: after) = following year before := by
  induction before with
  | nil => exact following_cons_of_opens h
  | cons first before ih =>
    cases hfirst : opens year first with
    | false =>
      rw [List.cons_append, following_cons_of_not_opens hfirst,
        following_cons_of_not_opens hfirst, ih]
    | true => rw [List.cons_append, following_cons_of_opens hfirst, following_cons_of_opens hfirst]

theorem blocks_cons_of_not_opens (h : opens year line = false) :
    blocks year (line :: lines) = blocks year lines := by
  rw [blocks, if_neg (by rw [h]; decide)]

theorem blocks_cons_of_opens (h : opens year line = true) :
    blocks year (line :: lines) = (line :: following year lines) :: blocks year lines := by
  rw [blocks, if_pos h]

/-- The blocks are the lines from the first opening line on, cut in pieces. -/
theorem flatten_blocks (lines : List (Nat × String)) :
    (blocks year lines).flatten = fromOpening year lines := by
  induction lines with
  | nil => rfl
  | cons line lines ih =>
    cases h : opens year line with
    | false =>
      rw [blocks_cons_of_not_opens h, ih, fromOpening, fromOpening,
        List.dropWhile_cons_of_pos (by rw [h]; rfl)]
    | true =>
      rw [blocks_cons_of_opens h, List.flatten_cons, ih, List.cons_append, following, fromOpening,
        List.takeWhile_append_dropWhile, fromOpening,
        List.dropWhile_cons_of_neg (by rw [h]; decide)]

theorem ne_nil_of_mem_blocks {block : List (Nat × String)} (h : block ∈ blocks year lines) :
    block ≠ [] := by
  fun_induction blocks year lines with
  | case1 => exact absurd h List.not_mem_nil
  | case2 line lines _ ih =>
    obtain rfl | h := List.mem_cons.mp h
    · exact List.cons_ne_nil _ _
    · exact ih h
  | case3 line lines _ ih => exact ih h

namespace Assembler

/-! ## One line -/

/-- A line that opens no record joins the open one, if there is one. -/
theorem feed_of_none (a : Assembler) {line : String}
    (h : Timestamp.openingStamp? a.year line = none) (number : Int) :
    a.feed number line = (none, { a with
      draft := a.draft.map fun d => { d with reversedLines := line :: d.reversedLines } }) := by
  obtain ⟨source, year, count, draft⟩ := a
  unfold feed
  rw [h]
  cases draft <;> rfl

/-- A line that opens a record completes the open one, as the end of the input does. -/
theorem feed_of_some (a : Assembler) {line : String} {stamp : Timestamp.Stamp}
    (h : Timestamp.openingStamp? a.year line = some stamp) (number : Int) :
    a.feed number line
      = (a.flush.1, { a.flush.2 with draft := some ⟨stamp.time, number, [line]⟩ }) := by
  unfold feed
  rw [h]

theorem records_cons (a : Assembler) (line : Nat × String) (lines : List (Nat × String)) :
    a.records (line :: lines)
      = (a.feed line.1 line.2).1.toList ++ (a.feed line.1 line.2).2.records lines := by
  rw [records]

/-! ## The records without the open one -/

/-- The assembler behind so many records, with none that is open. -/
def begin (source : String) (year : Int) (count : Nat) : Assembler :=
  { source, year, count }

variable {source : String} {count : Nat}

/-- Lines in front of the first record are dropped. -/
theorem records_begin_skipped (h : opens year line = false) :
    (begin source year count).records (line :: lines)
      = (begin source year count).records lines := by
  rw [records_cons, feed_of_none (begin source year count) (openingStamp?_of_not_opens h)]
  rfl

/-- The open record takes the lines up to the next opening line, and the assembler goes on
without one. The induction is on the lines, for every state of the open record: a line
that does not open joins it, and one that does completes it. -/
theorem records_draft (lines : List (Nat × String)) (d : Draft) :
    records { source, year, count, draft := some d } lines
      = { timestamp := d.timestamp
          content := joinLines (d.reversedLines.reverse ++ (following year lines).map Prod.snd)
          source, sequence := count, lineNumber := d.lineNumber }
        :: (begin source year (count + 1)).records lines := by
  induction lines generalizing d with
  | nil =>
    rw [following, List.takeWhile_nil, List.map_nil, List.append_nil]
    rfl
  | cons line lines ih =>
    cases h : opens year line with
    | false =>
      rw [records_cons, feed_of_none ⟨source, year, count, some d⟩ (openingStamp?_of_not_opens h),
        Option.toList_none, List.nil_append, Option.map_some, ih, records_begin_skipped h,
        following_cons_of_not_opens h, List.reverse_cons, List.append_assoc, List.map_cons,
        List.singleton_append]
    | true =>
      -- Behind the completed record both sides hold the same open one.
      obtain ⟨stamp, hstamp⟩ := exists_openingStamp? h
      rw [records_cons, records_cons, feed_of_some ⟨source, year, count, some d⟩ hstamp,
        feed_of_some (begin source year (count + 1)) hstamp, following_cons_of_opens h,
        List.map_nil, List.append_nil]
      rfl

/-- An opening line and the lines behind it, up to the next one, are a record. -/
theorem records_begin_opening {stamp : Timestamp.Stamp}
    (h : Timestamp.openingStamp? year line.2 = some stamp) :
    (begin source year count).records (line :: lines)
      = { timestamp := stamp.time
          content := joinLines ((line :: following year lines).map Prod.snd)
          source, sequence := count, lineNumber := line.1 }
        :: (begin source year (count + 1)).records lines := by
  rw [records_cons, feed_of_some (begin source year count) h]
  exact records_draft lines ⟨stamp.time, line.1, [line.2]⟩

/-! ## What the records are -/

theorem length_records_begin (lines : List (Nat × String)) :
    ((begin source year count).records lines).length = (lines.filter (opens year)).length := by
  induction lines generalizing count with
  | nil => rfl
  | cons line lines ih =>
    cases h : opens year line with
    | false => rw [records_begin_skipped h, ih, List.filter_cons_of_neg (by rw [h]; decide)]
    | true =>
      obtain ⟨stamp, hstamp⟩ := exists_openingStamp? h
      rw [records_begin_opening hstamp, List.length_cons, ih, List.filter_cons_of_pos h,
        List.length_cons]

/-- The contents are the joined blocks. -/
theorem content_records_begin (lines : List (Nat × String)) :
    ((begin source year count).records lines).map Record.content
      = ((blocks year lines).map (List.map Prod.snd)).map joinLines := by
  induction lines generalizing count with
  | nil => rfl
  | cons line lines ih =>
    cases h : opens year line with
    | false => rw [records_begin_skipped h, ih, blocks_cons_of_not_opens h]
    | true =>
      obtain ⟨stamp, hstamp⟩ := exists_openingStamp? h
      rw [records_begin_opening hstamp, blocks_cons_of_opens h, List.map_cons, List.map_cons,
        ih]
      rfl

/-- An opening line cuts the parse: what is in front of it and what is from it on are
parsed apart. -/
theorem records_begin_append (before : List (Nat × String)) {after : List (Nat × String)}
    (h : opens year line = true) :
    (begin source year count).records (before ++ line :: after)
      = (begin source year count).records before
        ++ (begin source year (count + (before.filter (opens year)).length)).records
            (line :: after) := by
  induction before generalizing count with
  | nil => rfl
  | cons first before ih =>
    cases hfirst : opens year first with
    | false =>
      rw [List.cons_append, records_begin_skipped hfirst, records_begin_skipped hfirst, ih,
        List.filter_cons_of_neg (by rw [hfirst]; decide)]
    | true =>
      obtain ⟨stamp, hstamp⟩ := exists_openingStamp? hfirst
      rw [List.cons_append, records_begin_opening hstamp, records_begin_opening hstamp, ih,
        following_append before h, List.filter_cons_of_pos hfirst, List.length_cons,
        Nat.add_assoc, Nat.add_comm 1, List.cons_append]

/-- The record of an opening line comes after one for each opening line in front of it. -/
theorem records_begin_getElem?_of_split {before after : List (Nat × String)}
    {stamp : Timestamp.Stamp} (h : Timestamp.openingStamp? year line.2 = some stamp) :
    ((begin source year count).records
        (before ++ line :: after))[(before.filter (opens year)).length]?
      = some { timestamp := stamp.time
               content := joinLines ((line :: following year after).map Prod.snd)
               source, sequence := count + (before.filter (opens year)).length
               lineNumber := line.1 } := by
  rw [records_begin_append before (openingStamp?_eq_some_iff.mp h).1,
    List.getElem?_append_right (Nat.le_of_eq (length_records_begin before)),
    length_records_begin, Nat.sub_self, records_begin_opening h, List.getElem?_cons_zero]

/-- The `k`-th record comes from the opening line with `k` opening lines in front of it, and
from no other. -/
theorem records_begin_getElem?_eq_some_iff {k : Nat} {record : Record} :
    ((begin source year count).records lines)[k]? = some record
      ↔ ∃ before line after stamp, lines = before ++ line :: after
        ∧ (before.filter (opens year)).length = k ∧ opens year line = true
        ∧ Timestamp.date? year line.2 = some stamp
        ∧ record = { timestamp := stamp.time
                     content := joinLines ((line :: following year after).map Prod.snd)
                     source, sequence := count + k, lineNumber := line.1 } := by
  constructor
  · intro hrecord
    have hk := (List.getElem?_eq_some_iff.mp hrecord).1
    rw [length_records_begin] at hk
    obtain ⟨before, line, after, rfl, rfl, hopens⟩ := exists_opening hk
    obtain ⟨stamp, hstamp⟩ := exists_openingStamp? hopens
    refine ⟨before, line, after, stamp, rfl, rfl, hopens,
      (openingStamp?_eq_some_iff.mp hstamp).2, ?_⟩
    exact Option.some.inj (hrecord.symm.trans (records_begin_getElem?_of_split hstamp))
  · rintro ⟨before, line, after, stamp, rfl, rfl, hopens, hdate, rfl⟩
    exact records_begin_getElem?_of_split (openingStamp?_eq_some_iff.mpr ⟨hopens, hdate⟩)

end Assembler

/-! ## The records of a text -/

/-- **Records partition the lines.** There is one record for each opening line. The `k`-th
has the time, the number and the lines of the `k`-th opening line, up to the next one, and
nothing else is a record. Joined, the contents are the lines from the first opening line
on, so that only the lines in front of it are dropped. -/
theorem ofText_partition (text source : String) (currentYear : Nat) (fileName : Option String)
    (named : Option Int) :
    let year := (Timestamp.yearFor currentYear source fileName named).year
    let lines := Text.numberedLines text
    let records := ofText text source year
    records.length = (lines.filter (opens year)).length
      ∧ (∀ k record, records[k]? = some record
        ↔ ∃ before line after stamp, lines = before ++ line :: after
          ∧ (before.filter (opens year)).length = k ∧ opens year line = true
          ∧ Timestamp.date? year line.2 = some stamp
          ∧ record = { timestamp := stamp.time
                       content := joinLines ((line :: following year after).map Prod.snd)
                       source, sequence := k, lineNumber := line.1 })
      ∧ joinLines (records.map Record.content)
        = joinLines ((fromOpening year lines).map Prod.snd) := by
  intro year lines records
  have hrecords : records = (Assembler.begin source year 0).records lines := rfl
  rw [hrecords]
  refine ⟨Assembler.length_records_begin lines, fun k record => ?_, ?_⟩
  · rw [Assembler.records_begin_getElem?_eq_some_iff]
    simp only [Nat.zero_add]
  · rw [Assembler.content_records_begin, Text.joinLines_flatten, ← List.map_flatten,
      flatten_blocks]
    intro group hgroup
    obtain ⟨block, hblock, rfl⟩ := List.mem_map.mp hgroup
    exact fun hnil => ne_nil_of_mem_blocks hblock (List.map_eq_nil_iff.mp hnil)

end Record

end LogSearch
