/-
Parts of a log, joined and apart.

A log that is rotated is cut into parts, and the cut falls between two records: a part ends with
a line feed, and the next one begins with an opening line. Two things have to carry over such a
cut. The lines do because no line crosses it, so those of the second part only get higher
numbers (`numberedLines_append`). The records do because nothing is open across it: the opening
line behind the cut completes the record in front of it, as the end of the first part would, and
from then on only the counts differ (`records_begin_raised`).

So a part that is parsed behind others has its own records, with sequences and line numbers
raised by what stands in front of it.
-/
import LogSearch.Proofs.Record.Partition
import LogSearch.Proofs.Text.Lines

set_option autoImplicit false

namespace LogSearch

namespace Text

/-! ## The lines of two texts -/

/-- A line with its number raised. -/
def raisedLine (count : Nat) (line : Nat × String) : Nat × String :=
  (line.1 + count, line.2)

theorem numberedFrom_raised (number count : Nat) (cs : List Char) :
    numberedFrom (number + count) cs = (numberedFrom number cs).map (raisedLine count) := by
  induction cs using pieces_induction '\n' generalizing number with
  | last line hline =>
    by_cases hnil : line = []
    · subst hnil
      simp
    · rw [numberedFrom_of_not_mem _ hline hnil, numberedFrom_of_not_mem _ hline hnil]
      rfl
  | more line rest hline ih =>
    rw [numberedFrom_cons _ hline, numberedFrom_cons _ hline, List.map_cons, ← ih (number + 1),
      Nat.add_right_comm]
    rfl

/-- Characters whose last one is a line feed have no line in common with those behind them. The
induction is on the lines: the last of them is the empty rest, and so adds nothing. -/
theorem numberedFrom_append (number : Nat) {cs : List Char} (h : ∀ c ∈ cs.getLast?, c = '\n')
    (rest : List Char) :
    numberedFrom number (cs ++ rest)
      = numberedFrom number cs ++ numberedFrom (number + (numberedFrom number cs).length) rest := by
  induction cs using pieces_induction '\n' generalizing number with
  | last line hline =>
    by_cases hnil : line = []
    · subst hnil
      simp
    · have hlast : line.getLast hnil = '\n' := h _ (List.getLast_mem_getLast? hnil)
      exact absurd (hlast ▸ List.getLast_mem hnil) hline
  | more line cs hline ih =>
    have hcs : ∀ c ∈ cs.getLast?, c = '\n' := by
      intro c hc
      apply h c
      -- behind the line feed nothing changes, unless nothing is there
      rw [Option.mem_def] at hc ⊢
      rw [List.getLast?_append, List.getLast?_cons, hc]
      rfl
    rw [List.append_assoc, List.cons_append, numberedFrom_cons _ hline, numberedFrom_cons _ hline,
      ih (number + 1) hcs, List.cons_append, List.length_cons]
    have hcount : number + 1 + (numberedFrom (number + 1) cs).length
        = number + ((numberedFrom (number + 1) cs).length + 1) := by omega
    rw [hcount]

theorem numberedLines_append {a : String} (h : a = "" ∨ a.toList.getLast? = some '\n')
    (b : String) :
    numberedLines (a ++ b)
      = numberedLines a ++ (numberedLines b).map (raisedLine (numberedLines a).length) := by
  have hlast : ∀ c ∈ a.toList.getLast?, c = '\n' := by
    intro c hc
    rcases h with rfl | h
    · cases hc
    · rw [h] at hc
      cases hc
      rfl
  unfold numberedLines
  rw [String.toList_append, numberedFrom_append 1 hlast, numberedFrom_raised]

end Text

namespace Record

open Text (raisedLine)

variable {year : Int} {source : String}

/-! ## Raising -/

/-- A record with its sequence and its line number raised. -/
def raised (records lines : Nat) (r : Record) : Record :=
  { r with sequence := r.sequence + records, lineNumber := r.lineNumber + lines }

theorem opens_raisedLine (count : Nat) (line : Nat × String) :
    opens year (raisedLine count line) = opens year line := rfl

theorem following_raised (count : Nat) (lines : List (Nat × String)) :
    (following year (lines.map (raisedLine count))).map Prod.snd
      = (following year lines).map Prod.snd := by
  unfold following
  rw [List.takeWhile_map, List.map_map]
  rfl

namespace Assembler

/-- Higher numbers of the lines and more records in front raise the records, and change nothing
else. -/
theorem records_begin_raised (count before shift : Nat) (lines : List (Nat × String)) :
    (begin source year (count + before)).records (lines.map (raisedLine shift))
      = ((begin source year count).records lines).map (raised before shift) := by
  induction lines generalizing count with
  | nil => rfl
  | cons line lines ih =>
    rw [List.map_cons]
    cases h : opens year line with
    | false =>
      have hraised : opens year (raisedLine shift line) = false := by rwa [opens_raisedLine]
      rw [records_begin_skipped hraised, records_begin_skipped h, ih]
    | true =>
      -- the record of this line has the same lines, and the rest has one record more in front
      obtain ⟨stamp, hstamp⟩ := exists_openingStamp? h
      have hraised : Timestamp.openingStamp? year (raisedLine shift line).2 = some stamp := hstamp
      rw [records_begin_opening hraised, records_begin_opening hstamp, List.map_cons,
        Nat.add_right_comm, ih, List.map_cons, following_raised]
      rfl

end Assembler

/-! ## The records of two texts -/

/-- **Parts of a log.** A text of whole lines, and one that is empty or begins with an opening
line behind it: their records are those of the first, and those of the second with sequences
and line numbers raised by the records and the lines of the first. -/
theorem ofText_joined {a b source : String} {currentYear : Nat} {fileName : Option String}
    {named : Option Int} (ha : a = "" ∨ a.toList.getLast? = some '\n')
    (hb : b = "" ∨ ∃ line ∈ (Text.numberedLines b).head?,
      opens (Timestamp.yearFor currentYear source fileName named).year line = true) :
    let year := (Timestamp.yearFor currentYear source fileName named).year
    ofText (a ++ b) source year
      = ofText a source year ++ (ofText b source year).map
          (raised (ofText a source year).length (Text.numberedLines a).length) := by
  intro year
  have hrecords : ∀ text, ofText text source year
      = (Assembler.begin source year 0).records (Text.numberedLines text) := fun _ => rfl
  rw [hrecords, hrecords, hrecords, Text.numberedLines_append ha]
  rcases hb with rfl | ⟨line, hline, hopens⟩
  · have hnone : Text.numberedLines "" = [] := Text.numberedFrom_nil 1
    have hempty : (Assembler.begin source year 0).records [] = [] := rfl
    simp only [hnone, hempty, List.map_nil, List.append_nil]
  · -- the opening line of the second text completes what is open at the end of the first
    obtain ⟨others, hothers⟩ := List.head?_eq_some_iff.mp hline
    have hraised : opens year (raisedLine (Text.numberedLines a).length line) = true := hopens
    rw [hothers, List.map_cons, Assembler.records_begin_append _ hraised, ← List.map_cons,
      Assembler.records_begin_raised, Assembler.length_records_begin]

/-- Two parts of a rotated log, with a record that is open at the cut and a return in front of
it. -/
theorem ofText_joined_rotated :
    let a := "boot\nI0102 03:04:05.678 up\n  at Main\r\n"
    let b := "2024/01/02 03:04:06 next\n  at Main\nI0102 03:04:07.000 last"
    let source := "app-20240102.log"
    let year := (Timestamp.yearFor 2026 source none none).year
    (a = "" ∨ a.toList.getLast? = some '\n')
      ∧ (b = "" ∨ ∃ line ∈ (Text.numberedLines b).head?, opens year line = true)
      ∧ ofText (a ++ b) source year
        = ofText a source year ++ (ofText b source year).map (raised 1 3) := by
  intro a b source year
  have ha : a = "" ∨ a.toList.getLast? = some '\n' := by decide +kernel
  have hb : b = "" ∨ ∃ line ∈ (Text.numberedLines b).head?, opens year line = true :=
    .inr ⟨(1, "2024/01/02 03:04:06 next"), by decide +kernel, by decide +kernel⟩
  have hrecords : (ofText a source year).length = 1 := by decide +kernel
  have hlines : (Text.numberedLines a).length = 3 := by decide +kernel
  refine ⟨ha, hb, ?_⟩
  rw [← hrecords, ← hlines]
  exact ofText_joined ha hb

end Record

end LogSearch
