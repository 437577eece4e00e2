/-
The readers of lines against each other.

The plain cut at every line feed is the measure, and it is that of the standard library
(`splitLines_eq_split`). The first lines are a front part of it (`firstLines_eq_take`), and the last
lines are a back part (`lastLines_eq_drop`): walking backwards over so many line feeds leaves a text
behind that has one line more than it has line feeds (`length_splitChars`).

The numbered lines differ from the plain cut in the returns that they drop and in the empty rest
that they leave out (`numberedFrom_eq_zipIdx`), so they agree for whatever does not look at these
(`filterMap_numberedLines`).

Each induction on a text is on its lines: a text is a last line, or a line in front of a shorter
text.
-/
import LogSearch.Text.Lines

set_option autoImplicit false

namespace LogSearch.Text

/-! ## Induction on the lines -/

/-- What holds of a last line, and of a line in front of a text of which it holds, holds of
every text. -/
theorem pieces_induction (sep : Char) {motive : List Char → Prop}
    (last : ∀ line, sep ∉ line → motive line)
    (more : ∀ line rest, sep ∉ line → motive rest → motive (line ++ sep :: rest))
    (cs : List Char) : motive cs := by
  by_cases hmem : sep ∈ cs
  · obtain ⟨line, rest, hcs, hline⟩ := List.eq_append_cons_of_mem hmem
    have hshorter : rest.length < cs.length := by
      rw [hcs, List.length_append, List.length_cons]
      omega
    rw [hcs]
    exact more line rest hline (pieces_induction sep last more rest)
  · exact last cs hmem
termination_by cs.length

variable {sep : Char} {line : List Char}

theorem splitChars_of_not_mem (h : sep ∉ line) : splitChars sep line = [line] := by
  rw [splitChars]
  split
  · rw [cutAt_of_not_mem h]
  · rename_i rest hcut
    rw [cutAt_of_not_mem h] at hcut
    cases hcut

theorem splitChars_cons (h : sep ∉ line) (rest : List Char) :
    splitChars sep (line ++ sep :: rest) = line :: splitChars sep rest := by
  rw [splitChars]
  split
  · rename_i hcut
    rw [cutAt_append h] at hcut
    cases hcut
  · rename_i rest' hcut
    rw [cutAt_append h] at hcut ⊢
    cases hcut
    rfl

/-- A separator anywhere cuts the pieces in two. -/
theorem splitChars_append (cs rest : List Char) :
    splitChars sep (cs ++ sep :: rest) = splitChars sep cs ++ splitChars sep rest := by
  induction cs using pieces_induction sep with
  | last line hline => rw [splitChars_of_not_mem hline, splitChars_cons hline, List.singleton_append]
  | more line cs hline ih =>
    rw [List.append_assoc, List.cons_append, splitChars_cons hline, splitChars_cons hline, ih,
      List.cons_append]

theorem splitChars_ne_nil (cs : List Char) : splitChars sep cs ≠ [] := by
  rw [splitChars]
  exact List.cons_ne_nil _ _

/-- There is one piece more than there are separators. -/
theorem length_splitChars (cs : List Char) : (splitChars sep cs).length = cs.count sep + 1 := by
  induction cs using pieces_induction sep with
  | last line hline => rw [splitChars_of_not_mem hline, List.count_eq_zero_of_not_mem hline]; rfl
  | more line rest hline ih =>
    rw [splitChars_cons hline, List.length_cons, ih, List.count_append,
      List.count_eq_zero_of_not_mem hline, List.count_cons_self]
    omega

/-! ## The first lines and the last -/

theorem firstPieces_eq_take (count : Nat) (cs : List Char) :
    firstPieces count cs = (splitChars '\n' cs).take count := by
  induction cs using pieces_induction '\n' generalizing count with
  | last line hline =>
    rw [splitChars_of_not_mem hline]
    cases count with
    | zero => rfl
    | succ count =>
      rw [firstPieces, cutAt_of_not_mem hline, List.take_succ_cons, List.take_nil]
  | more line rest hline ih =>
    rw [splitChars_cons hline]
    cases count with
    | zero => rfl
    | succ count =>
      rw [firstPieces, cutAt_append hline, List.take_succ_cons, ← ih]

theorem firstLines_eq_take (count : Int) (s : String) :
    firstLines count s = (splitLines s).take count.toNat := by
  rw [firstLines, firstPieces_eq_take, List.map_take]
  rfl

theorem fromFeed_of_not_mem (count : Nat) (h : '\n' ∉ line) (behind : List Char) :
    fromFeed (count + 1) line behind = none := by
  rw [fromFeed, cutAt_of_not_mem h]

theorem fromFeed_append (count : Nat) (h : '\n' ∉ line) (rest behind : List Char) :
    fromFeed (count + 1) (line ++ '\n' :: rest) behind
      = fromFeed count rest ('\n' :: (line.reverse ++ behind)) := by
  rw [fromFeed, cutAt_append h]

/-- The walk backwards ends at a line feed that has so many others behind it. -/
theorem fromFeed_eq_some {count : Nat} {before behind found : List Char}
    (h : fromFeed (count + 1) before behind = some found) :
    ∃ front back, found = '\n' :: back ∧ before.reverse ++ behind = front ++ '\n' :: back
      ∧ back.count '\n' = count + behind.count '\n' := by
  induction count generalizing before behind with
  | zero =>
    by_cases hmem : '\n' ∈ before
    · obtain ⟨line, rest, rfl, hline⟩ := List.eq_append_cons_of_mem hmem
      rw [fromFeed_append 0 hline, fromFeed] at h
      cases h
      refine ⟨rest.reverse, line.reverse ++ behind, rfl, by simp, ?_⟩
      rw [List.count_append, List.count_reverse, List.count_eq_zero_of_not_mem hline]
    · rw [fromFeed_of_not_mem 0 hmem] at h
      cases h
  | succ count ih =>
    by_cases hmem : '\n' ∈ before
    · obtain ⟨line, rest, rfl, hline⟩ := List.eq_append_cons_of_mem hmem
      rw [fromFeed_append _ hline] at h
      obtain ⟨front, back, hfound, htext, hcount⟩ := ih h
      refine ⟨front, back, hfound, ?_, ?_⟩
      · rw [← htext]
        simp
      · -- the line feed that was passed lies behind the place from here on
        rw [hcount, List.count_cons_self, List.count_append, List.count_reverse,
          List.count_eq_zero_of_not_mem hline]
        omega
    · rw [fromFeed_of_not_mem _ hmem] at h
      cases h

/-- The walk backwards fails for want of line feeds. -/
theorem fromFeed_eq_none {count : Nat} {before behind : List Char}
    (h : fromFeed count before behind = none) : before.count '\n' < count := by
  induction count generalizing before behind with
  | zero => cases h
  | succ count ih =>
    by_cases hmem : '\n' ∈ before
    · obtain ⟨line, rest, rfl, hline⟩ := List.eq_append_cons_of_mem hmem
      rw [fromFeed_append _ hline] at h
      rw [List.count_append, List.count_eq_zero_of_not_mem hline, List.count_cons_self, Nat.zero_add]
      exact Nat.succ_lt_succ (ih h)
    · rw [List.count_eq_zero_of_not_mem hmem]
      exact Nat.succ_pos _

theorem lastLines_eq_drop (count : Int) (s : String) :
    lastLines count s = (splitLines s).drop ((splitLines s).length - count.toNat) := by
  have hlength : (splitLines s).length = s.toList.count '\n' + 1 := by
    rw [splitLines, splitOn, List.length_map, length_splitChars]
  rw [lastLines]
  split
  · -- none are asked for
    rw [Int.toNat_eq_zero.mpr (by assumption), Nat.sub_zero, List.drop_length]
  · obtain ⟨feeds, hfeeds⟩ : ∃ feeds, count.toNat = feeds + 1 := ⟨count.toNat - 1, by omega⟩
    rw [hfeeds]
    cases hwalk : fromFeed (feeds + 1) s.toList.reverse [] with
    | none =>
      -- no more are there than are asked for
      have hfew := fromFeed_eq_none hwalk
      rw [List.count_reverse] at hfew
      rw [hlength, Nat.sub_eq_zero_of_le (by omega), List.drop_zero]
    | some found =>
      obtain ⟨front, back, rfl, htext, hcount⟩ := fromFeed_eq_some hwalk
      rw [List.reverse_reverse, List.append_nil] at htext
      have hlines : splitLines s
          = (splitChars '\n' front ++ splitChars '\n' back).map String.ofList := by
        rw [splitLines, splitOn, htext, splitChars_append]
      have hback : (splitChars '\n' back).length = feeds + 1 := by
        rw [length_splitChars, hcount, List.count_nil, Nat.add_zero]
      rw [hlines, List.length_map, List.length_append, hback, Nat.add_sub_cancel, ← List.map_drop,
        List.drop_left]
      rfl

/-! ## The numbered lines -/

@[simp] theorem numberedFrom_nil (number : Nat) : numberedFrom number [] = [] := by
  rw [numberedFrom, if_pos List.isEmpty_nil]

theorem numberedFrom_of_not_mem (number : Nat) (h : '\n' ∉ line) (hne : line ≠ []) :
    numberedFrom number line = [(number, String.ofList (dropReturn line))] := by
  rw [numberedFrom, if_neg (by rw [List.isEmpty_iff]; exact hne)]
  split
  · rw [cutAt_of_not_mem h]
  · rename_i rest hcut
    rw [cutAt_of_not_mem h] at hcut
    cases hcut

theorem numberedFrom_cons (number : Nat) (h : '\n' ∉ line) (rest : List Char) :
    numberedFrom number (line ++ '\n' :: rest)
      = (number, String.ofList (dropReturn line)) :: numberedFrom (number + 1) rest := by
  have hne : line ++ '\n' :: rest ≠ [] := List.append_ne_nil_of_right_ne_nil _ (List.cons_ne_nil _ _)
  rw [numberedFrom, if_neg (by rw [List.isEmpty_iff]; exact hne)]
  split
  · rename_i hcut
    rw [cutAt_append h] at hcut
    cases hcut
  · rename_i rest' hcut
    rw [cutAt_append h] at hcut ⊢
    cases hcut
    rfl

/-! ## The standard library -/

theorem splitChars_eq_splitOn (cs : List Char) : splitChars sep cs = cs.splitOn sep := by
  induction cs using pieces_induction sep with
  | last line hline => rw [splitChars_of_not_mem hline, List.splitOn_eq_singleton hline]
  | more line rest hline ih =>
    rw [splitChars_cons hline, List.splitOn_append_cons_self_of_not_mem hline, ih]

/-- The plain cut is that of the standard library. -/
theorem splitLines_eq_split (s : String) :
    splitLines s = (s.split '\n').toList.map String.Slice.copy := by
  rw [splitLines, splitOn, splitChars_eq_splitOn]
  exact String.toList_split_char.symm

/-- Dropping a return is dropping a suffix in the sense of the standard library. -/
theorem ofList_dropReturn (s : String) :
    String.ofList (dropReturn s.toList) = (s.dropSuffix '\r').copy := by
  rw [String.dropSuffix, String.Slice.dropSuffix, String.dropSuffix?_toSlice]
  cases hdrop : s.dropSuffix? '\r' with
  | none =>
    have hlast : s.toList.getLast? ≠ some '\r' := by
      rw [String.dropSuffix?_eq_dropSuffix?_toSlice, String.Slice.dropSuffix?_eq_none_iff,
        String.endsWith_toSlice, String.endsWith_char_eq_getLast?] at hdrop
      intro h
      simp [h] at hdrop
    rw [dropReturn, if_neg hlast, String.ofList_toList, Option.getD_none, String.copy_toSlice]
  | some rest =>
    have hs : s.toList = rest.copy.toList ++ ['\r'] := by
      have := String.eq_append_of_dropSuffix?_char_eq_some hdrop
      rw [this, String.toList_append, String.toList_singleton]
    rw [hs, dropReturn, if_pos List.getLast?_concat, List.dropLast_concat, String.ofList_toList,
      Option.getD_some]

/-! ## The numbered lines and the plain ones -/

/-- The lines without an empty rest behind the last line feed. -/
def withoutEmptyRest (lines : List String) : List String :=
  if lines.getLast? = some "" then lines.dropLast else lines

theorem withoutEmptyRest_cons (line : String) {lines : List String} (h : lines ≠ []) :
    withoutEmptyRest (line :: lines) = line :: withoutEmptyRest lines := by
  rw [withoutEmptyRest, withoutEmptyRest, List.getLast?_cons_of_ne_nil h,
    List.dropLast_cons_of_ne_nil h]
  split <;> rfl

/-- The numbered lines are the plain ones without an empty rest, each without its return. -/
theorem numberedFrom_eq_zipIdx (number : Nat) (cs : List Char) :
    numberedFrom number cs
      = (((withoutEmptyRest ((splitChars '\n' cs).map String.ofList)).map
        fun line => (line.dropSuffix '\r').copy).zipIdx number).map Prod.swap := by
  induction cs using pieces_induction '\n' generalizing number with
  | last line hline =>
    rw [splitChars_of_not_mem hline, List.map_singleton]
    by_cases hnil : line = []
    · subst hnil
      rw [numberedFrom_nil]
      simp [withoutEmptyRest]
    · have hne : [String.ofList line].getLast? ≠ some "" := by simpa using hnil
      rw [numberedFrom_of_not_mem number hline hnil, withoutEmptyRest, if_neg hne,
        List.map_singleton, ← ofList_dropReturn, String.toList_ofList]
      rfl
  | more line rest hline ih =>
    -- another line follows, so this one stays, whether it is empty or not
    have hmore : (splitChars '\n' rest).map String.ofList ≠ [] := by
      simpa using splitChars_ne_nil rest
    rw [numberedFrom_cons number hline, splitChars_cons hline, List.map_cons,
      withoutEmptyRest_cons _ hmore, List.map_cons, List.zipIdx_cons, List.map_cons, ih,
      ← ofList_dropReturn, String.toList_ofList]
    rfl

theorem numberedLines_eq_zipIdx (s : String) :
    numberedLines s
      = (((withoutEmptyRest (splitLines s)).map fun line => (line.dropSuffix '\r').copy).zipIdx 1).map
        Prod.swap :=
  numberedFrom_eq_zipIdx 1 s.toList

/-- Lines are numbered one after the other from one. -/
theorem numberedLines_numbers (s : String) :
    (numberedLines s).map Prod.fst = List.range' 1 (numberedLines s).length := by
  rw [numberedLines_eq_zipIdx, List.map_map, List.length_map, List.length_zipIdx]
  exact List.zipIdx_map_snd 1 _

/-- The line that follows the first `i` lines has the number `i + 1`. -/
theorem numberedLines_getElem_fst (s : String) (i : Nat) (h : i < (numberedLines s).length) :
    ((numberedLines s)[i]).1 = i + 1 := by
  have hfst : ((numberedLines s).map Prod.fst)[i]? = some (i + 1) := by
    rw [numberedLines_numbers, List.getElem?_range' h]
    exact congrArg some (by omega)
  rw [List.getElem?_map, List.getElem?_eq_getElem h] at hfst
  exact Option.some.inj hfst

theorem length_le_withoutEmptyRest (lines : List String) :
    lines.length ≤ (withoutEmptyRest lines).length + 1 := by
  rw [withoutEmptyRest]
  split
  · rw [List.length_dropLast]
    omega
  · exact Nat.le_succ _

/-- The plain cut has at most one line more, the empty rest. -/
theorem length_splitLines_le (s : String) :
    (splitLines s).length ≤ (numberedLines s).length + 1 := by
  rw [numberedLines_eq_zipIdx, List.length_map, List.length_zipIdx, List.length_map]
  exact length_le_withoutEmptyRest _

theorem map_snd_numberedLines (s : String) :
    (numberedLines s).map Prod.snd
      = (withoutEmptyRest (splitLines s)).map fun line => (line.dropSuffix '\r').copy := by
  rw [numberedLines_eq_zipIdx, List.map_map]
  exact List.zipIdx_map_fst 1 _

theorem filterMap_withoutEmptyRest {α : Type} {read : String → Option α} (hempty : read "" = none)
    (lines : List String) : (withoutEmptyRest lines).filterMap read = lines.filterMap read := by
  rw [withoutEmptyRest]
  split
  · rename_i hlast
    obtain ⟨front, rfl⟩ := List.getLast?_eq_some_iff.mp hlast
    rw [List.dropLast_concat, List.filterMap_append, List.filterMap_cons_none hempty]
    simp
  · rfl

/-- A reader that finds nothing in an empty line and overlooks a return finds the same in the
numbered lines as in the plain ones. -/
theorem filterMap_numberedLines {α : Type} {read : String → Option α} (hempty : read "" = none)
    (hreturn : ∀ cs, read (String.ofList (dropReturn cs)) = read (String.ofList cs)) (s : String) :
    ((numberedLines s).map Prod.snd).filterMap read = (splitLines s).filterMap read := by
  have hread (line : String) : read (line.dropSuffix '\r').copy = read line := by
    rw [← ofList_dropReturn, hreturn, String.ofList_toList]
  rw [map_snd_numberedLines, List.filterMap_map, ← filterMap_withoutEmptyRest hempty (splitLines s)]
  exact congrArg (List.filterMap · _) (funext hread)

/-- **The readers and the plain cut.** The lines that the standard library finds between line feeds
are what every reader answers with. Asked for so many lines, the readers of the first ones and of
the last ones give as many of these, or all if there are fewer, and none if the number is not
positive. The numbered lines are all of them, counted from one, without an empty rest behind the
last line feed and each without one return at its end. -/
theorem readers_eq_split (text : String) (count : Int) :
    let lines := (text.split '\n').toList.map String.Slice.copy
    splitLines text = lines
      ∧ firstLines count text = lines.take count.toNat
      ∧ lastLines count text = lines.drop (lines.length - count.toNat)
      ∧ numberedLines text
        = (((withoutEmptyRest lines).map fun line => (line.dropSuffix '\r').copy).zipIdx 1).map
          Prod.swap := by
  intro lines
  have hlines : splitLines text = lines := splitLines_eq_split text
  rw [← hlines]
  exact ⟨rfl, firstLines_eq_take count text, lastLines_eq_drop count text,
    numberedLines_eq_zipIdx text⟩

/-- A return stays where only the plain cut is looked at, and so does an empty rest. -/
example : lastLines 2 "\na\r\n" = ["a\r", ""] ∧ numberedLines "\na\r\n" = [(1, ""), (2, "a")] := by
  decide +kernel

end LogSearch.Text
