/-
Archives that are cut short.

A file lies in an archive as a header, its content and what fills up the last block. Cut the
archive off inside one of these headers or contents, and the files in front of the cut are
found, while the file at the cut is not. Whether it is reported depends on how much of it is
left, since the walk only looks at a header if two blocks are left from there on. With two
blocks or more the content is seen to be too short. With less the walk has ended in front of
the header and reports nothing.

The same rule can cost one file more. If less than a block is left at the cut, an empty file
just in front of it has less than two blocks from its header on, and the walk ends there
already (`reached`). A file with a content takes up two blocks itself, so no other is lost.

Nothing is asked of a header but what it says: a name, the type of a regular file and the
length of the content, in octal or in base 256.
-/
import LogSearch.Proofs.Archive.RoundTrip

set_option autoImplicit false

namespace LogSearch.Archive

/-! ## Files as they lie in an archive -/

/-- A regular file as it lies in an archive, with any header that says so. -/
structure StoredFile where
  header : Bytes
  data : Bytes
  /-- What fills up the last block of the content. -/
  filler : Bytes
  isBlock : header.length = blockSize
  isRegular : (Header.ofBlock header).isRegular = true
  isNamed : (Header.ofBlock header).name ≠ ""
  isSized : (Header.ofBlock header).size = some (data.length : Int)
  isFilled : filler.length = (blockSize - data.length % blockSize) % blockSize

namespace StoredFile

/-- The name in the header. -/
def name (f : StoredFile) : String :=
  (Header.ofBlock f.header).name

/-- The blocks that the file takes up. -/
def bytes (f : StoredFile) : Bytes :=
  f.header ++ (f.data ++ f.filler)

/-- The entry that a reader should find. -/
def entry (f : StoredFile) : Entry :=
  ⟨f.name, f.data.length, f.data⟩

/-- What is reported if only `n` bytes are left of the file at `place`, the header included. -/
def reports (f : StoredFile) (place n : Nat) : List Warning :=
  if 2 * blockSize ≤ n then
    [⟨.truncated f.data.length (n - blockSize), f.name, place + blockSize⟩]
  else []

end StoredFile

/-- A regular member of an archive that was written, as it lies there. -/
def Member.stored (m : Member) (h : m.isRegular = true) : StoredFile where
  header := m.header
  data := m.data
  filler := List.replicate ((blockSize - m.data.length % blockSize) % blockSize) 0
  isBlock := m.length_header
  isRegular := by rw [ofBlock_header]; exact h
  isNamed := by rw [ofBlock_header]; exact m.path_ne_empty (m.isNamed h)
  isSized := by rw [ofBlock_header]
  isFilled := List.length_replicate

/-- The files in front of a cut that are found if the cut leaves `n` bytes of the next one. An
empty file needs a whole block behind it. -/
def reached (before : List StoredFile) (n : Nat) : List StoredFile :=
  if n < blockSize ∧ ∃ last ∈ before.getLast?, last.data = [] then before.dropLast else before

/-! ## One file -/

/-- A block of zeros names nothing. -/
theorem name_of_zeros {block : Bytes} (h : block.all (· = 0) = true) :
    (Header.ofBlock block).name = "" := by
  have hzero : ∀ b ∈ block, b = 0 := fun b hb => of_decide_eq_true (List.all_eq_true.mp h b hb)
  have hfield (offset length : Nat) : ∀ b ∈ fieldOf block offset length, b = 0 :=
    fun b hb => hzero b (List.mem_of_mem_drop (List.mem_of_mem_take hb))
  have htext (offset length : Nat) : fieldText (fieldOf block offset length) = "" := by
    have hnone : (fieldOf block offset length).takeWhile (· ≠ 0) = [] := by
      rcases hcons : fieldOf block offset length with _ | ⟨b, bs⟩
      · rfl
      · have hb : b = 0 := hfield offset length b (by rw [hcons]; exact List.mem_cons_self)
        rw [hb]
        rfl
    rw [fieldText, hnone, Text.decodeUtf8, Text.decodeChars]
  have hmagic : fieldOf block 257 6 ≠ posixMagic := by
    intro heq
    have hmem : (0x75 : UInt8) ∈ fieldOf block 257 6 := by
      rw [heq]
      decide
    exact absurd (hfield 257 6 _ hmem) (by decide)
  simp only [Header.ofBlock, if_neg hmagic, htext]
  rfl

namespace StoredFile

theorem header_not_zeros (f : StoredFile) : f.header.all (· = 0) = false :=
  Bool.eq_false_iff.mpr fun h => f.isNamed (name_of_zeros h)

theorem length_bytes (f : StoredFile) :
    (f.bytes.length : Int) = blockSize + paddedSize f.data.length := by
  obtain ⟨hlower, hupper, hmod⟩ := paddedSize_bounds f.data.length
  rw [bytes, List.length_append, List.length_append, f.isBlock, f.isFilled]
  rw [blockSize] at *
  omega

theorem blockSize_le_length_bytes (f : StoredFile) : blockSize ≤ f.bytes.length := by
  rw [bytes, List.length_append, f.isBlock]
  exact Nat.le_add_right _ _

/-- A file with a content takes up two blocks. -/
theorem two_blocks_le_length_bytes (f : StoredFile) (h : f.data ≠ []) :
    2 * blockSize ≤ f.bytes.length := by
  have hlength := f.length_bytes
  obtain ⟨hlower, hupper, hmod⟩ := paddedSize_bounds f.data.length
  have hpos := List.length_pos_iff.mpr h
  rw [blockSize] at *
  omega

/-- An empty file takes up its header. -/
theorem length_bytes_of_empty (f : StoredFile) (h : f.data = []) : f.bytes.length = blockSize := by
  have hfilled := f.isFilled
  rw [bytes, List.length_append, List.length_append, f.isBlock, hfilled, h]
  rfl

/-- At the header of a file the walk finds the file and goes on behind it, if two blocks are left
from there on. -/
theorem step_bytes (front : Bytes) (f : StoredFile) {rest : Bytes}
    (h : 2 * blockSize ≤ f.bytes.length + rest.length) :
    step (front ++ (f.bytes ++ rest)) front.length
      = .next ((front ++ f.bytes).length : Int) (some (.entry f.entry)) := by
  have hlength : f.bytes.length = blockSize + (f.data ++ f.filler).length := by
    rw [bytes, List.length_append, f.isBlock]
  have hnext : (front.length : Int) + blockSize + paddedSize f.data.length
      = (front ++ f.bytes).length := by
    have hpadded := f.length_bytes
    rw [List.length_append]
    omega
  have hnamed : (Header.ofBlock f.header).name.isEmpty = false := by
    rw [← Bool.not_eq_true, String.isEmpty_iff]
    exact f.isNamed
  have hcut : f.bytes ++ rest = f.header ++ (f.data ++ (f.filler ++ rest)) := by
    rw [bytes, List.append_assoc, List.append_assoc]
  rw [hcut, step_header front f.isBlock f.header_not_zeros f.isSized, hnext,
    if_neg (by rw [f.isRegular, hnamed]; decide),
    if_neg (by rw [List.length_append]; omega), List.take_left]
  · rfl
  · rw [List.length_append] at hlength ⊢
    rw [List.length_append]
    omega

end StoredFile

/-- Where fewer than two blocks are left, the walk ends. -/
theorem step_of_short {archive : Bytes} {place : Int}
    (h : archive.length - place < 2 * (blockSize : Int)) : step archive place = .stop :=
  step_eq_stop fun hheader => absurd hheader.1 (Int.not_le.mpr h)

/-- **The file at the cut.** It is reported if two blocks of it are left, and else passed over;
either way the walk is at its end. -/
theorem walk_cut (front : Bytes) (f : StoredFile) {n : Nat}
    (hcut : n < blockSize + f.data.length) (steps : Nat) :
    walk (front ++ (f.header ++ f.data).take n) (steps + 2) front.length
      = some ((f.reports front.length n).map .warning) := by
  have hlength : ((f.header ++ f.data).take n).length = n := by
    rw [List.length_take, List.length_append, f.isBlock]
    omega
  by_cases hroom : 2 * blockSize ≤ n
  · have hnamed : (Header.ofBlock f.header).name.isEmpty = false := by
      rw [← Bool.not_eq_true, String.isEmpty_iff]
      exact f.isNamed
    have htake : (f.header ++ f.data).take n = f.header ++ f.data.take (n - blockSize) := by
      rw [List.take_append, f.isBlock, List.take_of_length_le (by rw [f.isBlock]; omega)]
    have hleft : (f.data.take (n - blockSize)).length = n - blockSize := by
      rw [List.length_take]
      omega
    -- the next header is sought behind the end of the archive
    have hend : step (front ++ (f.header ++ f.data.take (n - blockSize)))
        (front.length + blockSize + paddedSize f.data.length) = .stop := by
      obtain ⟨hlower, -, -⟩ := paddedSize_bounds f.data.length
      refine step_of_short ?_
      rw [← htake, List.length_append, hlength]
      omega
    rw [StoredFile.reports, if_pos hroom, htake, walk,
      step_header front f.isBlock f.header_not_zeros f.isSized (by rw [hleft]; omega),
      if_neg (by rw [f.isRegular, hnamed]; decide), if_pos (by rw [hleft]; omega), hleft]
    dsimp only
    rw [walk, hend]
    rfl
  · rw [StoredFile.reports, if_neg hroom, walk, step_of_short]
    · rfl
    rw [List.length_append, hlength]
    omega

/-! ## All files -/

/-- **The files in front.** The walk finds them one after the other, as long as two blocks are
left from the last header on. -/
theorem walk_files (files : List StoredFile) (front rest : Bytes) (steps : Nat)
    (hroom : ∀ last ∈ files.getLast?, 2 * blockSize ≤ last.bytes.length + rest.length) :
    walk (front ++ (files.flatMap StoredFile.bytes ++ rest)) (files.length + steps) front.length
      = (walk (front ++ (files.flatMap StoredFile.bytes ++ rest)) steps
          (front ++ files.flatMap StoredFile.bytes).length).map
        (files.map (fun f => .entry f.entry) ++ ·) := by
  induction files generalizing front with
  | nil =>
    rw [List.flatMap_nil, List.append_nil, List.length_nil, Nat.zero_add]
    simp only [List.map_nil, List.nil_append, Option.map_id']
  | cons f files ih =>
    have hfirst : 2 * blockSize
        ≤ f.bytes.length + (files.flatMap StoredFile.bytes ++ rest).length := by
      rcases files with _ | ⟨g, files⟩
      · exact hroom f rfl
      · -- the next file takes up the second block
        have hf := f.blockSize_le_length_bytes
        have hg := g.blockSize_le_length_bytes
        rw [List.flatMap_cons, List.append_assoc, List.length_append]
        omega
    have hlater : ∀ last ∈ files.getLast?, 2 * blockSize ≤ last.bytes.length + rest.length := by
      intro last hlast
      refine hroom last ?_
      rw [List.getLast?_cons, Option.mem_def.mp hlast]
      rfl
    have hrest := ih (front ++ f.bytes) hlater
    rw [List.append_assoc, List.append_assoc] at hrest
    rw [List.flatMap_cons, List.append_assoc, List.length_cons, Nat.add_right_comm, walk,
      f.step_bytes front hfirst]
    dsimp only
    rw [hrest, Option.map_map]
    rfl

/-- **The walk up to the cut.** -/
theorem walk_reached (before : List StoredFile) (f : StoredFile) {n : Nat}
    (hcut : n < blockSize + f.data.length) (steps : Nat) :
    walk (before.flatMap StoredFile.bytes ++ (f.header ++ f.data).take n)
        (before.length + (steps + 2)) 0
      = some ((reached before n).map (fun g => .entry g.entry)
          ++ (f.reports (before.flatMap StoredFile.bytes).length n).map .warning) := by
  have hlength : ((f.header ++ f.data).take n).length = n := by
    rw [List.length_take, List.length_append, f.isBlock]
    omega
  by_cases hlost : n < blockSize ∧ ∃ last ∈ before.getLast?, last.data = []
  · rw [reached, if_pos hlost, StoredFile.reports, if_neg (by omega)]
    obtain ⟨hshort, last, hlast, hempty⟩ := hlost
    obtain ⟨before, rfl⟩ := List.getLast?_eq_some_iff.mp hlast
    have hheader := last.length_bytes_of_empty hempty
    have hwalk := walk_files before [] (last.bytes ++ (f.header ++ f.data).take n) (steps + 3)
      fun g _ => by
        have := g.blockSize_le_length_bytes
        rw [List.length_append]
        omega
    -- the walk stands at the header of the empty file, with a block and `n` bytes ahead
    have hend : step (before.flatMap StoredFile.bytes
          ++ (last.bytes ++ (f.header ++ f.data).take n))
        ((before.flatMap StoredFile.bytes).length : Int) = .stop := by
      refine step_of_short ?_
      rw [List.length_append, List.length_append, hheader, hlength]
      omega
    rw [List.flatMap_append, List.flatMap_singleton, List.append_assoc, List.length_append,
      List.length_singleton, List.dropLast_concat, Nat.add_assoc, Nat.add_left_comm 1]
    simp only [List.nil_append, List.length_nil, Int.ofNat_zero] at hwalk
    rw [Nat.add_comm 1, hwalk, walk, hend]
    rfl
  · rw [reached, if_neg hlost]
    have hroom : ∀ last ∈ before.getLast?,
        2 * blockSize ≤ last.bytes.length + ((f.header ++ f.data).take n).length := by
      intro last hlast
      rw [hlength]
      by_cases hshort : n < blockSize
      · have hdata : last.data ≠ [] := fun hempty => hlost ⟨hshort, last, hlast, hempty⟩
        exact Nat.le_add_right_of_le (last.two_blocks_le_length_bytes hdata)
      · have := last.blockSize_le_length_bytes
        omega
    have hwalk := walk_files before [] ((f.header ++ f.data).take n) (steps + 2) hroom
    rw [List.nil_append, List.length_nil, List.nil_append, walk_cut _ f hcut] at hwalk
    exact hwalk

theorem ofFindings_entries_warnings (files : List StoredFile) (warnings : List Warning) :
    Reading.ofFindings (files.map (fun f => .entry f.entry) ++ warnings.map .warning)
      = ⟨files.map StoredFile.entry, warnings⟩ := by
  simp only [Reading.ofFindings, List.filterMap_append, List.filterMap_map, Reading.mk.injEq]
  constructor
  · show files.filterMap (fun f => some f.entry) ++ warnings.filterMap (fun _ => none) = _
    simp
  · show files.filterMap (fun _ => none) ++ warnings.filterMap some = _
    simp

/-- **Archives that are cut short.** An archive that ends `n` bytes into the header or the
content of a file is read as the files in front of it that are reached, which are all of them
but for an empty one just in front of a header that is cut. The file at the cut is reported,
with the length that it should have and the length that is left, exactly if two blocks of it
are left. -/
theorem read?_take (before after : List StoredFile) (f : StoredFile) (trailer : Bytes) {n : Nat}
    (hcut : n < blockSize + f.data.length) :
    read? (((before ++ f :: after).flatMap StoredFile.bytes ++ trailer).take
        ((before.flatMap StoredFile.bytes).length + n))
      = some ⟨(reached before n).map StoredFile.entry,
          f.reports (before.flatMap StoredFile.bytes).length n⟩ := by
  have htake : ((before ++ f :: after).flatMap StoredFile.bytes ++ trailer).take
        ((before.flatMap StoredFile.bytes).length + n)
      = before.flatMap StoredFile.bytes ++ (f.header ++ f.data).take n := by
    have hfile : (f.header ++ f.data).length = blockSize + f.data.length := by
      rw [List.length_append, f.isBlock]
    rw [List.flatMap_append, List.flatMap_cons, StoredFile.bytes, ← List.append_assoc f.header,
      List.append_assoc, List.append_assoc, List.append_assoc, List.take_length_add_append,
      List.take_append_of_le_length (by omega)]
  -- there are fewer files than bytes, so the walk is not broken off
  have hlimit : before.length + 2 ≤ stepLimit
      (before.flatMap StoredFile.bytes ++ (f.header ++ f.data).take n) := by
    have hfewer : before.length ≤ (before.flatMap StoredFile.bytes).length := by
      refine length_le_length_flatMap fun g _ hempty => ?_
      have hblock := g.blockSize_le_length_bytes
      rw [hempty] at hblock
      exact absurd hblock (by decide)
    rw [stepLimit, List.length_append, blockSize]
    omega
  obtain ⟨steps, hsteps⟩ := Nat.exists_eq_add_of_le hlimit
  rw [Nat.add_assoc, Nat.add_comm 2] at hsteps
  rw [htake, read?, hsteps, walk_reached before f hcut, Option.map_some,
    ofFindings_entries_warnings]

/-- A file without a content. -/
def emptyFile : StoredFile :=
  (Member.plain 0x30 { text := "" } { text := "a.log" } []).stored rfl

/-- A file of one byte. -/
def shortFile : StoredFile :=
  (Member.plain 0x30 { text := "" } { text := "a.log" } [0x78]).stored rfl

/-- A file of 600 bytes. -/
def longFile : StoredFile :=
  (Member.plain 0x30 { text := "logs" } { text := "b.log" } (List.replicate 600 0x79) (by decide)
    (by rw [List.length_replicate]; decide)).stored rfl

/-- Two files, the second of which is cut off 518 bytes into its content. -/
theorem read?_take_longFile :
    1030 < blockSize + longFile.data.length
      ∧ read? (([shortFile, longFile].flatMap StoredFile.bytes).take (1024 + 1030))
        = some ⟨[⟨"a.log", 1, [0x78]⟩], [⟨.truncated 600 518, "logs/b.log", 1536⟩]⟩ := by
  have hcut : 1030 < blockSize + longFile.data.length := by decide +kernel
  have hplace : ([shortFile].flatMap StoredFile.bytes).length = 1024 := by decide +kernel
  have hread := read?_take [shortFile] [] longFile [] hcut
  rw [List.append_nil, hplace] at hread
  exact ⟨hcut, hread.trans (by decide +kernel)⟩

/-- A cut two bytes into the content of a file is not reported, and a cut in its header costs the
empty file in front of it, too. -/
theorem read?_take_unreported :
    (514 < blockSize + longFile.data.length
      ∧ read? (([shortFile, longFile].flatMap StoredFile.bytes).take (1024 + 514))
        = some ⟨[⟨"a.log", 1, [0x78]⟩], []⟩)
    ∧ (100 < blockSize + longFile.data.length
      ∧ read? (([emptyFile, longFile].flatMap StoredFile.bytes).take (512 + 100))
        = some ⟨[], []⟩) := by
  decide +kernel

end LogSearch.Archive
