/-
Reading an archive that was written.

The walk only ever looks ahead: what is in front of a header does not matter to the step at it,
and of what is behind the content only that two blocks are left. So the argument is about one
member between arbitrary bytes (`step_member`), and the whole archive follows by induction
along the members, with the walk at the place where the members so far end.

What one header says is put together from its fields. Each field is the middle one of three
pieces of the block, and each has its own inverse: a text is read up to the first zero, a size
as an octal number. Contents are never looked at, so they may look like anything, headers and
blocks of zeros included.
-/
import LogSearch.Archive.Writing
import LogSearch.Proofs.Archive.Walk
import LogSearch.Proofs.Text.Encoding

set_option autoImplicit false

namespace LogSearch

namespace Text

/-! ## Octal numerals -/

variable {value? : Char → Option Nat} {base : Nat}

/-- Digits that are not grouped add up from the left. -/
theorem groupedDigitsFrom_of_digits {cs : List Char}
    (h : ∀ c ∈ cs, c ≠ '_' ∧ (value? c).isSome) (n : Nat) :
    groupedDigitsFrom value? base n false cs
      = some (cs.foldl (fun n c => base * n + (value? c).getD 0) n) := by
  induction cs generalizing n with
  | nil => rfl
  | cons c cs ih =>
    obtain ⟨⟨hplain, hdigit⟩, hrest⟩ := List.forall_mem_cons.mp h
    obtain ⟨d, hd⟩ := Option.isSome_iff_exists.mp hdigit
    rw [groupedDigitsFrom, if_neg hplain, hd, List.foldl_cons, hd, Option.getD_some]
    exact ih hrest (base * n + d)

/-- A numeral without groups is read as the sum of its digits. -/
theorem groupedDigits?_of_digits {c : Char} {cs : List Char}
    (h : ∀ d ∈ c :: cs, d ≠ '_' ∧ (value? d).isSome) :
    groupedDigits? value? base (c :: cs)
      = some ((c :: cs).foldl (fun n c => base * n + (value? c).getD 0) 0) := by
  have hplain : c ≠ '_' := (h c List.mem_cons_self).1
  rw [← groupedDigitsFrom_of_digits h 0, groupedDigits?, groupedDigitsFrom, groupedDigitsFrom,
    if_neg hplain, if_neg hplain]

/-- No octal digit is a mark of the base, a sign or a separator. -/
theorem ne_of_octalDigit? {c d : Char} (hc : (octalDigit? c).isSome) (hd : octalDigit? d = none) :
    c ≠ d := by
  rintro rfl
  rw [hd] at hc
  cases hc

theorem octal?_of_digits {cs : List Char} (h : ∀ c ∈ cs, (octalDigit? c).isSome) :
    octal? cs = groupedDigits? octalDigit? 8 cs := by
  unfold octal?
  have hmark (d : Char) (hd : octalDigit? d = none) : d ∉ cs :=
    fun hmem => ne_of_octalDigit? (h d hmem) hd rfl
  have hlower := hmark 'o' (by decide)
  have hupper := hmark 'O' (by decide)
  split
  · simp at hlower
  · simp at hupper
  · simp at hlower
  · simp at hupper
  · rfl

theorem signed?_of_octal {read : List Char → Option Nat} {c : Char} {cs : List Char}
    (h : (octalDigit? c).isSome) :
    signed? read (c :: cs) = (read (c :: cs)).map (fun n : Nat => (n : Int)) := by
  have hminus := ne_of_octalDigit? h (d := '-') (by decide)
  have hplus := ne_of_octalDigit? h (d := '+') (by decide)
  unfold signed?
  split
  · rename_i heq
    exact absurd (List.cons.inj heq).1 hminus
  · rename_i heq
    exact absurd (List.cons.inj heq).1 hplus
  · cases read (c :: cs) with
    | none => rfl
    | some n => rfl

end Text

namespace Archive

/-! ## The size field -/

/-- The character for an octal digit. -/
def octalChar (d : Nat) : Char :=
  Char.ofNat (UInt8.ofNat (0x30 + d)).toNat

theorem octalDigit?_octalChar : ∀ d < 8, Text.octalDigit? (octalChar d) = some d := by
  decide

theorem length_octalDigits (width n : Nat) : (octalDigits width n).length = width := by
  induction width generalizing n with
  | zero => rfl
  | succ width ih => rw [octalDigits, List.length_append, ih, List.length_singleton]

theorem exists_of_mem_octalDigits {width n : Nat} {b : UInt8} (h : b ∈ octalDigits width n) :
    ∃ d, d < 8 ∧ b = UInt8.ofNat (0x30 + d) := by
  induction width generalizing n with
  | zero => cases h
  | succ width ih =>
    rw [octalDigits, List.mem_append, List.mem_singleton] at h
    rcases h with h | rfl
    · exact ih h
    · exact ⟨n % 8, Nat.mod_lt n (by decide), rfl⟩

theorem octalDigits_ne_nil (width n : Nat) : octalDigits (width + 1) n ≠ [] := by
  rw [octalDigits]
  exact List.append_ne_nil_of_right_ne_nil _ (List.cons_ne_nil _ _)

/-- The digits add up to the number, as far as they reach. -/
theorem foldl_octalDigits (width n start : Nat) :
    ((octalDigits width n).map fun b => Char.ofNat b.toNat).foldl
        (fun n c => 8 * n + (Text.octalDigit? c).getD 0) start
      = Nat.pow 8 width * start + n % Nat.pow 8 width := by
  induction width generalizing n with
  | zero => simp [octalDigits, Nat.mod_one]
  | succ width ih =>
    have hdigit : Text.octalDigit? (Char.ofNat (UInt8.ofNat (0x30 + n % 8)).toNat)
        = some (n % 8) := octalDigit?_octalChar _ (Nat.mod_lt n (by decide))
    have hpow : Nat.pow 8 (width + 1) = 8 * Nat.pow 8 width := Nat.mul_comm _ _
    rw [octalDigits, List.map_append, List.foldl_append, ih, List.map_singleton, List.foldl_cons,
      List.foldl_nil, hdigit, Option.getD_some, hpow, Nat.mod_mul, Nat.mul_assoc]
    omega

/-- Neither white space nor a zero is an octal digit, and the top bit of one is clear. -/
theorem octalByte_plain : ∀ d < 8, isSizeBlank (UInt8.ofNat (0x30 + d)) = false
    ∧ ¬ (0x80 : UInt8) ≤ UInt8.ofNat (0x30 + d) := by
  decide

/-- **Sizes.** Eleven octal digits and a zero state the size that they were written for. -/
theorem sizeOf?_sizeField {n : Nat} (h : n < sizeLimit) : sizeOf? (sizeField n) = some (n : Int) := by
  have hplain : ∀ b ∈ octalDigits 11 n, isSizeBlank b = false ∧ ¬ (0x80 : UInt8) ≤ b := by
    intro b hb
    obtain ⟨d, hd, rfl⟩ := exists_of_mem_octalDigits hb
    exact octalByte_plain d hd
  have hoctal : ∀ c ∈ (octalDigits 11 n).map fun b => Char.ofNat b.toNat,
      (Text.octalDigit? c).isSome := by
    intro c hc
    obtain ⟨b, hb, rfl⟩ := List.mem_map.mp hc
    obtain ⟨d, hd, rfl⟩ := exists_of_mem_octalDigits hb
    exact Option.isSome_iff_exists.mpr ⟨d, octalDigit?_octalChar d hd⟩
  obtain ⟨first, others, hcons⟩ := List.exists_cons_of_ne_nil (octalDigits_ne_nil 10 n)
  have hfirst := hplain first (by rw [hcons]; exact List.mem_cons_self)
  -- only the zero at the end is cut off
  have hstrip : (((octalDigits 11 n ++ [0]).dropWhile isSizeBlank).reverse.dropWhile
      isSizeBlank).reverse = octalDigits 11 n := by
    obtain ⟨last, front, hlast⟩ := List.exists_cons_of_ne_nil
      (List.reverse_ne_nil_iff.mpr (octalDigits_ne_nil 10 n))
    have hplain' := (hplain last (by rw [← List.mem_reverse, hlast]; exact List.mem_cons_self)).1
    have hkept : (octalDigits 11 n ++ [0]).dropWhile isSizeBlank = octalDigits 11 n ++ [0] := by
      rw [hcons, List.cons_append, List.dropWhile_cons_of_neg (by rw [hfirst.1]; decide)]
    rw [hkept, List.reverse_append, List.reverse_singleton, List.singleton_append,
      List.dropWhile_cons_of_pos (by decide), hlast,
      List.dropWhile_cons_of_neg (by rw [hplain']; decide), ← hlast, List.reverse_reverse]
  have hvalue : Text.octal? ((octalDigits 11 n).map fun b => Char.ofNat b.toNat) = some n := by
    have hsum := foldl_octalDigits 11 n 0
    have hmod : n % Nat.pow 8 11 = n := Nat.mod_eq_of_lt h
    rw [Text.octal?_of_digits hoctal]
    rw [hcons, List.map_cons] at hoctal hsum ⊢
    rw [Text.groupedDigits?_of_digits, hsum, Nat.mul_zero, Nat.zero_add, hmod]
    intro d hd
    exact ⟨Text.ne_of_octalDigit? (hoctal d hd) (by decide), hoctal d hd⟩
  have hfield : octalDigits 11 n ++ [0] = first :: (others ++ [0]) := by
    rw [hcons, List.cons_append]
  rw [hfield] at hstrip
  rw [sizeField, hfield, sizeOf?, if_neg hfirst.2]
  simp only [hstrip]
  rw [hcons, List.map_cons] at hvalue hoctal
  rw [hcons, if_neg (by rw [List.isEmpty_cons]; decide), List.map_cons,
    Text.signed?_of_octal (hoctal _ List.mem_cons_self), hvalue, Option.map_some]

/-! ## Headers -/

/-- A field in front of the offset is passed over. -/
theorem fieldOf_skip {front rest : Bytes} {offset length : Nat} (h : front.length ≤ offset) :
    fieldOf (front ++ rest) offset length = fieldOf rest (offset - front.length) length := by
  rw [fieldOf, fieldOf, List.drop_append, List.drop_eq_nil_of_le h, List.nil_append]

theorem fieldOf_here {field rest : Bytes} {length : Nat} (h : field.length = length) :
    fieldOf (field ++ rest) 0 length = field := by
  rw [fieldOf, List.drop_zero, ← h, List.take_left]

theorem length_sizeField (n : Nat) : (sizeField n).length = 12 := by
  rw [sizeField, List.length_append, length_octalDigits, List.length_singleton]

theorem FieldValue.length_bytes {width : Nat} (f : FieldValue width) : f.bytes.length = width := by
  have hfits := f.fits
  rw [bytes, List.length_append, List.length_replicate]
  omega

/-- **Texts.** A text field is read up to the first of the zeros that fill it up. -/
theorem FieldValue.fieldText_bytes {width : Nat} (f : FieldValue width) :
    fieldText f.bytes = f.text := by
  have hzero := Text.zero_not_mem_encodeUtf8 f.zeroFree
  have htext : f.bytes.takeWhile (· ≠ 0) = Text.encodeUtf8 f.text := by
    rw [bytes, List.takeWhile_append_of_pos]
    · rw [List.takeWhile_replicate]
      simp
    · intro b hb
      rw [decide_eq_true_eq]
      rintro rfl
      exact hzero hb
  rw [fieldText, htext, Text.decodeUtf8_encodeUtf8]

theorem Dialect.length_mark (d : Dialect) : d.mark.length = 6 := by
  cases d with
  | posix front => rfl
  | other mark area isOther => exact Vector.length_toList

theorem Dialect.length_area (d : Dialect) : d.area.length = 155 := by
  cases d with
  | posix front => exact front.length_bytes
  | other mark area isOther => exact Vector.length_toList

/-- The leading part of a name is only read in headers that have one. -/
theorem Dialect.front_eq (d : Dialect) :
    (if d.mark = posixMagic then fieldText d.area else "") = d.front := by
  cases d with
  | posix front => exact (if_pos rfl).trans front.fieldText_bytes
  | other mark area isOther => exact if_neg isOther

theorem Member.length_header (m : Member) : m.header.length = blockSize := by
  simp only [header, List.length_append, FieldValue.length_bytes, Vector.length_toList,
    length_sizeField, List.length_singleton, Dialect.length_mark, Dialect.length_area]
  rfl

/-- The fields that are read lie where they are looked for. Those in front of each are passed
over by their lengths, and then it is the next one. -/
theorem fieldOf_header (m : Member) :
    fieldOf m.header 0 100 = m.name.bytes
      ∧ fieldOf m.header 124 12 = sizeField m.data.length
      ∧ fieldOf m.header 156 1 = [m.kind]
      ∧ fieldOf m.header 257 6 = m.dialect.mark
      ∧ fieldOf m.header 345 155 = m.dialect.area := by
  simp only [Member.header, List.append_assoc, fieldOf_skip, fieldOf_here,
    FieldValue.length_bytes, Vector.length_toList, length_sizeField, List.length_singleton,
    Dialect.length_mark, Dialect.length_area, Nat.reduceLeDiff, Nat.reduceSub, and_self]

/-- **Headers.** What a header says is what it was written for. -/
theorem ofBlock_header (m : Member) :
    Header.ofBlock m.header = ⟨m.path, some (m.data.length : Int), m.isRegular⟩ := by
  obtain ⟨hname, hsize, hkind, hmark, harea⟩ := fieldOf_header m
  have hpath : (if m.dialect.front.isEmpty then m.name.text
      else m.dialect.front ++ "/" ++ m.name.text) = m.path := by
    simp only [Member.path, String.isEmpty_iff]
  have hregular : (decide ([m.kind] = [0x30]) || decide ([m.kind] = [0])) = m.isRegular := by
    simp only [Member.isRegular, isRegularKind, List.cons.injEq, and_true]
  unfold Header.ofBlock
  simp only [hname, hsize, hkind, hmark, harea, m.name.fieldText_bytes, Dialect.front_eq,
    sizeOf?_sizeField m.isShort]
  rw [hpath, hregular]

/-- A header is no block of zeros: the digits of the size are none. -/
theorem header_not_zeros (m : Member) : m.header.all (· = 0) = false := by
  obtain ⟨-, hsize, -⟩ := fieldOf_header m
  obtain ⟨digit, others, hcons⟩ := List.exists_cons_of_ne_nil (octalDigits_ne_nil 10 m.data.length)
  have hmem : digit ∈ m.header := by
    have hfield : digit ∈ sizeField m.data.length := by
      rw [sizeField, hcons]
      exact List.mem_append_left _ List.mem_cons_self
    rw [← hsize] at hfield
    exact List.mem_of_mem_drop (List.mem_of_mem_take hfield)
  have hdigits : digit ∈ octalDigits 11 m.data.length := by
    rw [hcons]
    exact List.mem_cons_self
  obtain ⟨d, hd, hdigit⟩ := exists_of_mem_octalDigits hdigits
  rw [List.all_eq_false]
  refine ⟨digit, hmem, ?_⟩
  rw [decide_eq_true_eq]
  rintro rfl
  have hplain := (octalByte_plain d hd).1
  rw [← hdigit] at hplain
  cases hplain

/-! ## One header -/

/-- Bytes between two places inside the archive. -/
theorem between_append (front middle rest : Bytes) {stop : Int}
    (hstop : stop = front.length + middle.length) :
    between (front ++ (middle ++ rest)) front.length stop = middle := by
  have hindex (n : Nat) (hn : n ≤ (front ++ (middle ++ rest)).length) :
      indexOf (front ++ (middle ++ rest)).length (n : Int) = n := by
    rw [indexOf, if_neg (by omega), Int.toNat_natCast, Nat.min_eq_left hn]
  simp only [List.length_append] at hindex
  have hfirst := hindex front.length (by omega)
  have hlast := hindex (front.length + middle.length) (by omega)
  rw [between, hstop, ← Int.natCast_add, List.length_append, List.length_append]
  simp only [hfirst, hlast]
  rw [List.drop_left, Nat.add_sub_cancel_left, List.take_left]

/-- **One header.** At a header that states a size the walk goes on behind the content, filled up
to whole blocks. Of a named regular file it finds as many bytes as are stated, or reports that
there are fewer. -/
theorem step_header (front : Bytes) {header behind : Bytes} {size : Nat}
    (hlength : header.length = blockSize) (hsome : header.all (· = 0) = false)
    (hsize : (Header.ofBlock header).size = some (size : Int))
    (hroom : blockSize ≤ behind.length) :
    step (front ++ (header ++ behind)) front.length
      = .next (front.length + blockSize + paddedSize size) (
          if !(Header.ofBlock header).isRegular || (Header.ofBlock header).name.isEmpty then none
          else if behind.length < size then
            some (.warning ⟨.truncated size behind.length, (Header.ofBlock header).name,
              front.length + blockSize⟩)
          else some (.entry ⟨(Header.ofBlock header).name, size, behind.take size⟩)) := by
  -- the numbers of the walk in terms of the parts of the archive
  have harchive : ((front ++ (header ++ behind)).length : Int)
      = front.length + blockSize + behind.length := by
    rw [List.length_append, List.length_append, hlength]
    omega
  have hblock : between (front ++ (header ++ behind)) front.length (front.length + blockSize)
      = header := between_append front header behind (by rw [hlength])
  have hcut : ((front ++ (header ++ behind)).length : Int) < front.length + blockSize + size
      ↔ behind.length < size := by omega
  have hleft : ((front ++ (header ++ behind)).length - (front.length + blockSize : Int)).toNat
      = behind.length := by omega
  unfold step
  rw [if_neg (by omega)]
  dsimp only
  rw [hblock, if_neg (by rw [hsome]; decide), hsize]
  dsimp only
  simp only [hcut, hleft]
  by_cases hfits : behind.length < size
  · simp only [if_pos hfits]
  · have hplace : (front.length : Int) + blockSize = (front ++ header).length := by
      rw [List.length_append, hlength, Int.natCast_add]
    have hcontent : between (front ++ (header ++ behind)) (front.length + blockSize)
        (front.length + blockSize + size) = behind.take size := by
      have hcopy : between (front ++ header ++ (behind.take size ++ behind.drop size))
          (front ++ header).length ((front ++ header).length + size) = behind.take size :=
        between_append _ _ _ (by rw [List.length_take_of_le (Nat.le_of_not_lt hfits)])
      rwa [List.take_append_drop, List.append_assoc, ← hplace] at hcopy
    simp only [if_neg hfits, hcontent]

/-! ## One member -/

theorem length_bytes_member (m : Member) :
    (m.bytes.length : Int) = blockSize + paddedSize m.data.length := by
  obtain ⟨hlower, hupper, hmod⟩ := paddedSize_bounds m.data.length
  rw [Member.bytes, List.length_append, List.length_append, Member.length_header,
    List.length_replicate]
  rw [blockSize] at *
  omega

theorem Member.path_ne_empty (m : Member) (h : m.name.text ≠ "") : m.path ≠ "" := by
  unfold path
  split
  · exact h
  · intro hempty
    have hslash := congrArg String.toList hempty
    simp at hslash

/-- **One member.** At a header that was written the walk finds the member, if it is a regular
file, and goes on behind it; nothing else in the archive matters, as long as two blocks are
left. -/
theorem step_member (front : Bytes) (m : Member) {rest : Bytes}
    (h : 2 * blockSize ≤ rest.length) :
    step (front ++ (m.bytes ++ rest)) front.length
      = .next ((front ++ m.bytes).length : Int)
          (if m.isRegular then some (.entry m.entry) else none) := by
  have hlength := length_bytes_member m
  -- the archive from the header on, cut at the ends of the header and of the content
  have hcut : m.bytes ++ rest = m.header ++ (m.data
      ++ (List.replicate ((blockSize - m.data.length % blockSize) % blockSize) 0 ++ rest)) := by
    simp only [Member.bytes, List.append_assoc]
  have hsize : (Header.ofBlock m.header).size = some (m.data.length : Int) := by
    rw [ofBlock_header]
  have hnext : (front.length : Int) + blockSize + paddedSize m.data.length
      = (front ++ m.bytes).length := by
    rw [List.length_append]
    omega
  rw [hcut, step_header front m.length_header (header_not_zeros m) hsize
    (by simp only [List.length_append]; omega), hnext, ofBlock_header]
  dsimp only
  by_cases hregular : m.isRegular
  · have hnamed : m.path.isEmpty = false := by
      rw [← Bool.not_eq_true, String.isEmpty_iff]
      exact m.path_ne_empty (m.isNamed hregular)
    rw [if_pos hregular, if_neg (by rw [hregular, hnamed]; decide),
      if_neg (by rw [List.length_append]; omega), List.take_left]
    rfl
  · rw [if_neg hregular, if_pos (by rw [Bool.eq_false_iff.mpr hregular]; rfl)]

/-! ## All members -/

/-- What a walk finds at a member. -/
def Member.findings (m : Member) : List Finding :=
  if m.isRegular then [.entry m.entry] else []

/-- Behind the last member the walk is at its end. -/
theorem step_end (front : Bytes) : step (front ++ write []) front.length = .stop := by
  have hwrite : write [] = List.replicate blockSize 0 ++ List.replicate blockSize 0 := by
    rw [List.replicate_append_replicate]
    rfl
  have hblock : between (front ++ write []) front.length (front.length + blockSize)
      = List.replicate blockSize 0 := by
    rw [hwrite]
    exact between_append front _ _ (by rw [List.length_replicate])
  refine step_eq_stop fun hheader => ?_
  obtain ⟨-, hsome⟩ := hheader
  rw [hblock, List.all_replicate] at hsome
  cases hsome

/-- **All members.** From the place where some members begin, the walk finds these members one
after the other, and then the end. -/
theorem walk_write (members : List Member) (front : Bytes) {steps : Nat}
    (h : members.length < steps) :
    walk (front ++ write members) steps front.length
      = some (members.flatMap Member.findings) := by
  induction members generalizing front steps with
  | nil =>
    obtain ⟨steps, rfl⟩ := Nat.exists_eq_add_one_of_ne_zero (Nat.ne_zero_of_lt h)
    rw [walk, step_end]
    rfl
  | cons m members ih =>
    obtain ⟨steps, rfl⟩ := Nat.exists_eq_add_one_of_ne_zero (Nat.ne_zero_of_lt h)
    have hwrite : write (m :: members) = m.bytes ++ write members := by
      rw [write, write, List.flatMap_cons, List.append_assoc]
    have hroom : 2 * blockSize ≤ (write members).length := by
      rw [write, List.length_append, List.length_replicate]
      exact Nat.le_add_left _ _
    -- with one step less the walk stands behind the member, which has joined what is in front
    have hrest := ih (front ++ m.bytes) (Nat.lt_of_succ_lt_succ h)
    rw [List.append_assoc] at hrest
    rw [hwrite, walk, step_member front m hroom]
    dsimp only
    rw [hrest, Option.map_some, List.flatMap_cons, Member.findings]
    split
    · rfl
    · rfl

/-- What is found are the regular files, and nothing is reported. -/
theorem ofFindings_flatMap (members : List Member) :
    Reading.ofFindings (members.flatMap Member.findings)
      = ⟨(members.filter Member.isRegular).map Member.entry, []⟩ := by
  induction members with
  | nil => rfl
  | cons m members ih =>
    unfold Reading.ofFindings at ih ⊢
    simp only [Reading.mk.injEq] at ih ⊢
    obtain ⟨hentries, hwarnings⟩ := ih
    rw [List.flatMap_cons, List.filterMap_append, List.filterMap_append, hentries, hwarnings]
    by_cases hregular : m.isRegular
    · rw [List.filter_cons_of_pos hregular, Member.findings, if_pos hregular]
      exact ⟨rfl, rfl⟩
    · rw [List.filter_cons_of_neg hregular, Member.findings, if_neg hregular]
      exact ⟨rfl, rfl⟩

/-- Where every part has a byte, there are no more parts than bytes. -/
theorem length_le_length_flatMap {α : Type} {bytes : α → Bytes} {parts : List α}
    (h : ∀ part ∈ parts, bytes part ≠ []) : parts.length ≤ (parts.flatMap bytes).length := by
  induction parts with
  | nil => exact Nat.le_refl _
  | cons part parts ih =>
    obtain ⟨hpart, hparts⟩ := List.forall_mem_cons.mp h
    have hpos := List.length_pos_iff.mpr hpart
    have hfewer := ih hparts
    rw [List.length_cons, List.flatMap_cons, List.length_append]
    omega

/-- There are fewer members than bytes, so the walk is not broken off. -/
theorem length_lt_stepLimit (members : List Member) :
    members.length < stepLimit (write members) := by
  have hbytes : members.length ≤ (members.flatMap Member.bytes).length := by
    refine length_le_length_flatMap fun m _ hempty => ?_
    have hlength := length_bytes_member m
    obtain ⟨hlower, -, -⟩ := paddedSize_bounds m.data.length
    rw [hempty, List.length_nil, blockSize] at hlength
    omega
  rw [stepLimit, write, List.length_append, List.length_replicate, blockSize]
  omega

/-- **Reading undoes writing.** An archive of any members is read as the regular files among
them, in order, with their names, sizes and contents, and without a warning. -/
theorem read?_write (members : List Member) :
    read? (write members)
      = some ⟨(members.filter Member.isRegular).map Member.entry, []⟩ := by
  have hwalk : walk (write members) (stepLimit (write members)) 0
      = some (members.flatMap Member.findings) :=
    walk_write members [] (length_lt_stepLimit members)
  rw [read?, hwalk, Option.map_some, ofFindings_flatMap]

/-- A member whose header says no more than it must. -/
def Member.plain (kind : UInt8) (front : FieldValue 155) (name : FieldValue 100) (data : Bytes)
    (isNamed : name.text ≠ "" := by decide) (isShort : data.length < sizeLimit := by decide) :
    Member :=
  { name, kind, data, isShort
    dialect := .posix front
    isNamed := fun _ => isNamed
    access := Vector.replicate 24 0
    stamps := Vector.replicate 20 0
    target := Vector.replicate 100 0
    owners := Vector.replicate 82 0
    reserve := Vector.replicate 12 0 }

/-- A directory is passed over, and a content may consist of zeros. -/
example : read? (write [.plain 0x35 { text := "" } { text := "logs" } [0x61],
      .plain 0x30 { text := "logs" } { text := "a.log" } [0, 0]])
    = some ⟨[⟨"logs/a.log", 2, [0, 0]⟩], []⟩ := by
  decide +kernel

end Archive

end LogSearch
