/-
Reading gzip headers.

The header of a gzip member is a row of fields, some of which are only there if a flag says so.
Each field is read exactly where it is written, so the strict reader gets to the end of what can be
written as a header and to nothing else (`skipGzipHeader_eq_ok_iff`).

The other reader takes headers lightly. It passes all that are written (`passHeader?_append`), and
more bytes at the end make no difference to what it passes (`passHeader?_more`), except that
a text without an end reaches to the end of the file. In that case nothing is left behind the
header.
-/
import LogSearch.Chain
import LogSearch.Deflate.Members
import LogSearch.Deflate.Writing

set_option autoImplicit false

namespace LogSearch.Deflate

/-! ## Numbers as they are written -/

section Numbers

variable {width n : Nat} {bytes rest : Bytes} {hle : rest.length ≤ bytes.length}

theorem length_lowFirst (width n : Nat) : (lowFirst width n).length = width := by
  induction width generalizing n with
  | zero => rfl
  | succ width ih => rw [lowFirst, List.length_cons, ih]

theorem littleEndian_cons (b : UInt8) (bytes : Bytes) :
    littleEndian (b :: bytes) = b.toNat + 256 * littleEndian bytes :=
  rfl

theorem littleEndian_four (a b c d : UInt8) :
    littleEndian [a, b, c, d]
      = a.toNat + 256 * b.toNat + 65536 * c.toNat + 16777216 * d.toNat := by
  show a.toNat + 256 * (b.toNat + 256 * (c.toNat + 256 * (d.toNat + 256 * 0))) = _
  omega

/-- A number that is written is read again, up to what its width leaves out. -/
theorem littleEndian_lowFirst (width n : Nat) :
    littleEndian (lowFirst width n) = n % Nat.pow 256 width := by
  induction width generalizing n with
  | zero => exact (Nat.mod_one n).symm
  | succ width ih =>
    have hlow : (UInt8.ofNat (n % 256)).toNat = n % 256 :=
      UInt8.toNat_ofNat_of_lt' (Nat.mod_lt _ (by decide))
    have hpow : Nat.pow 256 (width + 1) = 256 * Nat.pow 256 width := Nat.mul_comm _ _
    rw [lowFirst, littleEndian_cons, hlow, ih, hpow, Nat.mod_mul]

/-- Numbers of one width have one spelling. -/
theorem littleEndian_injective {front back : Bytes} (hlength : front.length = back.length)
    (h : littleEndian front = littleEndian back) : front = back := by
  induction front generalizing back with
  | nil => exact (List.eq_nil_of_length_eq_zero hlength.symm).symm
  | cons b front ih =>
    cases back with
    | nil => cases hlength
    | cons b' back =>
      rw [littleEndian_cons, littleEndian_cons] at h
      have hb := b.toNat_lt
      have hb' := b'.toNat_lt
      have hlow : b = b' := UInt8.toNat_inj.mp (by omega)
      rw [hlow, ih (Nat.succ.inj hlength) (by omega)]

theorem littleEndian_lt (bytes : Bytes) : littleEndian bytes < Nat.pow 256 bytes.length := by
  induction bytes with
  | nil => exact Nat.one_pos
  | cons b bytes ih =>
    have hb := b.toNat_lt
    have hpow : Nat.pow 256 (bytes.length + 1) = 256 * Nat.pow 256 bytes.length := Nat.mul_comm _ _
    rw [littleEndian_cons, List.length_cons, hpow]
    omega

theorem lowFirst_mod (width n : Nat) :
    lowFirst width (n % Nat.pow 256 width) = lowFirst width n := by
  refine littleEndian_injective ?_ ?_
  · rw [length_lowFirst, length_lowFirst]
  · rw [littleEndian_lowFirst, littleEndian_lowFirst, Nat.mod_mod]

/-- A number is read where it is written. -/
theorem takeNumber?_eq_some_iff_lowFirst :
    takeNumber? width bytes = some ⟨n, rest, hle⟩
      ↔ n < Nat.pow 256 width ∧ lowFirst width n ++ rest = bytes := by
  constructor
  · intro h
    obtain ⟨front, rfl, rfl, rfl⟩ := exists_front_of_takeNumber? h
    have hlt := littleEndian_lt front
    refine ⟨hlt, congrArg (· ++ rest) (littleEndian_injective (length_lowFirst _ _) ?_)⟩
    rw [littleEndian_lowFirst, Nat.mod_eq_of_lt hlt]
  · rintro ⟨hlt, rfl⟩
    rw [takeNumber?_front (length_lowFirst width n)]
    simp only [littleEndian_lowFirst, Nat.mod_eq_of_lt hlt]

end Numbers

/-! ## The fields of a header -/

section Fields

variable {present : Bool} {bytes rest : Bytes}

theorem orUnfinished_eq_ok_iff {α : Type} {x : Option α} {a : α} :
    orUnfinished x = .ok a ↔ x = some a := by
  cases x with
  | none => exact iff_of_false (fun h => nomatch h) (fun h => nomatch h)
  | some b => rw [orUnfinished, Except.ok.injEq, Option.some.injEq]

theorem orUnfinished_bind {α β : Type} (x : Option α) (f : α → Option β) :
    orUnfinished (x >>= f) = orUnfinished x >>= fun a => orUnfinished (f a) := by
  cases x <;> rfl

/-- The bytes behind the field of any bytes, if the header has it. -/
def passExtra? (present : Bool) (bytes : Bytes) : Option Bytes := do
  if present then
    let ⟨length, rest, _⟩ ← takeNumber? 2 bytes
    let ⟨_, rest, _⟩ ← takeField? length rest
    return rest
  else return bytes

/-- The bytes behind the checksum of the header of a stream, if there is one. -/
def skipHeaderCheck (present : Bool) (stream bytes : Bytes) : Except StreamError Bytes := do
  if present then
    let header := stream.take (stream.length - bytes.length)
    let ⟨check, rest, _⟩ ← orUnfinished (takeNumber? 2 bytes)
    if check ≠ (Checksum.crc32 header).toNat % 65536 then throw .headerChecksum
    return rest
  else return bytes

/-- The fields of a header one after the other. -/
theorem skipGzipHeader_eq (stream : Bytes) : skipGzipHeader stream = (do
    let ⟨start, rest, _⟩ ← orUnfinished (takeNumber? 4 stream)
    if start / 65536 % 256 ≠ 8 then throw .method
    if 32 ≤ start / 16777216 then throw .headerFlags
    let flags := GzipFlags.ofNat (start / 16777216)
    let ⟨_, rest, _⟩ ← orUnfinished (takeField? 6 rest)
    let rest ← orUnfinished (passExtra? flags.extra rest)
    let rest ← skipZeroEnded flags.name rest
    let rest ← skipZeroEnded flags.comment rest
    skipHeaderCheck flags.headerChecksum stream rest) := by
  unfold skipGzipHeader passExtra? skipHeaderCheck
  refine bind_congr fun start => ?_
  dsimp only
  split
  · rfl
  split
  · rfl
  refine bind_congr fun details => ?_
  cases (GzipFlags.ofNat (start.value / 16777216)).extra with
  | false => rfl
  | true =>
    simp only [if_true, orUnfinished_bind, bind_assoc]
    rfl

theorem passExtra?_eq_some_iff : passExtra? present bytes = some rest
    ↔ ∃ extra? : Option ExtraField,
      extra?.isSome = present ∧ extraField extra? ++ rest = bytes := by
  constructor
  · intro h
    cases present with
    | false => exact ⟨none, rfl, (Option.some.inj h).symm⟩
    | true =>
      obtain ⟨⟨length, rest₁, hle₁⟩, hnumber, h⟩ := Option.bind_eq_some_iff.mp h
      obtain ⟨⟨field, rest₂, hle₂⟩, hfield, h⟩ := Option.bind_eq_some_iff.mp h
      cases h
      obtain ⟨hshort, rfl⟩ := takeNumber?_eq_some_iff_lowFirst.mp hnumber
      obtain ⟨rfl, rfl⟩ := takeField?_eq_some_iff.mp hfield
      exact ⟨some ⟨field, hshort⟩, rfl, List.append_assoc ..⟩
  · rintro ⟨_ | field, rfl, rfl⟩
    · rfl
    · have hle : (field.bytes ++ rest).length ≤ (extraField (some field) ++ rest).length := by
        rw [extraField, List.append_assoc]
        exact (List.sublist_append_right _ _).length_le
      have hnumber : takeNumber? 2 (extraField (some field) ++ rest)
          = some ⟨field.bytes.length, field.bytes ++ rest, hle⟩ :=
        takeNumber?_eq_some_iff_lowFirst.mpr ⟨field.isShort, (List.append_assoc ..).symm⟩
      rw [passExtra?, Option.isSome_some, if_pos rfl, hnumber]
      exact Option.bind_eq_some_iff.mpr
        ⟨_, rfl, Option.bind_eq_some_iff.mpr ⟨_, takeField?_front rfl rest, rfl⟩⟩

theorem skipZeroEnded_eq_ok_iff : skipZeroEnded present bytes = .ok rest
    ↔ ∃ text? : Option ZeroFree, text?.isSome = present ∧ zeroEnded text? ++ rest = bytes := by
  constructor
  · intro h
    cases present with
    | false => exact ⟨none, rfl, (Except.ok.inj h).symm⟩
    | true =>
      obtain ⟨front, hfront, rfl⟩ := afterZero?_eq_some_iff.mp (orUnfinished_eq_ok_iff.mp h)
      exact ⟨some ⟨front, hfront⟩, rfl, List.append_assoc ..⟩
  · rintro ⟨_ | text, rfl, rfl⟩
    · rfl
    · exact orUnfinished_eq_ok_iff.mpr
        (afterZero?_eq_some_iff.mpr ⟨text.bytes, text.zeroFree, by
          rw [zeroEnded, List.append_assoc, List.singleton_append]⟩)

/-- The checksum is about what stands in front of it. -/
theorem skipHeaderCheck_eq_ok_iff {front : Bytes} :
    skipHeaderCheck present (front ++ bytes) bytes = .ok rest
      ↔ headerCheck present front ++ rest = bytes := by
  have hheader : (front ++ bytes).take ((front ++ bytes).length - bytes.length) = front := by
    rw [List.length_append, Nat.add_sub_cancel, List.take_left]
  cases present with
  | false => exact ⟨fun h => (Except.ok.inj h).symm, fun h => congrArg Except.ok h.symm⟩
  | true =>
    rw [skipHeaderCheck, if_pos rfl, headerCheck, if_pos rfl, hheader, bind_eq_ok_iff]
    constructor
    · rintro ⟨⟨check, rest₁, hle⟩, hnumber, h⟩
      dsimp only at h
      split at h
      · cases h
      rename_i hcheck
      cases h
      have hbytes :=
        (takeNumber?_eq_some_iff_lowFirst.mp (orUnfinished_eq_ok_iff.mp hnumber)).2
      rw [Classical.not_not.mp hcheck] at hbytes
      rw [← hbytes, ← lowFirst_mod]
    · rintro rfl
      have hcheck := takeNumber?_front (length_lowFirst 2 (Checksum.crc32 front).toNat) rest
      have hvalue : littleEndian (lowFirst 2 (Checksum.crc32 front).toNat)
          = (Checksum.crc32 front).toNat % 65536 := littleEndian_lowFirst 2 _
      refine ⟨_, orUnfinished_eq_ok_iff.mpr hcheck, ?_⟩
      dsimp only
      rw [if_neg (not_not_intro hvalue)]
      rfl

end Fields

/-! ## Headers -/

namespace GzipHeader

variable (h : GzipHeader)

theorem flags_lt : h.flags < 32 := by
  have h₁ := h.isText.toNat_le
  have h₂ := h.hasChecksum.toNat_le
  have h₃ := h.extra?.isSome.toNat_le
  have h₄ := h.name?.isSome.toNat_le
  have h₅ := h.comment?.isSome.toNat_le
  unfold flags
  omega

/-- The flags say which fields there are. -/
theorem ofNat_flags : GzipFlags.ofNat h.flags
    = ⟨h.hasChecksum, h.extra?.isSome, h.name?.isSome, h.comment?.isSome⟩ := by
  unfold flags
  generalize h.isText = a, h.hasChecksum = b, h.extra?.isSome = c, h.name?.isSome = d,
    h.comment?.isSome = e
  cases a <;> cases b <;> cases c <;> cases d <;> cases e <;> rfl

/-- The fields of a header one after the other. -/
theorem bytes_append (rest : Bytes) :
    h.bytes ++ rest = [0x1F, 0x8B, 8, UInt8.ofNat h.flags] ++ (h.details.toList
      ++ (extraField h.extra? ++ (zeroEnded h.name? ++ (zeroEnded h.comment?
      ++ (headerCheck h.hasChecksum h.start ++ rest))))) := by
  simp only [bytes, List.append_assoc]
  simp only [start, List.append_assoc]

/-- The number that the first four bytes make. -/
theorem littleEndian_start :
    littleEndian [0x1F, 0x8B, 8, UInt8.ofNat h.flags] = 0x088B1F + 16777216 * h.flags := by
  have hflags : (UInt8.ofNat h.flags).toNat = h.flags :=
    UInt8.toNat_ofNat_of_lt' (Nat.lt_trans h.flags_lt (by decide))
  rw [littleEndian_four, hflags]
  rfl

/-- Flags without those that mean nothing, and the fields that they announce, make a header. -/
theorem exists_of_fields {n : Nat} {details : Bytes} {extra? : Option ExtraField}
    {name? comment? : Option ZeroFree} (hn : n < 32) (hdetails : details.length = 6)
    (hextra : extra?.isSome = (GzipFlags.ofNat n).extra)
    (hname : name?.isSome = (GzipFlags.ofNat n).name)
    (hcomment : comment?.isSome = (GzipFlags.ofNat n).comment) :
    ∃ h : GzipHeader, h.hasChecksum = (GzipFlags.ofNat n).headerChecksum
      ∧ h.start = [0x1F, 0x8B, 8, UInt8.ofNat n] ++ details ++ extraField extra?
        ++ zeroEnded name? ++ zeroEnded comment? := by
  have hbits : ∀ n : Fin 32, (n.val.testBit 0).toNat + 2 * (n.val.testBit 1).toNat
      + 4 * (n.val.testBit 2).toNat + 8 * (n.val.testBit 3).toNat
      + 16 * (n.val.testBit 4).toNat = n.val := by decide
  have hflags : (n.testBit 0).toNat + 2 * (n.testBit 1).toNat
      + 4 * (GzipFlags.ofNat n).extra.toNat + 8 * (GzipFlags.ofNat n).name.toNat
      + 16 * (GzipFlags.ofNat n).comment.toNat = n := hbits ⟨n, hn⟩
  refine ⟨⟨n.testBit 0, ⟨details.toArray, hdetails⟩, extra?, name?, comment?, n.testBit 1⟩, rfl, ?_⟩
  simp only [start, flags, hextra, hname, hcomment, hflags]
  rfl

end GzipHeader

/-- The first four bytes of a header hold the flags. -/
theorem mark_of_takeNumber? {stream rest : Bytes} {start : Nat} {hle : rest.length ≤ stream.length}
    (hmark : isGzip stream) (hstart : takeNumber? 4 stream = some ⟨start, rest, hle⟩)
    (hmethod : start / 65536 % 256 = 8) :
    [0x1F, 0x8B, 8, UInt8.ofNat (start / 16777216)] ++ rest = stream := by
  obtain ⟨front, hfront, rfl, rfl⟩ := exists_front_of_takeNumber? hstart
  obtain ⟨a, b, c, d, rfl⟩ : ∃ a b c d, front = [a, b, c, d] :=
    match front, hfront with
    | [a, b, c, d], _ => ⟨a, b, c, d, rfl⟩
  have hmark : [a, b] = [0x1F, 0x8B] := of_decide_eq_true hmark
  -- the digits of the number to the base 256 are the bytes
  have ha := a.toNat_lt
  have hb := b.toNat_lt
  have hc := c.toNat_lt
  rw [littleEndian_four] at hmethod ⊢
  have hd : (a.toNat + 256 * b.toNat + 65536 * c.toNat + 16777216 * d.toNat) / 16777216
      = d.toNat := by omega
  have hc : c = 8 := UInt8.toNat_inj.mp (show c.toNat = 8 by omega)
  rw [hd, UInt8.ofNat_toNat, hc]
  cases hmark
  rfl

/-- **Headers.** Behind the mark of gzip the reader gets to the end of a header, and only there. -/
theorem skipGzipHeader_eq_ok_iff {stream rest : Bytes} (hmark : isGzip stream) :
    skipGzipHeader stream = .ok rest ↔ ∃ h : GzipHeader, h.bytes ++ rest = stream := by
  rw [skipGzipHeader_eq]
  constructor
  · intro h
    obtain ⟨⟨start, rest₁, hle₁⟩, hstart, h⟩ := exists_of_bind_eq_ok h
    dsimp only at h
    split at h
    · cases h
    rename_i hmethod
    split at h
    · cases h
    rename_i hflags
    obtain ⟨⟨details, rest₂, hle₂⟩, hdetails, h⟩ := exists_of_bind_eq_ok h
    obtain ⟨rest₃, hextra, h⟩ := exists_of_bind_eq_ok h
    obtain ⟨rest₄, hname, h⟩ := exists_of_bind_eq_ok h
    obtain ⟨rest₅, hcomment, hcheck⟩ := exists_of_bind_eq_ok h
    -- each reader has taken the field that it is for, and the fields together are a header
    have hstream := mark_of_takeNumber? hmark (orUnfinished_eq_ok_iff.mp hstart)
      (Classical.not_not.mp hmethod)
    obtain ⟨hlength, rfl⟩ := takeField?_eq_some_iff.mp (orUnfinished_eq_ok_iff.mp hdetails)
    obtain ⟨extra?, hasExtra, rfl⟩ := passExtra?_eq_some_iff.mp (orUnfinished_eq_ok_iff.mp hextra)
    obtain ⟨name?, hasName, rfl⟩ := skipZeroEnded_eq_ok_iff.mp hname
    obtain ⟨comment?, hasComment, rfl⟩ := skipZeroEnded_eq_ok_iff.mp hcomment
    obtain ⟨header, hpresent, hheader⟩ := GzipHeader.exists_of_fields (Nat.lt_of_not_le hflags)
      hlength hasExtra hasName hasComment
    have hparts : header.start ++ rest₅ = stream := by
      rw [hheader, ← hstream]
      simp only [List.append_assoc]
    rw [← hparts, ← hpresent, skipHeaderCheck_eq_ok_iff] at hcheck
    exact ⟨header, by rw [GzipHeader.bytes, List.append_assoc, hcheck, hparts]⟩
  · rintro ⟨h, rfl⟩
    -- the flags that are read are those that were written, so the readers look for the right fields
    have hvalue := h.littleEndian_start
    have hflags := h.flags_lt
    have hcheck : skipHeaderCheck h.hasChecksum (h.bytes ++ rest)
        (headerCheck h.hasChecksum h.start ++ rest) = .ok rest := by
      rw [GzipHeader.bytes, List.append_assoc]
      exact skipHeaderCheck_eq_ok_iff.mpr rfl
    rw [h.bytes_append] at hcheck ⊢
    refine bind_eq_ok_iff.mpr ⟨_, orUnfinished_eq_ok_iff.mpr (takeNumber?_front rfl _), ?_⟩
    dsimp only
    rw [if_neg (by omega), if_neg (by omega),
      show littleEndian [0x1F, 0x8B, 8, UInt8.ofNat h.flags] / 16777216 = h.flags by omega,
      h.ofNat_flags]
    refine bind_eq_ok_iff.mpr
      ⟨_, orUnfinished_eq_ok_iff.mpr (takeField?_front h.details.length_toList _), ?_⟩
    refine bind_eq_ok_iff.mpr
      ⟨_, orUnfinished_eq_ok_iff.mpr (passExtra?_eq_some_iff.mpr ⟨h.extra?, rfl, rfl⟩), ?_⟩
    refine bind_eq_ok_iff.mpr ⟨_, skipZeroEnded_eq_ok_iff.mpr ⟨h.name?, rfl, rfl⟩, ?_⟩
    exact bind_eq_ok_iff.mpr ⟨_, skipZeroEnded_eq_ok_iff.mpr ⟨h.comment?, rfl, rfl⟩, hcheck⟩

/-! ## Headers that are taken lightly -/

section Light

variable {present : Bool} {stream bytes rest : Bytes}

/-- The bytes behind the checksum of a header, if there is one. -/
def passHeaderCheck? (present : Bool) (bytes : Bytes) : Option Bytes := do
  if present then return (← takeField? 2 bytes).rest else return bytes

/-- The fields of a header one after the other. -/
theorem passHeader?_eq (stream : Bytes) : passHeader? stream = (do
    let ⟨start, rest, _⟩ ← takeNumber? 4 stream
    guard (start % 65536 = 0x8B1F ∧ start / 65536 % 256 = 8)
    let flags := GzipFlags.ofNat (start / 16777216)
    let ⟨_, rest, _⟩ ← takeField? 6 rest
    let rest ← passExtra? flags.extra rest
    passHeaderCheck? flags.headerChecksum
      (passZeroEnded flags.comment (passZeroEnded flags.name rest))) := by
  unfold passHeader? passExtra? passHeaderCheck?
  refine bind_congr fun start => bind_congr fun _ => bind_congr fun details => ?_
  cases (GzipFlags.ofNat (start.value / 16777216)).extra with
  | false => rfl
  | true =>
    simp only [if_true, bind_assoc]

theorem passZeroEnded_append (text? : Option ZeroFree) (rest : Bytes) :
    passZeroEnded text?.isSome (zeroEnded text? ++ rest) = rest := by
  cases text? with
  | none => rfl
  | some text =>
    rw [passZeroEnded, Option.isSome_some, if_pos rfl, zeroEnded, List.append_assoc,
      List.singleton_append, afterZero?_eq_some_iff.mpr ⟨text.bytes, text.zeroFree, rfl⟩]
    rfl

theorem passHeaderCheck?_append (present : Bool) (start rest : Bytes) :
    passHeaderCheck? present (headerCheck present start ++ rest) = some rest := by
  cases present with
  | false => rfl
  | true =>
    rw [passHeaderCheck?, if_pos rfl, headerCheck, if_pos rfl,
      takeField?_front (length_lowFirst 2 _)]
    rfl

/-- Headers are passed. -/
theorem passHeader?_append (h : GzipHeader) (rest : Bytes) :
    passHeader? (h.bytes ++ rest) = some rest := by
  have hvalue := h.littleEndian_start
  rw [passHeader?_eq, h.bytes_append]
  refine Option.bind_eq_some_iff.mpr ⟨_, takeNumber?_front rfl _, ?_⟩
  refine Option.bind_eq_some_iff.mpr ⟨(), if_pos (by omega), ?_⟩
  rw [show littleEndian [0x1F, 0x8B, 8, UInt8.ofNat h.flags] / 16777216 = h.flags by omega,
    h.ofNat_flags]
  refine Option.bind_eq_some_iff.mpr ⟨_, takeField?_front h.details.length_toList _, ?_⟩
  refine Option.bind_eq_some_iff.mpr ⟨_, passExtra?_eq_some_iff.mpr ⟨h.extra?, rfl, rfl⟩, ?_⟩
  dsimp only
  rw [passZeroEnded_append, passZeroEnded_append]
  exact passHeaderCheck?_append _ _ rest

theorem passZeroEnded_nil (present : Bool) : passZeroEnded present [] = [] := by
  cases present <;> rfl

/-- A text without an end reaches to the end of the file, so something behind a text tells that it
has an end. -/
theorem passZeroEnded_more (h : passZeroEnded present bytes ≠ []) (more : Bytes) :
    passZeroEnded present (bytes ++ more) = passZeroEnded present bytes ++ more := by
  cases present with
  | false => rfl
  | true =>
    rw [passZeroEnded, if_pos rfl] at h
    rw [passZeroEnded, if_pos rfl, passZeroEnded, if_pos rfl]
    cases hzero : afterZero? bytes with
    | none => exact (h (by rw [hzero]; rfl)).elim
    | some rest => rw [afterZero?_append hzero]; rfl

theorem passHeaderCheck?_more (h : passHeaderCheck? present bytes = some rest) (more : Bytes) :
    passHeaderCheck? present (bytes ++ more) = some (rest ++ more) := by
  cases present with
  | false =>
    cases h
    rfl
  | true =>
    obtain ⟨⟨check, rest₁, hle⟩, hcheck, h⟩ := Option.bind_eq_some_iff.mp h
    cases h
    obtain ⟨hle, hcheck⟩ := takeField?_append hcheck more
    exact Option.bind_eq_some_iff.mpr ⟨_, hcheck, rfl⟩

theorem passExtra?_more (h : passExtra? present bytes = some rest) (more : Bytes) :
    passExtra? present (bytes ++ more) = some (rest ++ more) := by
  obtain ⟨extra?, hpresent, rfl⟩ := passExtra?_eq_some_iff.mp h
  exact passExtra?_eq_some_iff.mpr ⟨extra?, hpresent, (List.append_assoc ..).symm⟩

theorem ne_nil_of_passHeaderCheck? (h : passHeaderCheck? present bytes = some rest)
    (hrest : rest ≠ []) : bytes ≠ [] := by
  rintro rfl
  cases present with
  | false =>
    cases h
    exact hrest rfl
  | true => cases h

/-- If something is left behind a header, then more at the end makes no difference to the header. -/
theorem passHeader?_more (h : passHeader? stream = some rest) (hrest : rest ≠ []) (more : Bytes) :
    passHeader? (stream ++ more) = some (rest ++ more) := by
  rw [passHeader?_eq] at h ⊢
  obtain ⟨⟨start, rest₁, hle₁⟩, hstart, h⟩ := Option.bind_eq_some_iff.mp h
  obtain ⟨_, hmark, h⟩ := Option.bind_eq_some_iff.mp h
  obtain ⟨⟨details, rest₂, hle₂⟩, hdetails, h⟩ := Option.bind_eq_some_iff.mp h
  obtain ⟨rest₃, hextra, hcheck⟩ := Option.bind_eq_some_iff.mp h
  have hcomment := ne_nil_of_passHeaderCheck? hcheck hrest
  have hname : passZeroEnded (GzipFlags.ofNat (start / 16777216)).name rest₃ ≠ [] := by
    intro hnil
    rw [hnil, passZeroEnded_nil] at hcomment
    exact hcomment rfl
  obtain ⟨hle₁, hstart⟩ := takeNumber?_append hstart more
  obtain ⟨hle₂, hdetails⟩ := takeField?_append hdetails more
  refine Option.bind_eq_some_iff.mpr ⟨_, hstart, Option.bind_eq_some_iff.mpr ⟨_, hmark, ?_⟩⟩
  refine Option.bind_eq_some_iff.mpr ⟨_, hdetails, ?_⟩
  refine Option.bind_eq_some_iff.mpr ⟨_, passExtra?_more hextra more, ?_⟩
  rw [passZeroEnded_more hname, passZeroEnded_more hcomment]
  exact passHeaderCheck?_more hcheck more

end Light

end LogSearch.Deflate
