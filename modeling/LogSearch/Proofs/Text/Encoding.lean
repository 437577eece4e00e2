/-
Text survives being encoded and decoded.

The decoder reads one character at a time, so everything rests on one character in front of
arbitrary bytes (`decodeChars_append`). The lead byte announces how many bytes follow and
bounds the second one; the encoder never leaves these bounds, because a code point that
needs so many bytes is large enough and no surrogate is a character.

A zero byte only comes from the zero character (`eq_nul_of_zero_mem`), so a text without one
can be ended by a zero. In the same way bytes that start like an encoded text come from a text
that starts so (`toList_eq_of_encodeUtf8_eq`), and no character starts with a byte that announces
none.
-/
import LogSearch.Text.Utf8

set_option autoImplicit false

namespace LogSearch.Text

variable {c : Char} {b : UInt8} {bits : Nat} {low high : UInt8} {rest : Bytes}

/-! ## One character -/

/-- A byte within the bounds adds its six low bits. -/
theorem readFollowing_cons (more : Nat) (hlow : low ≤ b) (hhigh : b ≤ high) :
    readFollowing bits low high (more + 1) (b :: rest)
      = readFollowing (bits * 64 + (b.toNat - 0x80)) 0x80 0xBF more rest := by
  rw [readFollowing, if_pos ⟨hlow, hhigh⟩]

theorem decodeChars_of_lead {lead : LeadByte} {bytes : Bytes} (hlead : leadByte? b = some lead)
    (hread : readFollowing lead.bits lead.low lead.high lead.following bytes
      = (some c.toNat, rest)) :
    decodeChars (b :: bytes) = c :: decodeChars rest := by
  rw [decodeChars, hlead]
  simp only [hread, Option.map_some, Option.getD_some, Char.ofNat_toNat]

/-- A byte from 80 to BF, by its six low bits. -/
theorem toNat_continuation (v : Nat) : (UInt8.ofNat (v % 64 + 128)).toNat = v % 64 + 128 :=
  UInt8.toNat_ofNat_of_lt' (by unfold UInt8.size; omega)

theorem continuation_bounds (v : Nat) :
    (0x80 : UInt8) ≤ UInt8.ofNat (v % 64 + 128) ∧ UInt8.ofNat (v % 64 + 128) ≤ 0xBF := by
  rw [UInt8.le_iff_toNat_le, UInt8.le_iff_toNat_le, toNat_continuation]
  have : (0x80 : UInt8).toNat = 128 := rfl
  have : (0xBF : UInt8).toNat = 191 := rfl
  omega

/-- The lead byte of two. -/
theorem leadByte?_two {v : Nat} (hmin : 0x80 ≤ v) (hmax : v ≤ 0x7FF) :
    leadByte? (UInt8.ofNat (v / 64 % 32 + 192)) = some ⟨v / 64 % 32, 0x80, 0xBF, 1⟩ := by
  have hbyte : (UInt8.ofNat (v / 64 % 32 + 192)).toNat = v / 64 % 32 + 192 :=
    UInt8.toNat_ofNat_of_lt' (by unfold UInt8.size; omega)
  unfold leadByte?
  simp only [hbyte]
  rw [if_neg (by omega), if_neg (by omega), if_pos (by omega), Nat.add_sub_cancel]

/-- The lead byte of three admits the second byte: the bound from below because the code point
needs three bytes, the one from above because it is no surrogate. -/
theorem leadByte?_three {v : Nat} (hmin : 0x800 ≤ v) (hmax : v ≤ 0xFFFF)
    (hvalid : v.isValidChar) :
    ∃ low high, leadByte? (UInt8.ofNat (v / 4096 % 16 + 224)) = some ⟨v / 4096 % 16, low, high, 2⟩
      ∧ low ≤ UInt8.ofNat (v / 64 % 64 + 128) ∧ UInt8.ofNat (v / 64 % 64 + 128) ≤ high := by
  have hbyte : (UInt8.ofNat (v / 4096 % 16 + 224)).toNat = v / 4096 % 16 + 224 :=
    UInt8.toNat_ofNat_of_lt' (by unfold UInt8.size; omega)
  obtain ⟨hlow, hhigh⟩ := continuation_bounds (v / 64)
  unfold leadByte?
  simp only [hbyte]
  rw [if_neg (by omega), if_neg (by omega), if_neg (by omega)]
  by_cases hleast : v / 4096 % 16 + 224 = 0xE0
  · rw [if_pos hleast]
    refine ⟨0xA0, 0xBF, by rw [show v / 4096 % 16 = 0 by omega], ?_, hhigh⟩
    rw [UInt8.le_iff_toNat_le, toNat_continuation]
    show 160 ≤ v / 64 % 64 + 128
    omega
  rw [if_neg hleast]
  by_cases hsurrogate : v / 4096 % 16 + 224 = 0xED
  · rw [if_pos hsurrogate]
    refine ⟨0x80, 0x9F, by rw [show v / 4096 % 16 = 0xD by omega], hlow, ?_⟩
    rw [UInt8.le_iff_toNat_le, toNat_continuation]
    show v / 64 % 64 + 128 ≤ 159
    -- D800 to DFFF are out, and nothing else with this lead byte has a greater second one
    omega
  rw [if_neg hsurrogate, if_pos (by omega)]
  exact ⟨0x80, 0xBF, by rw [Nat.add_sub_cancel], hlow, hhigh⟩

/-- The lead byte of four admits the second byte, since no code point is above 10FFFF. -/
theorem leadByte?_four {v : Nat} (hmin : 0x10000 ≤ v) (hvalid : v.isValidChar) :
    ∃ low high, leadByte? (UInt8.ofNat (v / 262144 % 8 + 240)) = some ⟨v / 262144 % 8, low, high, 3⟩
      ∧ low ≤ UInt8.ofNat (v / 4096 % 64 + 128) ∧ UInt8.ofNat (v / 4096 % 64 + 128) ≤ high := by
  have hbyte : (UInt8.ofNat (v / 262144 % 8 + 240)).toNat = v / 262144 % 8 + 240 :=
    UInt8.toNat_ofNat_of_lt' (by unfold UInt8.size; omega)
  obtain ⟨hlow, hhigh⟩ := continuation_bounds (v / 4096)
  unfold leadByte?
  simp only [hbyte]
  rw [if_neg (by omega), if_neg (by omega), if_neg (by omega), if_neg (by omega),
    if_neg (by omega), if_neg (by omega)]
  by_cases hleast : v / 262144 % 8 + 240 = 0xF0
  · rw [if_pos hleast]
    refine ⟨0x90, 0xBF, by rw [show v / 262144 % 8 = 0 by omega], ?_, hhigh⟩
    rw [UInt8.le_iff_toNat_le, toNat_continuation]
    show 144 ≤ v / 4096 % 64 + 128
    omega
  rw [if_neg hleast]
  by_cases hbelow : v / 262144 % 8 + 240 < 0xF4
  · rw [if_pos hbelow]
    exact ⟨0x80, 0xBF, by rw [Nat.add_sub_cancel], hlow, hhigh⟩
  rw [if_neg hbelow, if_pos (by omega)]
  refine ⟨0x80, 0x8F, by rw [show v / 262144 % 8 = 4 by omega], hlow, ?_⟩
  rw [UInt8.le_iff_toNat_le, toNat_continuation]
  show v / 4096 % 64 + 128 ≤ 143
  omega

/-- **One character.** What the encoder writes for a character is read as that character, and
the bytes behind it are left. -/
theorem decodeChars_append (c : Char) (rest : Bytes) :
    decodeChars (String.utf8EncodeChar c ++ rest) = c :: decodeChars rest := by
  have hvalid : c.toNat.isValidChar := c.valid
  have hcode : c.val.toNat = c.toNat := rfl
  unfold String.utf8EncodeChar
  simp only [hcode]
  -- the cases are those of the encoder: one, two, three and four bytes
  by_cases hone : c.toNat ≤ 0x7F
  · rw [if_pos hone]
    have hbyte : (UInt8.ofNat c.toNat).toNat = c.toNat :=
      UInt8.toNat_ofNat_of_lt' (by unfold UInt8.size; omega)
    have hlead : leadByte? (UInt8.ofNat c.toNat) = some ⟨c.toNat, 0x80, 0xBF, 0⟩ := by
      unfold leadByte?
      simp only [hbyte]
      rw [if_pos (by omega)]
    exact decodeChars_of_lead hlead rfl
  rw [if_neg hone]
  by_cases htwo : c.toNat ≤ 0x7FF
  · rw [if_pos htwo]
    obtain ⟨hlow, hhigh⟩ := continuation_bounds c.toNat
    simp only [List.cons_append, List.nil_append]
    refine decodeChars_of_lead (leadByte?_two (by omega) htwo) ?_
    have hsum : c.toNat / 64 % 32 * 64 + (c.toNat % 64 + 128 - 0x80) = c.toNat := by omega
    rw [readFollowing_cons 0 hlow hhigh, readFollowing, toNat_continuation, hsum]
  rw [if_neg htwo]
  by_cases hthree : c.toNat ≤ 0xFFFF
  · rw [if_pos hthree]
    obtain ⟨low, high, hlead, hlow, hhigh⟩ := leadByte?_three (by omega) hthree hvalid
    obtain ⟨hlow', hhigh'⟩ := continuation_bounds c.toNat
    simp only [List.cons_append, List.nil_append]
    refine decodeChars_of_lead hlead ?_
    have hsum : (c.toNat / 4096 % 16 * 64 + (c.toNat / 64 % 64 + 128 - 0x80)) * 64
        + (c.toNat % 64 + 128 - 0x80) = c.toNat := by omega
    rw [readFollowing_cons 1 hlow hhigh, readFollowing_cons 0 hlow' hhigh', readFollowing,
      toNat_continuation, toNat_continuation, hsum]
  · rw [if_neg hthree]
    obtain ⟨low, high, hlead, hlow, hhigh⟩ := leadByte?_four (by omega) hvalid
    obtain ⟨hlow₂, hhigh₂⟩ := continuation_bounds (c.toNat / 64)
    obtain ⟨hlow₃, hhigh₃⟩ := continuation_bounds c.toNat
    simp only [List.cons_append, List.nil_append]
    refine decodeChars_of_lead hlead ?_
    have hbound : c.toNat < 0x110000 := by omega
    have hsum : ((c.toNat / 262144 % 8 * 64 + (c.toNat / 4096 % 64 + 128 - 0x80)) * 64
        + (c.toNat / 64 % 64 + 128 - 0x80)) * 64 + (c.toNat % 64 + 128 - 0x80) = c.toNat := by
      omega
    rw [readFollowing_cons 2 hlow hhigh, readFollowing_cons 1 hlow₂ hhigh₂,
      readFollowing_cons 0 hlow₃ hhigh₃, readFollowing, toNat_continuation, toNat_continuation,
      toNat_continuation, hsum]

/-! ## Texts -/

/-- Characters in front of arbitrary bytes. -/
theorem decodeChars_flatMap_append (cs : List Char) (rest : Bytes) :
    decodeChars (cs.flatMap String.utf8EncodeChar ++ rest) = cs ++ decodeChars rest := by
  induction cs with
  | nil => rfl
  | cons c cs ih =>
    rw [List.flatMap_cons, List.append_assoc, decodeChars_append, ih, List.cons_append]

theorem decodeChars_flatMap (cs : List Char) :
    decodeChars (cs.flatMap String.utf8EncodeChar) = cs := by
  have h := decodeChars_flatMap_append cs []
  rwa [List.append_nil, decodeChars, List.append_nil] at h

/-- **Encoding loses nothing.** -/
theorem decodeUtf8_encodeUtf8 (s : String) : decodeUtf8 (encodeUtf8 s) = s := by
  rw [decodeUtf8, encodeUtf8, decodeChars_flatMap, String.ofList_toList]

/-- A zero byte stands for the zero character. -/
theorem eq_nul_of_zero_mem (h : (0 : UInt8) ∈ String.utf8EncodeChar c) : c = Char.ofNat 0 := by
  have hzero {n : Nat} (hn : n < 256) (h : (0 : UInt8) = UInt8.ofNat n) : n = 0 := by
    have hnat := congrArg UInt8.toNat h
    rw [UInt8.toNat_ofNat_of_lt' hn] at hnat
    exact hnat.symm
  -- only a code point below 80 is its own byte; all other bytes have their top bit set
  have htop (v k : Nat) (hk : 128 ≤ k) (hv : v + k < 256) : (0 : UInt8) ≠ UInt8.ofNat (v + k) := by
    intro h
    have := hzero hv h
    omega
  have hcode : c.val.toNat = c.toNat := rfl
  unfold String.utf8EncodeChar at h
  simp only [hcode] at h
  split at h
  · rename_i hone
    have hnul := hzero (by omega) (List.mem_singleton.mp h)
    rw [← hnul, Char.ofNat_toNat]
  · exfalso
    split at h
    · simp only [List.mem_cons, List.not_mem_nil, or_false] at h
      rcases h with h | h <;> exact htop _ _ (by decide) (by omega) h
    · split at h
      · simp only [List.mem_cons, List.not_mem_nil, or_false] at h
        rcases h with h | h | h <;> exact htop _ _ (by decide) (by omega) h
      · simp only [List.mem_cons, List.not_mem_nil, or_false] at h
        rcases h with h | h | h | h <;> exact htop _ _ (by decide) (by omega) h

/-- A text without the zero character has no zero byte. -/
theorem zero_not_mem_encodeUtf8 {s : String} (h : Char.ofNat 0 ∉ s.toList) :
    (0 : UInt8) ∉ encodeUtf8 s := by
  intro hmem
  obtain ⟨c, hc, hzero⟩ := List.mem_flatMap.mp hmem
  rw [eq_nul_of_zero_mem hzero] at hc
  exact h hc

/-! ## How a text starts -/

theorem encodeUtf8_of_toList {s : String} {cs : List Char} (front : String)
    (h : s.toList = front.toList ++ cs) :
    encodeUtf8 s = encodeUtf8 front ++ cs.flatMap String.utf8EncodeChar := by
  rw [encodeUtf8, h, List.flatMap_append, encodeUtf8]

/-- Bytes that start like those of another text are those of a text that starts so. -/
theorem toList_eq_of_encodeUtf8_eq {s : String} (front : String)
    (h : encodeUtf8 s = encodeUtf8 front ++ rest) :
    s.toList = front.toList ++ decodeChars rest := by
  rw [← decodeChars_flatMap s.toList, ← encodeUtf8, h, encodeUtf8, decodeChars_flatMap_append]

/-- No character starts with a byte that announces none. The decoder would put U+FFFD in its
place, and this character starts with another byte. -/
theorem encodeUtf8_ne_of_leadByte? (s front : String) (hlead : leadByte? b = none) :
    encodeUtf8 s ≠ encodeUtf8 front ++ b :: rest := by
  intro h
  have hchars := toList_eq_of_encodeUtf8_eq front h
  rw [decodeChars, hlead] at hchars
  rw [encodeUtf8_of_toList front hchars, List.append_cancel_left_eq, List.flatMap_cons] at h
  have hb : (0xEF : UInt8) = b := (List.cons.inj h).1
  rw [← hb] at hlead
  cases hlead

/-- The text behind a byte order mark, or the whole text where there is none. -/
def withoutMark (s : String) : String :=
  match s.toList with
  | '\uFEFF' :: cs => String.ofList cs
  | _ => s

/-- **The text of a file that holds one.** Nothing but the byte order mark is taken away. -/
theorem decode_encodeUtf8 (s : String) : decode (encodeUtf8 s) = withoutMark s := by
  rw [withoutMark]
  split
  · rename_i cs hmark
    have hbytes := encodeUtf8_of_toList "\uFEFF" hmark
    rw [hbytes]
    show decodeUtf8 (cs.flatMap String.utf8EncodeChar) = String.ofList cs
    rw [decodeUtf8, decodeChars_flatMap]
  · rename_i hmark
    unfold decode
    split
    · rename_i rest hbytes
      exact absurd (toList_eq_of_encodeUtf8_eq "\uFEFF" hbytes) (hmark _)
    · exact decodeUtf8_encodeUtf8 s

end LogSearch.Text
