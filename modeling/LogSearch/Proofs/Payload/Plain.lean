/-
Plain logs.

Most payloads are not compressed, and then they are text. Apart from its name a payload shows by
its first bytes that it is compressed, so it has to be seen that no text has such bytes. The marks
of gzip and Zstandard hold a byte in second place that starts no character, which no text can
have there (`Text.encodeUtf8_ne_of_leadByte?`). The mark of ZIP is made of four characters and
can be written in a text, so texts that start with it are set apart.
-/
import LogSearch.Proofs.Payload.Routes
import LogSearch.Proofs.Text.Encoding

set_option autoImplicit false

namespace LogSearch.Payload

open Text

variable {s : String} {name : String}

/-- No text starts with the mark of gzip. -/
theorem isGzip_encodeUtf8 (s : String) : Deflate.isGzip (encodeUtf8 s) = false := by
  rw [Deflate.isGzip, decide_eq_false_iff_not]
  intro hmark
  have hbytes := List.take_append_drop 2 (encodeUtf8 s)
  rw [hmark] at hbytes
  exact encodeUtf8_ne_of_leadByte? s "\x1F" rfl hbytes.symm

/-- No text starts with the mark of Zstandard. -/
theorem take_encodeUtf8_ne_frameMark (s : String) : (encodeUtf8 s).take 4 ≠ Zstd.frameMark := by
  intro hmark
  have hbytes := List.take_append_drop 4 (encodeUtf8 s)
  rw [hmark] at hbytes
  exact encodeUtf8_ne_of_leadByte? s "(" rfl hbytes.symm

/-- The mark of ZIP, written as characters. -/
def zipMarkChars : List Char := ['P', 'K', '\x03', '\x04']

/-- A text starts with the mark of ZIP only where it starts with the characters of the mark. -/
theorem take_encodeUtf8_eq_headerMark_iff :
    (encodeUtf8 s).take 4 = Zip.headerMark ↔ zipMarkChars <+: s.toList := by
  constructor
  · intro hmark
    have hbytes := List.take_append_drop 4 (encodeUtf8 s)
    rw [hmark] at hbytes
    exact ⟨_, (toList_eq_of_encodeUtf8_eq "PK\x03\x04" hbytes.symm).symm⟩
  · rintro ⟨cs, hcs⟩
    rw [encodeUtf8_of_toList "PK\x03\x04" hcs.symm]
    rfl

/-- A text whose name says nothing of compression is left as it is. -/
theorem decompress_encodeUtf8 (hasZstd : Bool)
    (hname : endsInAny (lower name) (zstdSuffixes ++ gzipSuffixes) = false)
    (hstart : ¬ zipMarkChars <+: s.toList) :
    decompress hasZstd name (encodeUtf8 s) = .ok (encodeUtf8 s) := by
  rw [endsInAny, List.any_append, Bool.or_eq_false_iff] at hname
  obtain ⟨hzstd, hgzip⟩ := hname
  rw [decompress_of_not_zstd hzstd (take_encodeUtf8_ne_frameMark s), endsInAny, hgzip,
    isGzip_encodeUtf8, Bool.or_false, if_neg Bool.false_ne_true, if_neg]
  rwa [take_encodeUtf8_eq_headerMark_iff]

/-- **Plain logs.** A text whose name says nothing of compression, and that does not start with
the mark of ZIP, is taken for what it is: its own bytes are decoded, and nothing but the byte order
mark is taken away. -/
theorem decode_encodeUtf8_of_plain (hasZstd : Bool) (name s : String)
    (hname : endsInAny (lower name) (zstdSuffixes ++ gzipSuffixes) = false)
    (hstart : ¬ zipMarkChars <+: s.toList) :
    decode hasZstd name (encodeUtf8 s) = .ok (withoutMark s) := by
  rw [decode, decompress_encodeUtf8 hasZstd hname hstart, Except.map, decode_encodeUtf8]

/-- A log with a byte order mark. -/
theorem decode_marked_log :
    endsInAny (lower "a.log") (zstdSuffixes ++ gzipSuffixes) = false
      ∧ ¬ zipMarkChars <+: "\uFEFFPK é".toList
      ∧ decode true "a.log" (encodeUtf8 "\uFEFFPK é") = .ok "PK é" := by
  have hname : endsInAny (lower "a.log") (zstdSuffixes ++ gzipSuffixes) = false := by decide
  have hstart : ¬ zipMarkChars <+: "\uFEFFPK é".toList := by decide
  exact ⟨hname, hstart, decode_encodeUtf8_of_plain true _ _ hname hstart⟩

end LogSearch.Payload
