/-
The two checksums of compressed files.

CRC-32 guards gzip streams and ZIP members, Adler-32 guards zlib streams. Both
go over the bytes once.
-/
import LogSearch.Text.Utf8

set_option autoImplicit false

namespace LogSearch.Checksum

/-- Divides one bit out of a remainder; the divisor is written with its bits reversed. -/
def crcBit (r : UInt32) : UInt32 :=
  if r &&& 1 = 1 then (r >>> 1) ^^^ 0xEDB88320 else r >>> 1

/-- The remainders of the 256 bytes. -/
def crcTable : Array UInt32 :=
  Array.ofFn fun (i : Fin 256) => Nat.repeat crcBit 8 (UInt32.ofNat i)

/-- Takes one byte into a remainder. -/
def crcByte (r : UInt32) (b : UInt8) : UInt32 :=
  (r >>> 8) ^^^ crcTable.getD ((r ^^^ b.toUInt32) &&& 0xFF).toNat 0

/-- The CRC-32 of some bytes. -/
def crc32 (bytes : Bytes) : UInt32 :=
  bytes.foldl crcByte 0xFFFFFFFF ^^^ 0xFFFFFFFF

/-- The Adler-32 of some bytes: their sum and the sum of its running values, modulo 65521. -/
def adler32 (bytes : Bytes) : Nat :=
  let (a, b) := bytes.foldl
    (fun (a, b) byte => let a := (a + byte.toNat) % 65521; (a, (b + a) % 65521)) (1, 0)
  b * 65536 + a

end LogSearch.Checksum
