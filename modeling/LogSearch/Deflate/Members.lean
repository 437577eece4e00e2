/-
Gzip files of several members.

Logs that are rotated and compressed piece by piece are joined by writing one
gzip stream behind the other; the content is then the contents in a row. Zeros
between and behind members fill up blocks and are passed over.

Headers are taken lightly here: flags without a meaning and the checksum of the
header are not looked at, and a name that has no end reaches to the end of the
file. What matters is that each member is complete and its content correct. All
that goes wrong comes to the same, namely that this is no such file.
-/
import LogSearch.Deflate.Stream

set_option autoImplicit false

namespace LogSearch.Deflate

/-- The bytes behind a field that ends with a zero, if the header has it. -/
def passZeroEnded (present : Bool) (bytes : Bytes) : Bytes :=
  if present then (afterZero? bytes).getD [] else bytes

/-- The bytes behind the header of a member. -/
def passHeader? (stream : Bytes) : Option Bytes := do
  let ⟨start, rest, _⟩ ← takeNumber? 4 stream
  guard (start % 65536 = 0x8B1F ∧ start / 65536 % 256 = 8)
  let flags := GzipFlags.ofNat (start / 16777216)
  let ⟨_, rest, _⟩ ← takeField? 6 rest
  let rest ← if flags.extra then do
      let ⟨length, rest, _⟩ ← takeNumber? 2 rest
      let ⟨_, rest, _⟩ ← takeField? length rest
      pure rest
    else pure rest
  let rest := passZeroEnded flags.comment (passZeroEnded flags.name rest)
  if flags.headerChecksum then return (← takeField? 2 rest).rest else return rest

/-- The content of the first member and the bytes behind it and the zeros that follow. -/
def takeMember? (stream : Bytes) : Option (Bytes × Bytes) := do
  let (content, rest) ← (takeContent (← passHeader? stream)).toOption
  let ⟨check, rest, _⟩ ← takeNumber? 4 rest
  guard (check = (Checksum.crc32 content).toNat)
  let ⟨length, rest, _⟩ ← takeNumber? 4 rest
  guard (length = content.length % Nat.pow 2 32)
  return (content, rest.dropWhile (· = 0))

/-- The contents of the members in a row, where at most `limit` members are looked for. -/
def joinMembers? : (limit : Nat) → Bytes → Option Bytes
  | _, [] => some []
  | 0, _ :: _ => none
  | limit + 1, b :: bytes => do
    let (content, rest) ← takeMember? (b :: bytes)
    return content ++ (← joinMembers? limit rest)

/-- The content of a file of gzip members. Each of them takes up at least one byte, so the length of
the file bounds their number. -/
def unwrapMembers? (file : Bytes) : Option Bytes :=
  joinMembers? file.length file

end LogSearch.Deflate
