/-
Where bytes stop being UTF-8.

The first ill-formed stretch is reported with its place. It is a byte that starts
no sequence, or the start of a sequence that does not go on as it has to, or that
the bytes end in.
-/
import LogSearch.Text.Quoted

set_option autoImplicit false

namespace LogSearch.Text

/-- What is wrong with a stretch of bytes. -/
inductive FaultKind where
  /-- It starts no sequence. -/
  | start
  /-- The next byte does not go on with the sequence. -/
  | continuation
  /-- There is no next byte. -/
  | ending
deriving DecidableEq, Repr

/-- An ill-formed stretch of bytes. -/
structure Fault where
  /-- The number of bytes in front of it. -/
  position : Nat
  /-- Its first byte. -/
  first : UInt8
  /-- Its length. -/
  length : Nat
  /-- What is wrong. -/
  kind : FaultKind
deriving DecidableEq, Repr

/-- What is wrong, in words. -/
def FaultKind.message : FaultKind → String
  | start => "invalid start byte"
  | continuation => "invalid continuation byte"
  | ending => "unexpected end of data"

/-- The text of the report. -/
def Fault.message (f : Fault) : String :=
  let shown :=
    if f.length ≤ 1 then
      "byte 0x" ++ String.ofList (hexDigits 2 f.first.toNat) ++ " in position " ++
        toString f.position
    else
      "bytes in position " ++ toString f.position ++ "-" ++ toString (f.position + f.length - 1)
  "'utf-8' codec can't decode " ++ shown ++ ": " ++ f.kind.message

/-- The first ill-formed stretch of some bytes; `position` bytes stand in front of them. -/
def faultFrom? (position : Nat) : Bytes → Option Fault
  | [] => none
  | b :: bs =>
    match leadByte? b with
    | none => some ⟨position, b, 1, .start⟩
    | some lead =>
      let read := readFollowing lead.bits lead.low lead.high lead.following bs
      let length := 1 + (bs.length - read.2.length)
      match read.1 with
      | some _ => faultFrom? (position + length) read.2
      | none => some ⟨position, b, length, if read.2.isEmpty then .ending else .continuation⟩
termination_by bs => bs.length
decreasing_by
  have := length_readFollowing_le lead.bits lead.low lead.high lead.following bs
  simp only [List.length_cons]
  omega

end LogSearch.Text
