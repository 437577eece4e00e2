/-
How a member of a ZIP file is described in a message.

The description gives the name and what stands out: the way of compressing unless
there is none, the permissions and other attributes unless they are empty, and
the lengths, of which the compressed one is left out where it says nothing new.
-/
import LogSearch.Text.Quoted
import LogSearch.Zip.Name

set_option autoImplicit false

namespace LogSearch.Zip

/-- Names of the ways of compressing that have one. -/
def methodNames : List (Nat × String) :=
  [(0, "store"), (1, "shrink"), (2, "reduce"), (3, "reduce"), (4, "reduce"), (5, "reduce"),
   (6, "implode"), (7, "tokenize"), (8, "deflate"), (9, "deflate64"), (10, "implode"),
   (12, "bzip2"), (14, "lzma"), (18, "terse"), (19, "lz77"), (97, "wavpack"), (98, "ppmd")]

/-- The name of a way of compressing, or its number. -/
def methodName (method : Nat) : String :=
  (methodNames.lookup method).getD (toString method)

/-- The letter for the kind of a file. -/
def fileKind (mode : Nat) : Char :=
  match mode / 0x1000 with
  | 0o10 => '-'
  | 0o04 => 'd'
  | 0o12 => 'l'
  | 0o06 => 'b'
  | 0o02 => 'c'
  | 0o01 => 'p'
  | 0o14 => 's'
  | _ => '?'

/-- The three letters for the permissions of one class of users. The third also shows a special
permission, as a small letter if the file can be run and as a capital if not. -/
def permissions (bits : Nat) (isSpecial : Bool) (special : Char) : List Char :=
  [if bits.testBit 2 then 'r' else '-', if bits.testBit 1 then 'w' else '-',
    if isSpecial then (if bits.testBit 0 then special else special.toUpper)
    else if bits.testBit 0 then 'x' else '-']

/-- The letters for the kind and the permissions of a file. -/
def fileMode (mode : Nat) : String :=
  String.ofList <|
    fileKind mode :: permissions (mode / 64 % 8) (mode.testBit 11) 's' ++
      permissions (mode / 8 % 8) (mode.testBit 10) 's' ++ permissions (mode % 8) (mode.testBit 9) 't'

/-- What is shown of a member. -/
structure Details where
  /-- The name. -/
  name : String
  /-- Whether it stands for a directory. -/
  isDirectory : Bool
  /-- The number of the way of compressing. -/
  method : Nat
  /-- The attributes. -/
  attributes : Nat
  /-- The length of the content. -/
  size : Nat
  /-- The length of the compressed content. -/
  compressedSize : Nat

/-- The description of a member. -/
def Details.text (d : Details) : String :=
  let mode := d.attributes / 65536
  let other := d.attributes % 65536
  let optional (isShown : Bool) (name value : String) : String :=
    if isShown then s!" {name}={value}" else ""
  let parts := [
    optional (d.method ≠ 0) "compress_type" (methodName d.method),
    optional (mode ≠ 0) "filemode" (Text.quoted (fileMode mode)),
    optional (other ≠ 0) "external_attr"
      ("0x" ++ String.ofList (Nat.toDigits 16 other)),
    optional (!d.isDirectory || d.size ≠ 0) "file_size" (toString d.size),
    optional ((!d.isDirectory || d.compressedSize ≠ 0) &&
      (d.method ≠ 0 || d.size ≠ d.compressedSize)) "compress_size" (toString d.compressedSize)]
  s!"<ZipInfo filename={Text.quoted d.name}{String.join parts}>"

end LogSearch.Zip
