/-
Ways to a reader.

The name of a payload and its first bytes both say how it is to be read, and a name can be wrong.
A payload with a mark is safe from that: the reader that its mark calls for gets it in the end,
whatever the name says, as long as the name does not call for Zstandard. For a ZIP file under a
gzip name the way is longer, since the reader of streams comes first. It gives up at once, because
the first two bytes of a ZIP file are no multiple of 31 (`unwrap_of_zipMark`).

The name itself comes back in what is reported. So the outcomes under two names are the same up to
that (`decompress_rename`), and in particular they are of one kind.
-/
import LogSearch.Payload

set_option autoImplicit false

namespace LogSearch.Payload

variable {hasZstd : Bool} {name name' : String} {data : Bytes}

/-! ## What is reported, apart from the name -/

/-- The failure as it would be reported under another name. -/
def Failure.rename (name : String) : Failure → Failure
  | withoutZstd _ => .withoutZstd name
  | zstd _ f => .zstd name f
  | stream _ e => .stream name e
  | zip _ d => .zip name d
  | emptyZip _ => .emptyZip name

/-- The error as it would be reported under another name. A refusal tells of a member and does not
give the name of the file. -/
def Error.rename (name : String) : Error → Error
  | failure f => .failure (f.rename name)
  | refusal r => .refusal r

/-- The kinds of errors that a caller can tell apart without looking at their text. -/
inductive Error.Kind where
  /-- There is no reader for this payload. -/
  | noDecoder
  /-- The payload is at fault. -/
  | faulty
  /-- A member is encrypted. -/
  | encrypted
  /-- A member is packed in a way that is not known. -/
  | unsupported
  /-- A name is not in the encoding that it claims. -/
  | malformedName
  /-- A header is said to lie before the start of the file. -/
  | offsetBeforeStart
deriving DecidableEq, Repr

/-- The kind of an error. -/
def Error.kind : Error → Error.Kind
  | failure (.withoutZstd _) => .noDecoder
  | failure _ => .faulty
  | refusal (.encrypted _) => .encrypted
  | refusal (.unsupported _) => .unsupported
  | refusal (.malformedName _) => .malformedName
  | refusal (.offsetBeforeStart _) => .offsetBeforeStart

/-- The kind of an error does not depend on the name. -/
@[simp] theorem Error.kind_rename (name : String) (e : Error) : (e.rename name).kind = e.kind := by
  cases e with
  | failure f => cases f <;> rfl
  | refusal r => rfl

/-! ## One reader under two names -/

theorem readZip_rename :
    readZip name' data = (readZip name data).mapError (Error.rename name') := by
  unfold readZip
  rcases Zip.content data with (d | r) | (_ | content) <;> rfl

theorem readZstd_rename :
    readZstd hasZstd name' data = (readZstd hasZstd name data).mapError (Error.rename name') := by
  unfold readZstd
  cases hasZstd with
  | false => rfl
  | true => cases Zstd.content data <;> rfl

theorem readGzip_rename :
    readGzip name' data = (readGzip name data).mapError (Error.rename name') := by
  unfold readGzip
  cases Deflate.unwrap data with
  | ok content => rfl
  | error e =>
    by_cases hmark : data.take 2 = [0x50, 0x4B]
    · simp only [hmark, if_true]
      exact readZip_rename
    · simp only [hmark, if_false]
      cases Deflate.unwrapMembers? data <;> rfl

/-! ## Marks -/

/-- Whether a payload shows by its first bytes how it is to be read. -/
def IsMarked (data : Bytes) : Prop :=
  Deflate.isGzip data ∨ data.take 4 = Zip.headerMark ∨ data.take 4 = Zstd.frameMark

instance (data : Bytes) : Decidable (IsMarked data) :=
  inferInstanceAs (Decidable (_ ∨ _ ∨ _))

theorem take_two_of_take_four {a b c d : UInt8} (h : data.take 4 = [a, b, c, d]) :
    data.take 2 = [a, b] := by
  have htake : (data.take 4).take 2 = data.take 2 := List.take_take
  rw [← htake, h]
  rfl

/-- A file that starts as ZIP files do is no stream. -/
theorem unwrap_of_zipMark (h : data.take 2 = [0x50, 0x4B]) :
    Deflate.unwrap data = .error .headerCheck := by
  have hheader (rest : Bytes) :
      Deflate.skipZlibHeader (0x50 :: 0x4B :: rest) = .error .headerCheck := by
    have hstart : bigEndian [0x50, 0x4B] % 31 ≠ 0 := by decide
    exact if_pos hstart
  have hmark (rest : Bytes) : Deflate.isGzip (0x50 :: 0x4B :: rest) = false := rfl
  rw [← List.take_append_drop 2 data, h, Deflate.unwrap, Deflate.takeZlib, List.cons_append,
    List.singleton_append, hmark, hheader]
  rfl

/-- The reader of streams hands ZIP files on. -/
theorem readGzip_of_zipMark (h : data.take 2 = [0x50, 0x4B]) :
    readGzip name data = readZip name data := by
  rw [readGzip, unwrap_of_zipMark h]
  exact if_pos h

/-! ## Ways to the reader of a mark -/

theorem decompress_of_frameMark (h : data.take 4 = Zstd.frameMark) :
    decompress hasZstd name data = readZstd hasZstd name data := by
  unfold decompress
  dsimp only
  rw [decide_eq_true h, Bool.or_true, if_pos rfl]

/-- Without Zstandard the other two kinds are told apart as if it did not exist. -/
theorem decompress_of_not_zstd (hname : Text.endsInAny (Text.lower name) zstdSuffixes = false)
    (h : data.take 4 ≠ Zstd.frameMark) :
    decompress hasZstd name data
      = if Text.endsInAny (Text.lower name) gzipSuffixes || Deflate.isGzip data then
          readGzip name data
        else if data.take 4 = Zip.headerMark then readZip name data
        else .ok data := by
  unfold decompress
  dsimp only
  rw [hname, decide_eq_false h, Bool.false_or, if_neg Bool.false_ne_true]

theorem decompress_of_isGzip (hname : Text.endsInAny (Text.lower name) zstdSuffixes = false)
    (h : Deflate.isGzip data) : decompress hasZstd name data = readGzip name data := by
  have hframe : data.take 4 ≠ Zstd.frameMark := by
    intro hframe
    rw [Deflate.isGzip, take_two_of_take_four hframe] at h
    exact absurd h (by decide)
  rw [decompress_of_not_zstd hname hframe, h, Bool.or_true, if_pos rfl]

/-- With or without a suffix for streams, the reader of ZIP files is the one that counts. -/
theorem decompress_of_headerMark (hname : Text.endsInAny (Text.lower name) zstdSuffixes = false)
    (h : data.take 4 = Zip.headerMark) : decompress hasZstd name data = readZip name data := by
  have hframe : data.take 4 ≠ Zstd.frameMark := by
    rw [h]
    decide
  rw [decompress_of_not_zstd hname hframe, if_pos h,
    readGzip_of_zipMark (take_two_of_take_four h), ite_self]

/-! ## Two names -/

/-- **Under another name.** What comes of a payload with a mark is the same under another name,
the error included, in which only the name is changed. -/
theorem decompress_rename (hname : Text.endsInAny (Text.lower name) zstdSuffixes = false)
    (hname' : Text.endsInAny (Text.lower name') zstdSuffixes = false) (hmark : IsMarked data) :
    decompress hasZstd name' data
      = (decompress hasZstd name data).mapError (Error.rename name') := by
  rcases hmark with hgzip | hzip | hzstd
  · rw [decompress_of_isGzip hname hgzip, decompress_of_isGzip hname' hgzip]
    exact readGzip_rename
  · rw [decompress_of_headerMark hname hzip, decompress_of_headerMark hname' hzip]
    exact readZip_rename
  · rw [decompress_of_frameMark hzstd, decompress_of_frameMark hzstd]
    exact readZstd_rename

/-- **Marks outdo names.** Two names, neither of which calls for Zstandard, give a payload with a
mark the same content, or errors of the same kind. -/
theorem decompress_name_irrelevant (hasZstd : Bool) (name name' : String) (data : Bytes)
    (hname : Text.endsInAny (Text.lower name) zstdSuffixes = false)
    (hname' : Text.endsInAny (Text.lower name') zstdSuffixes = false) (hmark : IsMarked data) :
    (decompress hasZstd name data).mapError Error.kind
      = (decompress hasZstd name' data).mapError Error.kind := by
  rw [decompress_rename hname hname' hmark]
  cases decompress hasZstd name data with
  | ok content => rfl
  | error e => exact congrArg Except.error (Error.kind_rename name' e).symm

/-- The start of a ZIP file, under a gzip name and under the name of a plain log. -/
theorem decompress_cut_zip_under_two_names :
    Text.endsInAny (Text.lower "a.LOG.GZ") zstdSuffixes = false
      ∧ Text.endsInAny (Text.lower "a.log") zstdSuffixes = false
      ∧ IsMarked Zip.headerMark
      ∧ (decompress true "a.LOG.GZ" Zip.headerMark).mapError Error.kind
        = (decompress true "a.log" Zip.headerMark).mapError Error.kind := by
  have hname : Text.endsInAny (Text.lower "a.LOG.GZ") zstdSuffixes = false := by decide
  have hname' : Text.endsInAny (Text.lower "a.log") zstdSuffixes = false := by decide
  have hmark : IsMarked Zip.headerMark := by decide
  exact ⟨hname, hname', hmark, decompress_name_irrelevant true _ _ _ hname hname' hmark⟩

end LogSearch.Payload
