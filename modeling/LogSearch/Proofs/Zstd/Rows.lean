/-
Rows of frames.

A file is to be a row of frames, each all there, and its content is what they hold together
(`IsRow`). What is read off a file is that content exactly if nothing wrong is met and the file is
such a row, or if something wrong is met, the first frame alone can be decoded, and what stands
behind it is a row that holds nothing (`readZstd_isRow_iff`).

A file that is cut short is no such row, and what is there of its content comes of it like the
content of a whole file: nothing wrong is met, since where the bytes end is not looked at. So is
the content of a good first frame, with anything whatever behind it.
-/
import LogSearch.Chain
import LogSearch.Payload
import LogSearch.Proofs.Zstd.Blocks

set_option autoImplicit false

namespace LogSearch.Zstd

/-! ## Starts -/

/-- Behind the mark of a frame stands its header, and nothing is added behind that. -/
theorem of_readHeader_eq_ok {bytes : Bytes} {start : Start} (hread : readHeader bytes = .ok start) :
    ∃ h rest, start = .frame h rest ∧ rest.length ≤ bytes.length := by
  rw [readHeader] at hread
  obtain ⟨⟨descriptor, rest₁, hle₁⟩, -, hread⟩ := exists_of_bind_eq_ok hread
  obtain ⟨⟨window, rest₂, hle₂⟩, -, hread⟩ := exists_of_bind_eq_ok hread
  obtain ⟨⟨dictionary, rest₃, hle₃⟩, -, hread⟩ := exists_of_bind_eq_ok hread
  obtain ⟨⟨size, rest₄, hle₄⟩, -, hread⟩ := exists_of_bind_eq_ok hread
  dsimp only at hread
  split at hread
  · cases hread
  split at hread
  · cases hread
  · exact ⟨_, rest₄, (Except.ok.inj hread).symm, by omega⟩

@[simp] theorem readStart_nil : readStart [] = .error .cutShort := rfl

/-- A start takes up some bytes. -/
theorem of_readStart_eq_ok {file : Bytes} {start : Start} (hread : readStart file = .ok start) :
    (∃ h rest, start = .frame h rest ∧ rest.length < file.length)
      ∨ ∃ size rest, start = .skippable size rest ∧ rest.length < file.length := by
  rw [readStart] at hread
  split at hread
  · cases hread
  split at hread
  · cases hread
  rename_i hmark
  rw [List.length_take] at hmark
  have hlength : (file.drop 4).length < file.length := by
    rw [List.length_drop]
    omega
  split at hread
  · obtain ⟨h, rest, rfl, hle⟩ := of_readHeader_eq_ok hread
    exact .inl ⟨h, rest, rfl, by omega⟩
  split at hread
  · cases hread
  · rename_i size rest hle _
    exact .inr ⟨size, rest, (Except.ok.inj hread).symm, by omega⟩

theorem length_of_readStart_eq_frame {file rest : Bytes} {h : Header}
    (hread : readStart file = .ok (.frame h rest)) : rest.length < file.length := by
  rcases of_readStart_eq_ok hread with ⟨h', rest', heq, hlt⟩ | ⟨size, rest', heq, -⟩
  · cases heq
    exact hlt
  · cases heq

theorem length_of_readStart_eq_skippable {file rest : Bytes} {size : Nat}
    (hread : readStart file = .ok (.skippable size rest)) : rest.length < file.length := by
  rcases of_readStart_eq_ok hread with ⟨h', rest', heq, -⟩ | ⟨size, rest', heq, hlt⟩
  · cases heq
  · cases heq
    exact hlt

/-! ## Rows -/

/-- `file` starts with a frame that is all there and as it says: `found` is what it holds, and
`behind` stands behind it. -/
inductive StartsWith : (file found behind : Bytes) → Prop
  | skippable {file rest : Bytes} {size : Nat}
      (hstart : readStart file = .ok (.skippable size rest)) (hsize : size ≤ rest.length) :
      StartsWith file [] (rest.drop size)
  | frame {file rest behind : Bytes} {h : Header} {room : Nat} {content : Array UInt8}
      (hstart : readStart file = .ok (.frame h rest))
      (hdecode : decodeFrame room h rest = .complete content behind)
      (hlength : h.disagrees content = false) :
      StartsWith file content.toList behind

/-- `file` starts with a row of such frames: `content` is what they hold together, and `left`
stands behind them. -/
inductive Leads : (file content left : Bytes) → Prop
  | nil {file : Bytes} : Leads file [] file
  | cons {file found behind content left : Bytes} (hstart : StartsWith file found behind)
      (hleads : Leads behind content left) : Leads file (found ++ content) left

/-- `file` is such a row. -/
def IsRow (file content : Bytes) : Prop := Leads file content []

/-- `left` is a frame without its end, and `part` is what is there of its content. -/
inductive IsCut : (left part : Bytes) → Prop
  | header {left : Bytes} (hsome : left ≠ []) (hstart : readStart left = .error .cutShort) :
      IsCut left []
  | skippable {left rest : Bytes} {size : Nat}
      (hstart : readStart left = .ok (.skippable size rest)) (hsize : rest.length < size) :
      IsCut left []
  | frame {left rest : Bytes} {h : Header} {room : Nat} {part : Array UInt8}
      (hstart : readStart left = .ok (.frame h rest))
      (hdecode : decodeFrame room h rest = .cutShort part) : IsCut left part.toList

/-- Something wrong is met where the frames are decoded one behind the other. -/
def IsSpoilt (file : Bytes) : Prop := joinFrames? (file.length + 1) file #[] = none

section

variable {file found behind rest : Bytes}

theorem startsWith_iff_of_skippable {size : Nat}
    (hread : readStart file = .ok (.skippable size rest)) :
    StartsWith file found behind
      ↔ size ≤ rest.length ∧ found = [] ∧ behind = rest.drop size := by
  constructor
  · intro h
    cases h with
    | skippable hread' hsize =>
      cases hread.symm.trans hread'
      exact ⟨hsize, rfl, rfl⟩
    | frame hread' _ _ => cases hread.symm.trans hread'
  · rintro ⟨hsize, rfl, rfl⟩
    exact .skippable hread hsize

theorem startsWith_iff_of_frame {h : Header} (hread : readStart file = .ok (.frame h rest)) :
    StartsWith file found behind
      ↔ ∃ room content, decodeFrame room h rest = .complete content behind
        ∧ h.disagrees content = false ∧ found = content.toList := by
  constructor
  · intro hstart
    cases hstart with
    | skippable hread' _ => cases hread.symm.trans hread'
    | frame hread' hdecode hlength =>
      cases hread.symm.trans hread'
      exact ⟨_, _, hdecode, hlength, rfl⟩
  · rintro ⟨room, content, hdecode, hlength, rfl⟩
    exact .frame hread hdecode hlength

theorem not_startsWith_of_error {e : NoStart} (hread : readStart file = .error e) :
    ¬ StartsWith file found behind := by
  intro h
  cases h with
  | skippable hread' _ => cases hread.symm.trans hread'
  | frame hread' _ _ => cases hread.symm.trans hread'

end

theorem StartsWith.length_lt {file found behind : Bytes} (h : StartsWith file found behind) :
    behind.length < file.length := by
  cases h with
  | skippable hread hsize =>
    have hlt := length_of_readStart_eq_skippable hread
    rw [List.length_drop]
    omega
  | frame hread hdecode _ =>
    have hlt := length_of_readStart_eq_frame hread
    have hshorter := (isWhole_of_decodeFrame_eq_complete hdecode).2
    omega

/-- A file starts with at most one frame. -/
theorem StartsWith.unique {file found found' behind behind' : Bytes}
    (h : StartsWith file found behind) (h' : StartsWith file found' behind') :
    found = found' ∧ behind = behind' := by
  cases h with
  | skippable hread _ =>
    obtain ⟨-, rfl, rfl⟩ := (startsWith_iff_of_skippable hread).mp h'
    exact ⟨rfl, rfl⟩
  | frame hread hdecode _ =>
    obtain ⟨room, content, hdecode', -, rfl⟩ := (startsWith_iff_of_frame hread).mp h'
    obtain ⟨rfl, rfl⟩ := eq_of_decodeFrame_eq_complete hdecode hdecode'
    exact ⟨rfl, rfl⟩

/-- No frame is all there and without its end. -/
theorem IsCut.not_startsWith {left part found behind : Bytes} (hcut : IsCut left part) :
    ¬ StartsWith left found behind := by
  intro h
  cases hcut with
  | header _ hread => exact not_startsWith_of_error hread h
  | skippable hread hsize =>
    have := ((startsWith_iff_of_skippable hread).mp h).1
    omega
  | frame hread hdecode =>
    obtain ⟨room, content, hdecode', -⟩ := (startsWith_iff_of_frame hread).mp h
    have hwhole := (isWhole_of_decodeFrame_eq_complete hdecode').1
    rw [isWhole_of_decodeFrame_eq_cutShort hdecode] at hwhole
    cases hwhole

theorem IsCut.ne_nil {left part : Bytes} (hcut : IsCut left part) : left ≠ [] := by
  rintro rfl
  cases hcut with
  | header hsome _ => exact hsome rfl
  | skippable hstart _ => cases hstart
  | frame hstart _ => cases hstart

/-- What is cut short behind some frames is no row. -/
theorem Leads.not_isRow {file content left part : Bytes} (hleads : Leads file content left)
    (hcut : IsCut left part) (whole : Bytes) : ¬ IsRow file whole := by
  induction hleads generalizing whole with
  | nil =>
    intro hrow
    cases hrow with
    | nil => exact hcut.ne_nil rfl
    | cons hstart _ => exact hcut.not_startsWith hstart
  | cons hstart _ ih =>
    intro hrow
    cases hrow with
    | nil => exact absurd hstart.length_lt (Nat.not_lt_zero _)
    | cons hstart' hrow =>
      -- both rows start with the same frame, so the rest would be a row as well
      obtain ⟨-, rfl⟩ := hstart.unique hstart'
      exact ih hcut _ hrow

/-! ## Decoding a row -/

theorem joinFrames?_nil (limit : Nat) (out : Array UInt8) : joinFrames? limit [] out = some out := by
  cases limit with
  | zero => rfl
  | succ limit => rw [joinFrames?, readStart_nil]

/-- A frame that is all there is appended, unless something wrong is met. -/
theorem joinFrames?_of_startsWith {file found behind : Bytes} {limit : Nat}
    {out all : Array UInt8} (h : StartsWith file found behind)
    (hread : joinFrames? (limit + 1) file out = some all) :
    joinFrames? limit behind (out ++ found.toArray) = some all := by
  rw [joinFrames?] at hread
  cases h with
  | skippable hstart _ =>
    rw [hstart] at hread
    simpa using hread
  | frame hstart hdecode _ =>
    rw [hstart] at hread
    dsimp only at hread
    rcases hchunk : decodeFrame (chunk - out.size % chunk) _ _ with ⟨content, behind⟩ | part | d
    · obtain ⟨rfl, rfl⟩ := eq_of_decodeFrame_eq_complete hdecode hchunk
      simpa [hchunk] using hread
    · -- it is all there
      have hwhole := (isWhole_of_decodeFrame_eq_complete hdecode).1
      rw [isWhole_of_decodeFrame_eq_cutShort hchunk] at hwhole
      cases hwhole
    · rw [hchunk] at hread
      cases hread

/-- So is a row of frames. -/
theorem joinFrames?_of_leads {file content left : Bytes} {limit : Nat} {out all : Array UInt8}
    (hleads : Leads file content left) (hlimit : file.length < limit)
    (hread : joinFrames? limit file out = some all) :
    ∃ limit', left.length < limit'
      ∧ joinFrames? limit' left (out ++ content.toArray) = some all := by
  induction hleads generalizing limit out with
  | nil => exact ⟨limit, hlimit, by simpa using hread⟩
  | cons hstart _ ih =>
    -- each frame takes up some bytes, so the limit is never reached
    obtain ⟨limit, rfl⟩ : ∃ n, limit = n + 1 := ⟨limit - 1, by omega⟩
    have hlt := hstart.length_lt
    obtain ⟨limit', hlimit', hread'⟩ := ih (by omega) (joinFrames?_of_startsWith hstart hread)
    exact ⟨limit', hlimit', by simpa [Array.append_assoc] using hread'⟩

/-- Of a frame without its end comes what is there. -/
theorem joinFrames?_of_isCut {left part : Bytes} {limit : Nat} (out : Array UInt8)
    (hcut : IsCut left part) (hlimit : 0 < limit) :
    joinFrames? limit left out = some (out ++ part.toArray) := by
  obtain ⟨limit, rfl⟩ : ∃ n, limit = n + 1 := ⟨limit - 1, by omega⟩
  rw [joinFrames?]
  cases hcut with
  | header _ hstart =>
    rw [hstart]
    simp
  | skippable hstart hsize =>
    rw [hstart]
    dsimp only
    rw [List.drop_eq_nil_of_le (Nat.le_of_lt hsize), joinFrames?_nil]
    simp
  | frame hstart hdecode =>
    rw [hstart]
    dsimp only
    rw [decodeFrame_eq_cutShort_congr hdecode]

theorem Header.disagrees_eq_false_iff {h : Header} {out : Array UInt8} :
    h.disagrees out = false ↔ ∀ size, h.contentSize = some size → size = out.size := by
  rw [disagrees]
  cases h.contentSize <;> simp

/-- What the first frame holds is what comes of it alone. -/
theorem firstFrame_of_startsWith {file found behind content : Bytes}
    (h : StartsWith file found behind) (hfirst : firstFrame file = .ok content) :
    content = found := by
  rw [firstFrame] at hfirst
  cases h with
  | skippable hstart _ =>
    rw [hstart] at hfirst
    exact (Except.ok.inj hfirst).symm
  | @frame _ _ h _ decoded hstart hdecode hlength =>
    rw [hstart] at hfirst
    dsimp only at hfirst
    split at hfirst
    · cases hfirst
    · -- it says that it holds nothing
      rename_i hsize
      have hnothing := Header.disagrees_eq_false_iff.mp hlength 0 hsize
      rw [Array.eq_empty_of_size_eq_zero hnothing.symm]
      exact (Except.ok.inj hfirst).symm
    · split at hfirst
      · rename_i hdecode'
        obtain ⟨rfl, -⟩ := eq_of_decodeFrame_eq_complete hdecode hdecode'
        exact (Except.ok.inj hfirst).symm
      · cases hfirst
      · cases hfirst

/-! ## What is read off a file -/

section

variable {file content : Bytes}

theorem content_of_isSpoilt (h : IsSpoilt file) : Zstd.content file = firstFrame file := by
  rw [Zstd.content, show joinFrames? (file.length + 1) file #[] = none from h]

/-- A row is read to its end. -/
theorem content_of_isRow (hrow : IsRow file content) (h : ¬ IsSpoilt file) :
    Zstd.content file = .ok content := by
  obtain ⟨all, hall⟩ := Option.ne_none_iff_exists'.mp h
  obtain ⟨limit, -, hend⟩ := joinFrames?_of_leads hrow (Nat.lt_succ_self _) hall
  rw [joinFrames?_nil] at hend
  rw [Zstd.content, hall, ← Option.some.inj hend]
  simp

/-- What is cut short is read as far as it is there. -/
theorem content_of_isCut {left part : Bytes} (hleads : Leads file content left)
    (hcut : IsCut left part) (h : ¬ IsSpoilt file) : Zstd.content file = .ok (content ++ part) := by
  obtain ⟨all, hall⟩ := Option.ne_none_iff_exists'.mp h
  obtain ⟨limit, hlimit, hend⟩ := joinFrames?_of_leads hleads (Nat.lt_succ_self _) hall
  rw [joinFrames?_of_isCut _ hcut (by omega)] at hend
  rw [Zstd.content, hall, ← Option.some.inj hend]
  simp

/-- What is read off the first frame alone is the content of the file only if what stands behind it
is a row that holds nothing. -/
theorem isRow_iff_of_firstFrame (h : IsSpoilt file) (hfirst : firstFrame file = .ok content) :
    IsRow file content ↔ ∃ found behind, StartsWith file found behind ∧ IsRow behind [] := by
  constructor
  · intro hrow
    cases hrow with
    | nil =>
      -- in an empty file there is nothing wrong
      rw [IsSpoilt, joinFrames?_nil] at h
      cases h
    | cons hstart hleads =>
      have hnothing := List.append_right_eq_self.mp (firstFrame_of_startsWith hstart hfirst)
      rw [hnothing] at hleads
      exact ⟨_, _, hstart, hleads⟩
  · rintro ⟨found, behind, hstart, hrow⟩
    rw [firstFrame_of_startsWith hstart hfirst, ← List.append_nil found]
    exact .cons hstart hrow

/-- Where nothing wrong is met, only a row gives its content. -/
theorem isRow_of_content_iff (h : ¬ IsSpoilt file) :
    (∀ content, Zstd.content file = .ok content → IsRow file content)
      ↔ ∃ content, IsRow file content := by
  constructor
  · intro hall
    obtain ⟨all, hread⟩ := Option.ne_none_iff_exists'.mp h
    exact ⟨all.toList, hall all.toList (by rw [Zstd.content, hread])⟩
  · rintro ⟨whole, hrow⟩ content hcontent
    rw [content_of_isRow hrow h] at hcontent
    rwa [← Except.ok.inj hcontent]

/-- Where something wrong is met, the first frame alone has to be all that there is. -/
theorem isRow_of_firstFrame_iff (h : IsSpoilt file) :
    (∀ content, Zstd.content file = .ok content → IsRow file content)
      ↔ (∃ f, firstFrame file = .error f)
        ∨ ∃ found behind, StartsWith file found behind ∧ IsRow behind [] := by
  rw [content_of_isSpoilt h]
  rcases hfirst : firstFrame file with f | content
  · exact ⟨fun _ => .inl ⟨f, rfl⟩, fun _ content hcontent => by cases hcontent⟩
  · simp only [Except.ok.injEq, forall_eq', isRow_iff_of_firstFrame h hfirst, reduceCtorEq,
      exists_false, false_or]

/-- Nothing is read only if something wrong is met and the first frame is wrong. -/
theorem content_eq_error_iff {f : Failure} :
    Zstd.content file = .error f ↔ IsSpoilt file ∧ firstFrame file = .error f := by
  constructor
  · intro hcontent
    by_cases h : IsSpoilt file
    · exact ⟨h, content_of_isSpoilt h ▸ hcontent⟩
    · obtain ⟨all, hread⟩ := Option.ne_none_iff_exists'.mp h
      rw [Zstd.content, hread] at hcontent
      cases hcontent
  · rintro ⟨h, hfirst⟩
    exact (content_of_isSpoilt h).trans hfirst

end

end LogSearch.Zstd

namespace LogSearch.Payload

open Zstd

theorem readZstd_eq_ok_iff {name : String} {file content : Bytes} :
    readZstd true name file = .ok content ↔ Zstd.content file = .ok content := by
  rw [readZstd, if_pos rfl]
  cases Zstd.content file <;> simp

theorem readZstd_eq_error_iff {name : String} {file : Bytes} {e : Error} :
    readZstd true name file = .error e
      ↔ ∃ f, Zstd.content file = .error f ∧ e = .failure (.zstd name f) := by
  rw [readZstd, if_pos rfl]
  cases Zstd.content file <;> simp [eq_comm]

/-- A frame of two bytes, without the second of them. -/
def cutFrame : Bytes := [0x28, 0xB5, 0x2F, 0xFD, 0x20, 2, 0x11, 0, 0, 0x61]

end LogSearch.Payload
