/-
The two ways of decoding the blocks of a frame.

A frame is decoded at one go or as it comes in, and the two ways set different limits to a block.
Limits only refuse: where two of them let something pass, the same comes of it (`Agree`). So a
frame has one content and one end, in whatever way it is decoded
(`eq_of_decodeBlocks_eq_complete`).

Where a frame ends shows in the lengths that stand in front of its blocks alone, and so does
whether it is all there (`isWhole_of_decodeBlocks_eq_complete`,
`isWhole_of_decodeBlocks_eq_cutShort`).
-/
import LogSearch.Zstd.Content

set_option autoImplicit false

namespace LogSearch.Zstd

/-! ## Limits only refuse -/

/-- Two results are the same if both are there. -/
structure Agree {α : Type} (x y : Except Defect α) : Prop where
  eq : ∀ a b, x = .ok a → y = .ok b → a = b

namespace Agree

variable {α β : Type} {x y : Except Defect α}

theorem refl (x : Except Defect α) : Agree x x :=
  ⟨fun _ _ hx hy => Except.ok.inj (hx.symm.trans hy)⟩

theorem bind {f g : α → Except Defect β} (h : Agree x y) (hnext : ∀ a, Agree (f a) (g a)) :
    Agree (x >>= f) (y >>= g) := by
  refine ⟨fun a b hx hy => ?_⟩
  rcases x with d | c
  · cases hx
  rcases y with d | c'
  · cases hy
  obtain rfl := h.eq c c' rfl rfl
  exact (hnext c).eq a b hx hy

/-- The checks in front may differ. -/
theorem check {p q : Prop} [Decidable p] [Decidable q] {d e : Defect}
    {f g : β → Except Defect α} (h : Agree x y) :
    Agree (if p then throw d >>= f else x) (if q then throw e >>= g else y) := by
  refine ⟨fun a b hx hy => ?_⟩
  split at hx
  · cases hx
  · split at hy
    · cases hy
    · exact h.eq a b hx hy

/-- So may the conditions under which there is an error. -/
theorem guarded {p q : Prop} [Decidable p] [Decidable q] {d e : Defect} (h : Agree x y) :
    Agree (if p then .error d else x) (if q then .error e else y) :=
  h.check (f := pure) (g := pure)

end Agree

variable {limits limits' : Limits}

theorem agree_checkLiterals (n : Nat) :
    Agree (limits.checkLiterals n) (limits'.checkLiterals n) :=
  ⟨fun _ _ _ _ => rfl⟩

theorem agree_takeCoded (isRepeat : Bool) (previous : Option Huffman) (format : Nat)
    (block : Bytes) :
    Agree (takeCoded limits isRepeat previous format block)
      (takeCoded limits' isRepeat previous format block) := by
  unfold takeCoded
  refine .check (.bind (.refl _) fun ⟨start, _, _⟩ => ?_)
  refine .check (.check (.bind (.refl _) fun ⟨coded, rest, _⟩ => ?_))
  exact .check (.refl _)

theorem agree_takeLiterals (previous : Option Huffman) (block : Bytes) :
    Agree (takeLiterals limits previous block) (takeLiterals limits' previous block) := by
  unfold takeLiterals
  refine .check ?_
  dsimp only
  split
  · exact .check (.bind (agree_checkLiterals _) fun _ => .refl _)
  · exact .bind (.refl _) fun ⟨field, rest, _⟩ =>
      .bind (agree_checkLiterals _) fun _ => .refl _
  · exact agree_takeCoded ..

theorem agree_apply (o : Output) (limit limit' : Nat) (s : Sequence) :
    Agree (o.apply limit s) (o.apply limit' s) := by
  unfold Output.apply
  exact .guarded (.refl _)

theorem agree_finish (o : Output) (limit limit' : Nat) :
    Agree (o.finish limit) (o.finish limit') := by
  unfold Output.finish
  exact .guarded (.refl _)

theorem agree_runSequences (tables : Tables) (limit limit' : Nat) (n : Nat) (cells : Cells)
    (distances : Distances) (bits : Bits) (o : Output) :
    Agree (runSequences tables limit n cells distances bits o)
      (runSequences tables limit' n cells distances bits o) := by
  induction n generalizing cells distances bits o with
  | zero => exact .refl _
  | succ n ih =>
    rw [runSequences, runSequences]
    rcases cells.sequence? distances bits with _ | ⟨s, distances, bits⟩
    · exact .refl _
    · have happly := agree_apply o limit limit' s
      dsimp only
      rcases hfirst : o.apply limit s with d | o₁
      · exact ⟨fun _ _ h _ => by cases h⟩
      rcases hsecond : o.apply limit' s with d | o₂
      · exact ⟨fun _ _ _ h => by cases h⟩
      obtain rfl := happly.eq o₁ o₂ hfirst hsecond
      dsimp only
      rcases if n = 0 then some (cells, bits) else tables.next? cells bits with _ | ⟨cells, bits⟩
      · exact .refl _
      · exact ih ..

theorem agree_decodeCoded (memory : Memory) (block : Bytes) (out : Array UInt8) :
    Agree (decodeCoded limits memory block out) (decodeCoded limits' memory block out) := by
  unfold decodeCoded
  refine .bind (agree_takeLiterals ..) fun ⟨literals, code, rest⟩ => ?_
  refine .bind (.refl _) fun ⟨count, rest⟩ => ?_
  dsimp only
  split
  · exact .check (.bind (agree_finish ..) fun _ => .refl _)
  · refine .bind (.refl _) fun ⟨modes, rest, _⟩ => .check ?_
    refine .bind (.refl _) fun ⟨tables, rest⟩ => ?_
    refine .bind (.refl _) fun bits => .bind (.refl _) fun ⟨cells, bits⟩ => ?_
    exact .bind (agree_runSequences ..) fun ⟨o, distances⟩ =>
      .bind (agree_finish ..) fun _ => .refl _

theorem agree_decodeBlock (way way' : Way) (memory : Memory) (b : BlockHeader) (stored : Bytes)
    (out : Array UInt8) :
    Agree (decodeBlock way limits memory b stored out)
      (decodeBlock way' limits' memory b stored out) := by
  unfold decodeBlock
  split
  · have hcoded : Agree (decodeCoded limits memory stored out)
        (decodeCoded limits' memory stored out) := agree_decodeCoded memory stored out
    refine ⟨fun r r' h h' => hcoded.eq r r' ?_ ?_⟩
    · split at h
      · cases h
      · cases h
      · rename_i hok
        rwa [Except.ok.inj h] at hok
    · split at h'
      · cases h'
      · cases h'
      · rename_i hok
        rwa [Except.ok.inj h'] at hok
  · exact .guarded (.refl _)

/-! ## Steps from block to block -/

/-- Appends the content of a block, which is passed over if it is empty and comes in piece by
piece. -/
def appendBlock (way : Way) (h : Header) (memory : Memory) (b : BlockHeader) (stored : Bytes)
    (out : Array UInt8) : Except Defect (Array UInt8 × Memory) :=
  if way = .asItComes ∧ b.stored = 0 then .ok (out, memory)
  else decodeBlock way (way.limits h out.size) memory b stored out

/-- Nothing can be decoded from nothing but the empty content that is written as it is. -/
theorem decodeBlock_of_stored_eq_zero {way : Way} {memory memory' : Memory} {b : BlockHeader}
    {out out' : Array UInt8} (hstored : b.stored = 0)
    (h : decodeBlock way limits memory b [] out = .ok (out', memory')) :
    (out', memory') = (out, memory) := by
  have hkind : b.kind ≠ 1 ∧ b.size = 0 := by
    rw [BlockHeader.stored] at hstored
    split at hstored
    · cases hstored
    · exact ⟨‹_›, hstored⟩
  rw [decodeBlock, hkind.2, if_neg (Nat.not_lt_zero _), if_neg hkind.1] at h
  split at h
  · cases h
  · simpa using h.symm

theorem agree_appendBlock (way way' : Way) (h : Header) (memory : Memory) (b : BlockHeader)
    (rest : Bytes) (out : Array UInt8) :
    Agree (appendBlock way h memory b (rest.take b.stored) out)
      (appendBlock way' h memory b (rest.take b.stored) out) := by
  unfold appendBlock
  by_cases hstored : b.stored = 0
  · -- whoever does not pass over the empty block decodes it to nothing
    rw [hstored, List.take_zero]
    have hsame {way : Way} {limits : Limits} {r : Array UInt8 × Memory}
        (hr : (if way = .asItComes ∧ True then .ok (out, memory)
          else decodeBlock way limits memory b [] out) = Except.ok r) : r = (out, memory) := by
      split at hr
      · exact (Except.ok.inj hr).symm
      · exact decodeBlock_of_stored_eq_zero hstored hr
    simp only [eq_self]
    exact ⟨fun r r' hr hr' => (hsame hr).trans (hsame hr').symm⟩
  · simp only [hstored, and_false, if_false]
    exact agree_decodeBlock ..

/-- The header of the first of some blocks. -/
def firstHeader (bytes : Bytes) : BlockHeader := .ofNat (littleEndian (bytes.take 3))

/-- What stands behind the first of some blocks. -/
def behindFirst (bytes : Bytes) : Bytes := (bytes.drop 3).drop (firstHeader bytes).stored

/-- The first of some blocks is all there. -/
structure HasFirst (bytes : Bytes) : Prop where
  header : 3 ≤ bytes.length
  kind : (firstHeader bytes).kind ≠ 3
  stored : (firstHeader bytes).stored ≤ (bytes.drop 3).length

theorem HasFirst.length_behindFirst_lt {bytes : Bytes} (h : HasFirst bytes) :
    (behindFirst bytes).length < bytes.length := by
  have := h.header
  rw [behindFirst, List.length_drop, List.length_drop]
  omega

/-- **What one block makes of the rest.** The frame is wrong, or cut short in the block, or the
block is appended and all that is left is what stands behind it. -/
theorem decodeBlocks_cases (way : Way) (h : Header) (memory : Memory) (bytes : Bytes)
    (out : Array UInt8) :
    (∃ d, decodeBlocks way h memory bytes out = .defect d)
      ∨ (¬ HasFirst bytes ∧ ∃ part, decodeBlocks way h memory bytes out = .cutShort part)
      ∨ (HasFirst bytes ∧ ∃ out' memory',
        appendBlock way h memory (firstHeader bytes)
            ((bytes.drop 3).take (firstHeader bytes).stored) out = .ok (out', memory')
          ∧ decodeBlocks way h memory bytes out
            = if (firstHeader bytes).isLast then finishFrame h (behindFirst bytes) out'
              else decodeBlocks way h memory' (behindFirst bytes) out') := by
  rw [decodeBlocks]
  split
  · -- not even the header is there
    rename_i htake
    have hshort := takeNumber?_eq_none_iff.mp htake
    refine .inr (.inl ⟨?_, out, rfl⟩)
    intro hfirst
    have := hfirst.header
    omega
  rename_i n rest hle htake
  obtain ⟨hlength, hn, hrest⟩ := takeNumber?_eq_some_iff.mp htake
  dsimp only at hn hrest ⊢
  have hheader : BlockHeader.ofNat n = firstHeader bytes := by rw [hn, firstHeader]
  rw [hheader, hrest]
  by_cases hkind : (firstHeader bytes).kind = 3
  · rw [if_pos hkind]
    exact .inl ⟨_, rfl⟩
  rw [if_neg hkind]
  -- a block that is longer than it may be is refused before it is looked at
  rcases way.checkStored (way.limits h out.size) (firstHeader bytes) with d | _
  · exact .inl ⟨d, rfl⟩
  dsimp only
  by_cases hempty : way = .asItComes ∧ (firstHeader bytes).stored = 0
  · -- the block is passed over
    have hbehind : behindFirst bytes = bytes.drop 3 := by rw [behindFirst, hempty.2, List.drop_zero]
    rw [if_pos hempty, hbehind]
    have hfirst : HasFirst bytes := ⟨hlength, hkind, by rw [hempty.2]; exact Nat.zero_le _⟩
    refine .inr (.inr ⟨hfirst, out, memory, ?_, rfl⟩)
    rw [appendBlock, if_pos hempty]
  rw [if_neg hempty]
  split
  · -- the block is cut short
    rename_i hshort
    rw [List.length_take] at hshort
    refine .inr (.inl ⟨?_, _, rfl⟩)
    intro hfirst
    have := hfirst.stored
    omega
  rename_i hstored
  rw [List.length_take] at hstored
  split
  · exact .inl ⟨_, rfl⟩
  rename_i out' memory' hblock
  have hfirst : HasFirst bytes := ⟨hlength, hkind, by omega⟩
  have happend : appendBlock way h memory (firstHeader bytes)
      ((bytes.drop 3).take (firstHeader bytes).stored) out = .ok (out', memory') := by
    rw [appendBlock, if_neg hempty, hblock]
  -- only behind the last block the whole length is checked
  split
  · split
    · exact .inl ⟨_, rfl⟩
    · exact .inr (.inr ⟨hfirst, out', memory', happend, rfl⟩)
  · exact .inr (.inr ⟨hfirst, out', memory', happend, rfl⟩)

/-- What stands behind the blocks of a frame and its checksum. -/
theorem of_finishFrame_eq_complete {h : Header} {bytes behind : Bytes}
    {out content : Array UInt8} (hfinish : finishFrame h bytes out = .complete content behind) :
    content = out ∧ (h.hasChecksum = true → 4 ≤ bytes.length)
      ∧ behind = bytes.drop (if h.hasChecksum then 4 else 0) := by
  rw [finishFrame] at hfinish
  split at hfinish
  · rename_i hchecksum
    split at hfinish
    · cases hfinish
    rename_i n rest hle htake
    obtain ⟨hlength, -, hrest⟩ := takeNumber?_eq_some_iff.mp htake
    split at hfinish
    · cases hfinish
      exact ⟨rfl, fun _ => hlength, by rw [if_pos hchecksum]; exact hrest⟩
    · cases hfinish
  · rename_i hnone
    cases hfinish
    exact ⟨rfl, fun hchecksum => absurd hchecksum hnone, by rw [if_neg hnone]; rfl⟩

theorem of_finishFrame_eq_cutShort {h : Header} {bytes : Bytes} {out part : Array UInt8}
    (hfinish : finishFrame h bytes out = .cutShort part) :
    h.hasChecksum = true ∧ bytes.length < 4 := by
  rw [finishFrame] at hfinish
  split at hfinish
  · rename_i hchecksum
    split at hfinish
    · rename_i htake
      exact ⟨hchecksum, takeNumber?_eq_none_iff.mp htake⟩
    · split at hfinish <;> cases hfinish
  · cases hfinish

/-- A frame is all there if its first block is and what stands behind that. -/
theorem isWhole_iff {hasChecksum : Bool} {bytes : Bytes} :
    isWhole hasChecksum bytes = true
      ↔ HasFirst bytes
        ∧ if (firstHeader bytes).isLast then hasChecksum = true → 4 ≤ (behindFirst bytes).length
          else isWhole hasChecksum (behindFirst bytes) = true := by
  rw [isWhole]
  split
  · rename_i htake
    have hshort := takeNumber?_eq_none_iff.mp htake
    simp only [Bool.false_eq_true, false_iff]
    intro hfirst
    have := hfirst.1.header
    omega
  rename_i n rest hle htake
  obtain ⟨hlength, hn, hrest⟩ := takeNumber?_eq_some_iff.mp htake
  dsimp only at hn hrest ⊢
  -- what the reader has taken is the first block, in the terms of `HasFirst`
  have hheader : BlockHeader.ofNat n = firstHeader bytes := by rw [hn, firstHeader]
  rw [hheader, hrest, ← behindFirst, List.length_take, List.length_take]
  split
  · rename_i hnot
    simp only [Bool.or_eq_true, decide_eq_true_eq] at hnot
    simp only [Bool.false_eq_true, false_iff]
    rintro ⟨hfirst, -⟩
    have hstored := hfirst.stored
    rcases hnot with hkind | hshort
    · exact hfirst.kind hkind
    · omega
  · rename_i hnot
    simp only [Bool.or_eq_true, decide_eq_true_eq, not_or] at hnot
    have hfirst : HasFirst bytes := ⟨hlength, hnot.1, by omega⟩
    split
    · simp only [hfirst, true_and, Bool.or_eq_true, Bool.not_eq_true']
      have hmin : min 4 (behindFirst bytes).length = 4 ↔ 4 ≤ (behindFirst bytes).length := by
        omega
      cases hasChecksum <;> simp [hmin]
    · simp only [hfirst, true_and]

/-! ## The ways agree -/

section

variable {way way' : Way} {h : Header}

/-- What is known of a frame that has been decoded to its end. -/
theorem of_decodeBlocks_eq_complete {memory : Memory} {bytes behind : Bytes}
    {out content : Array UInt8}
    (hdecode : decodeBlocks way h memory bytes out = .complete content behind) :
    HasFirst bytes ∧ ∃ out' memory',
      appendBlock way h memory (firstHeader bytes)
          ((bytes.drop 3).take (firstHeader bytes).stored) out = .ok (out', memory')
        ∧ (if (firstHeader bytes).isLast then finishFrame h (behindFirst bytes) out'
          else decodeBlocks way h memory' (behindFirst bytes) out') = .complete content behind := by
  rcases decodeBlocks_cases way h memory bytes out with
    ⟨d, hdefect⟩ | ⟨-, part, hcut⟩ | ⟨hfirst, out', memory', happend, hrest⟩
  · rw [hdefect] at hdecode
    cases hdecode
  · rw [hcut] at hdecode
    cases hdecode
  · exact ⟨hfirst, out', memory', happend, hrest ▸ hdecode⟩

/-- It is all there, and takes up some bytes. -/
theorem isWhole_of_decodeBlocks_eq_complete {memory : Memory} {bytes behind : Bytes}
    {out content : Array UInt8}
    (hdecode : decodeBlocks way h memory bytes out = .complete content behind) :
    isWhole h.hasChecksum bytes = true ∧ behind.length < bytes.length := by
  obtain ⟨hfirst, out', memory', -, hrest⟩ := of_decodeBlocks_eq_complete hdecode
  have hlt := hfirst.length_behindFirst_lt
  rw [isWhole_iff]
  by_cases hlast : (firstHeader bytes).isLast = true
  · rw [if_pos hlast] at hrest ⊢
    obtain ⟨-, hchecksum, rfl⟩ := of_finishFrame_eq_complete hrest
    rw [List.length_drop]
    exact ⟨⟨hfirst, hchecksum⟩, by omega⟩
  · rw [if_neg hlast] at hrest ⊢
    obtain ⟨hwhole, hshorter⟩ := isWhole_of_decodeBlocks_eq_complete hrest
    exact ⟨⟨hfirst, hwhole⟩, by omega⟩
termination_by bytes.length

/-- A frame that is cut short is not all there. -/
theorem isWhole_of_decodeBlocks_eq_cutShort {memory : Memory} {bytes : Bytes}
    {out part : Array UInt8} (hdecode : decodeBlocks way h memory bytes out = .cutShort part) :
    isWhole h.hasChecksum bytes = false := by
  rw [← Bool.not_eq_true, isWhole_iff]
  rintro ⟨hfirst, hwhole⟩
  have hlt := hfirst.length_behindFirst_lt
  rcases decodeBlocks_cases way h memory bytes out with
    ⟨d, hdefect⟩ | ⟨hnot, -⟩ | ⟨-, out', memory', -, hrest⟩
  · rw [hdefect] at hdecode
    cases hdecode
  · exact hnot hfirst
  rw [hrest] at hdecode
  by_cases hlast : (firstHeader bytes).isLast = true
  · rw [if_pos hlast] at hdecode hwhole
    obtain ⟨hchecksum, hshort⟩ := of_finishFrame_eq_cutShort hdecode
    have := hwhole hchecksum
    omega
  · rw [if_neg hlast] at hdecode hwhole
    rw [isWhole_of_decodeBlocks_eq_cutShort hdecode] at hwhole
    cases hwhole
termination_by bytes.length

/-- **The ways agree.** A frame that is decoded to its end in two ways has the same content and the
same end in both. -/
theorem eq_of_decodeBlocks_eq_complete {memory : Memory} {bytes behind behind' : Bytes}
    {out content content' : Array UInt8}
    (hdecode : decodeBlocks way h memory bytes out = .complete content behind)
    (hdecode' : decodeBlocks way' h memory bytes out = .complete content' behind') :
    content = content' ∧ behind = behind' := by
  obtain ⟨hfirst, out₁, memory₁, happend, hrest⟩ := of_decodeBlocks_eq_complete hdecode
  obtain ⟨-, out₂, memory₂, happend', hrest'⟩ := of_decodeBlocks_eq_complete hdecode'
  have hlt := hfirst.length_behindFirst_lt
  obtain ⟨rfl, rfl⟩ :=
    Prod.mk.inj ((agree_appendBlock way way' h memory ..).eq _ _ happend happend')
  by_cases hlast : (firstHeader bytes).isLast = true
  · rw [if_pos hlast] at hrest hrest'
    rw [hrest] at hrest'
    exact Decoded.complete.inj hrest'
  · rw [if_neg hlast] at hrest hrest'
    exact eq_of_decodeBlocks_eq_complete hrest hrest'
termination_by bytes.length

end

/-! ## Frames -/

section

variable {room room' : Nat} {h : Header} {bytes : Bytes}

/-- Without its end no frame is decoded at one go, so the room does not matter. -/
theorem decodeFrame_of_not_isWhole (hnot : isWhole h.hasChecksum bytes = false) :
    decodeFrame room h bytes = decodeFrame room' h bytes := by
  have hnone (announced : Option Nat) :
      announced.filter (fun _ => isWhole h.hasChecksum bytes) = none := by
    cases announced with
    | none => rfl
    | some size => rw [hnot, Option.filter_some, if_neg Bool.false_ne_true]
  rw [decodeFrame, decodeFrame, hnone, hnone]

/-- A frame that is not refused is decoded at one go, which takes one that is all there, or block
by block. -/
theorem decodeFrame_cases (room : Nat) (h : Header) (bytes : Bytes) :
    (∃ d, decodeFrame room h bytes = .defect d)
      ∨ ∃ way, decodeFrame room h bytes = decodeBlocks way h {} bytes #[] := by
  rw [decodeFrame]
  split
  · split
    · exact .inl ⟨_, rfl⟩
    · exact .inr ⟨_, rfl⟩
  · split
    · exact .inl ⟨_, rfl⟩
    split
    · exact .inl ⟨_, rfl⟩
    · exact .inr ⟨_, rfl⟩

theorem exists_way_of_decodeFrame_eq_complete {content : Array UInt8} {behind : Bytes}
    (hdecode : decodeFrame room h bytes = .complete content behind) :
    ∃ way, decodeBlocks way h {} bytes #[] = .complete content behind := by
  rcases decodeFrame_cases room h bytes with ⟨d, hdefect⟩ | ⟨way, hway⟩
  · rw [hdefect] at hdecode
    cases hdecode
  · exact ⟨way, hway.symm.trans hdecode⟩

/-- A frame has one content and one end, whatever the room. -/
theorem eq_of_decodeFrame_eq_complete {content content' : Array UInt8} {behind behind' : Bytes}
    (hdecode : decodeFrame room h bytes = .complete content behind)
    (hdecode' : decodeFrame room' h bytes = .complete content' behind') :
    content = content' ∧ behind = behind' := by
  obtain ⟨way, hway⟩ := exists_way_of_decodeFrame_eq_complete hdecode
  obtain ⟨way', hway'⟩ := exists_way_of_decodeFrame_eq_complete hdecode'
  exact eq_of_decodeBlocks_eq_complete hway hway'

theorem isWhole_of_decodeFrame_eq_complete {content : Array UInt8} {behind : Bytes}
    (hdecode : decodeFrame room h bytes = .complete content behind) :
    isWhole h.hasChecksum bytes = true ∧ behind.length < bytes.length := by
  obtain ⟨way, hway⟩ := exists_way_of_decodeFrame_eq_complete hdecode
  exact isWhole_of_decodeBlocks_eq_complete hway

theorem isWhole_of_decodeFrame_eq_cutShort {part : Array UInt8}
    (hdecode : decodeFrame room h bytes = .cutShort part) :
    isWhole h.hasChecksum bytes = false := by
  rcases decodeFrame_cases room h bytes with ⟨d, hdefect⟩ | ⟨way, hway⟩
  · rw [hdefect] at hdecode
    cases hdecode
  · exact isWhole_of_decodeBlocks_eq_cutShort (hway.symm.trans hdecode)

/-- What there is of a frame that is cut short does not depend on the room. -/
theorem decodeFrame_eq_cutShort_congr {part : Array UInt8}
    (hdecode : decodeFrame room h bytes = .cutShort part) :
    decodeFrame room' h bytes = .cutShort part := by
  rw [← hdecode]
  exact decodeFrame_of_not_isWhole (isWhole_of_decodeFrame_eq_cutShort hdecode)

end

end LogSearch.Zstd
