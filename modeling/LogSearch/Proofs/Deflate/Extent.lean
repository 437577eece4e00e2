/-
Where a compressed stream ends.

A stream says by itself where it ends. Every reader of it takes a front off the bits and would
take the same front if anything else stood behind that (`TakesFront`). Readers that follow one
another keep this up (`TakesFront.trans`), so it is settled at the leaves, which read a number or
a code word. One of them looks at more than its front: to get to the next byte it counts what is
left. So what stands behind a front has to end at the same place of a byte, which it does as long
as whole bytes are exchanged.

For a whole stream it follows that the bytes behind it make no difference to its content
(`exists_front_of_inflate`), and so that no part of a stream is one.
-/
import LogSearch.Chain
import LogSearch.Deflate.Inflate

set_option autoImplicit false

namespace LogSearch.Deflate

/-! ## Fronts -/

/-- Whether the bits in front of `rest` are all that counts: with anything else behind them, up to
the same place of a byte, this is what is left when they have been read. -/
def TakesFront (reads : Bits → Bits → Prop) (bits rest : Bits) : Prop :=
  ∃ front, bits = front ++ rest
    ∧ ∀ behind : Bits, behind.length % 8 = rest.length % 8 → reads (front ++ behind) behind

namespace TakesFront

variable {reads first second : Bits → Bits → Prop} {bits between rest : Bits}

/-- Nothing is read. -/
theorem refl (h : ∀ bits, reads bits bits) (bits : Bits) : TakesFront reads bits bits :=
  ⟨[], rfl, fun behind _ => h behind⟩

theorem imp (h : TakesFront first bits rest)
    (himp : ∀ bits rest, first bits rest → reads bits rest) :
    TakesFront reads bits rest := by
  obtain ⟨front, rfl, hfirst⟩ := h
  exact ⟨front, rfl, fun behind hbehind => himp _ _ (hfirst behind hbehind)⟩

/-- One front behind another. -/
theorem trans (h : TakesFront first bits between) (h' : TakesFront second between rest)
    (himp : ∀ bits between rest, first bits between → second between rest → reads bits rest) :
    TakesFront reads bits rest := by
  obtain ⟨front, rfl, hfirst⟩ := h
  obtain ⟨front', rfl, hsecond⟩ := h'
  refine ⟨front ++ front', (List.append_assoc ..).symm, fun behind hbehind => ?_⟩
  have hplace : (front' ++ behind).length % 8 = (front' ++ rest).length % 8 := by
    rw [List.length_append, List.length_append]
    omega
  rw [List.append_assoc]
  exact himp _ _ _ (hfirst _ hplace) (hsecond behind hbehind)

/-- A bit in front of a front. -/
theorem cons (b : Bool) (h : TakesFront first bits rest)
    (himp : ∀ bits rest, first bits rest → reads (b :: bits) rest) :
    TakesFront reads (b :: bits) rest := by
  obtain ⟨front, rfl, hfirst⟩ := h
  exact ⟨b :: front, rfl, fun behind hbehind => himp _ _ (hfirst behind hbehind)⟩

end TakesFront

/-! ## Numbers and code words -/

section Leaves

variable {bits : Bits}

theorem takesFront_takeNat {n : Nat} {t : Taken Nat bits} (h : takeNat n bits = some t) :
    TakesFront (fun bits rest =>
      ∃ hle, takeNat n bits = some ⟨t.value, rest, hle⟩) bits t.rest := by
  induction n generalizing bits with
  | zero =>
    cases h
    exact .refl (fun bits => ⟨Nat.le_refl _, rfl⟩) bits
  | succ n ih =>
    cases bits with
    | nil => cases h
    | cons b bits =>
      rw [takeNat] at h
      split at h
      · cases h
      · rename_i value rest hle htake
        cases h
        refine (ih htake).cons b ?_
        rintro bits rest ⟨hle, htake⟩
        exact ⟨Nat.le_succ_of_le hle, by rw [takeNat, htake]⟩

theorem takesFront_takeOrStop {n : Nat} {t : Taken Nat bits} (h : takeOrStop n bits = .ok t) :
    TakesFront (fun bits rest => ∃ hle, takeOrStop n bits = .ok ⟨t.value, rest, hle⟩)
      bits t.rest := by
  rw [takeOrStop] at h
  split at h
  · rename_i taken htake
    cases h
    refine (takesFront_takeNat htake).imp ?_
    rintro bits rest ⟨hle, htake⟩
    exact ⟨hle, by rw [takeOrStop, htake]⟩
  · cases h

theorem takesFront_descend {tree : Tree} {t : Taken Nat bits}
    (h : tree.descend bits = some (some t)) :
    TakesFront (fun bits rest => ∃ hle, tree.descend bits = some (some ⟨t.value, rest, hle⟩))
      bits t.rest := by
  induction tree generalizing bits with
  | unused =>
    rw [Tree.descend] at h
    cases h
  | leaf n =>
    rw [Tree.descend] at h
    cases h
    exact .refl (fun bits => ⟨Nat.le_refl _, by rw [Tree.descend]⟩) bits
  | branch zero one ihzero ihone =>
    cases bits with
    | nil =>
      rw [Tree.descend] at h
      cases h
    | cons b bits =>
      rw [Tree.descend] at h
      split at h
      · cases h
      · cases h
      · rename_i n rest hle hdescend
        cases h
        have hbranch : TakesFront (fun bits rest =>
            ∃ hle, (if b then one else zero).descend bits = some (some ⟨n, rest, hle⟩))
            bits rest := by
          cases b with
          | false => exact ihzero hdescend
          | true => exact ihone hdescend
        refine hbranch.cons b ?_
        rintro bits rest ⟨hle, hdescend⟩
        exact ⟨Nat.le_succ_of_le hle, by rw [Tree.descend, hdescend]⟩

theorem takesFront_read {code : Code} {n : Nat} {rest : Bits} {hlt : rest.length < bits.length}
    (h : code.read bits = .symbol n rest hlt) :
    TakesFront (fun bits rest => ∃ hlt, code.read bits = .symbol n rest hlt) bits rest := by
  cases bits with
  | nil => cases h
  | cons b bits =>
    rw [Code.read] at h
    split at h
    · cases h
    · cases h
    · rename_i n rest hle hdescend
      cases h
      refine (takesFront_descend hdescend).cons b ?_
      rintro bits rest ⟨hle, hdescend⟩
      exact ⟨Nat.lt_succ_of_le hle, by rw [Code.read, hdescend]⟩

theorem takesFront_takeExtended {bases : List (Nat × Nat)} {defect : Defect} {n : Nat}
    {t : Taken Nat bits} (h : takeExtended bases defect n bits = .ok t) :
    TakesFront (fun bits rest => ∃ hle, takeExtended bases defect n bits = .ok ⟨t.value, rest, hle⟩)
      bits t.rest := by
  rw [takeExtended] at h
  split at h
  · cases h
  · rename_i base extra hbase
    split at h
    · cases h
    · rename_i more rest hle htake
      cases h
      refine (takesFront_takeOrStop htake).imp ?_
      rintro bits rest ⟨hle, htake⟩
      exact ⟨hle, by rw [takeExtended, hbase]; simp only [htake]⟩

end Leaves

/-! ## The codes of a block -/

section CodesOfBlock

variable {bits : Bits}

theorem takeShortLengths_succ (count : Nat) (bits : Bits) :
    takeShortLengths (count + 1) bits
      = match takeOrStop 3 bits with
        | .error e => .error e
        | .ok ⟨length, rest, h⟩ =>
          match takeShortLengths count rest with
          | .error e => .error e
          | .ok ⟨lengths, rest', h'⟩ => .ok ⟨length :: lengths, rest', Nat.le_trans h' h⟩ :=
  rfl

theorem takesFront_takeShortLengths {count : Nat} {t : Taken (List Nat) bits}
    (h : takeShortLengths count bits = .ok t) :
    TakesFront (fun bits rest => ∃ hle, takeShortLengths count bits = .ok ⟨t.value, rest, hle⟩)
      bits t.rest := by
  induction count generalizing bits with
  | zero =>
    cases h
    exact .refl (fun bits => ⟨Nat.le_refl _, rfl⟩) bits
  | succ count ih =>
    rw [takeShortLengths_succ] at h
    split at h
    · cases h
    · rename_i length rest hle htake
      split at h
      · cases h
      · rename_i lengths rest' hle' hlengths
        cases h
        refine (takesFront_takeOrStop htake).trans (ih hlengths) ?_
        rintro bits between rest ⟨hle, htake⟩ ⟨hle', hlengths⟩
        exact ⟨Nat.le_trans hle' hle, by rw [takeShortLengths_succ, htake]; simp only [hlengths]⟩

theorem takesFront_takeRun {code : Code} {previous : Option Nat} {run : Run bits}
    (h : takeRun code previous bits = .ok run) :
    TakesFront (fun bits rest =>
      ∃ hlt, takeRun code previous bits = .ok ⟨run.length, run.count, rest, hlt⟩)
      bits run.rest := by
  rw [takeRun] at h
  split at h
  · cases h
  · cases h
  · rename_i n rest hlt hread
    -- a length of its own, or a repetition with some bits behind its code word
    by_cases hplain : n < 16
    · rw [if_pos hplain] at h
      cases h
      refine (takesFront_read hread).imp ?_
      rintro bits rest ⟨hlt, hread⟩
      exact ⟨hlt, by rw [takeRun, hread]; exact if_pos hplain⟩
    · rw [if_neg hplain] at h
      dsimp only at h
      split at h
      · cases h
      · rename_i more rest' hle htake
        by_cases hsame : n = 16
        · rw [if_pos hsame] at h
          cases previous with
          | none => cases h
          | some length =>
            cases h
            refine (takesFront_read hread).trans (takesFront_takeOrStop htake) ?_
            rintro bits between rest ⟨hlt, hread⟩ ⟨hle, htake⟩
            refine ⟨Nat.lt_of_le_of_lt hle hlt, ?_⟩
            rw [takeRun, hread]
            dsimp only
            rw [if_neg hplain, htake]
            exact if_pos hsame
        · rw [if_neg hsame] at h
          cases h
          refine (takesFront_read hread).trans (takesFront_takeOrStop htake) ?_
          rintro bits between rest ⟨hlt, hread⟩ ⟨hle, htake⟩
          refine ⟨Nat.lt_of_le_of_lt hle hlt, ?_⟩
          rw [takeRun, hread]
          dsimp only
          rw [if_neg hplain, htake]
          exact if_neg hsame

theorem takesFront_takeLengths {code : Code} {need : Nat} {previous : Option Nat}
    {t : Taken (List Nat) bits} (h : takeLengths code need previous bits = .ok t) :
    TakesFront (fun bits rest =>
      ∃ hle, takeLengths code need previous bits = .ok ⟨t.value, rest, hle⟩) bits t.rest := by
  fun_induction takeLengths code need previous bits with
  | case1 previous bits =>
    cases h
    exact .refl (fun bits => ⟨Nat.le_refl _, by rw [takeLengths]; exact if_pos rfl⟩) bits
  | case2 need previous bits hneed e hrun => cases h
  | case3 need previous bits hneed length count rest hlt hrun hcount => cases h
  | case4 need previous bits hneed length count rest hlt hrun hcount e hlengths ih => cases h
  | case5 need previous bits hneed length count rest hlt hrun hcount lengths rest' hle hlengths ih =>
    cases h
    refine (takesFront_takeRun hrun).trans (ih hlengths) ?_
    rintro bits between rest ⟨hlt, hrun⟩ ⟨hle, hlengths⟩
    refine ⟨Nat.le_trans hle (Nat.le_of_lt hlt), ?_⟩
    rw [takeLengths, if_neg hneed, hrun]
    dsimp only
    rw [if_neg hcount, hlengths]

theorem takesFront_takeCodes {t : Taken Codes bits} (h : takeCodes bits = .ok t) :
    TakesFront (fun bits rest => ∃ hle, takeCodes bits = .ok ⟨t.value, rest, hle⟩)
      bits t.rest := by
  obtain ⟨⟨header, bits₁, hle₁⟩, hheader, h⟩ := exists_of_bind_eq_ok h
  dsimp only at h
  split at h
  · cases h
  rename_i hcounts
  obtain ⟨⟨given, bits₂, hle₂⟩, hgiven, h⟩ := exists_of_bind_eq_ok h
  dsimp only at h
  split at h
  case h_2 => cases h
  rename_i code hcode
  obtain ⟨⟨lengths, bits₃, hle₃⟩, hlengths, h⟩ := exists_of_bind_eq_ok h
  dsimp only at h
  split at h
  · cases h
  rename_i hend
  split at h
  case h_2 => cases h
  rename_i literals hliterals
  split at h
  case h_2 => cases h
  rename_i distances hdistances
  cases h
  -- the lengths of the short code and those that are read with it follow one another
  have hlater : TakesFront (fun bits rest => ∃ between hle hle',
      takeShortLengths (header / 1024 + 4) bits = .ok ⟨given, between, hle⟩
        ∧ takeLengths code (header % 32 + 257 + (header / 32 % 32 + 1)) none between
          = .ok ⟨lengths, rest, hle'⟩) bits₁ bits₃ := by
    refine (takesFront_takeShortLengths hgiven).trans (takesFront_takeLengths hlengths) ?_
    rintro bits between rest ⟨hle, hgiven⟩ ⟨hle', hlengths⟩
    exact ⟨between, hle, hle', hgiven, hlengths⟩
  refine (takesFront_takeOrStop hheader).trans hlater ?_
  rintro bits between rest ⟨hle₁, hheader⟩ ⟨between', hle₂, hle₃, hgiven, hlengths⟩
  refine ⟨Nat.le_trans hle₃ (Nat.le_trans hle₂ hle₁), bind_eq_ok_iff.mpr ⟨_, hheader, ?_⟩⟩
  dsimp only
  rw [if_neg hcounts]
  refine bind_eq_ok_iff.mpr ⟨_, hgiven, ?_⟩
  dsimp only
  rw [hcode]
  refine bind_eq_ok_iff.mpr ⟨_, hlengths, ?_⟩
  dsimp only
  rw [if_neg hend, hliterals]
  dsimp only
  rw [hdistances]
  rfl

end CodesOfBlock

/-! ## The contents of a block -/

/-- The bits behind an item. -/
def Item.rest {bits : Bits} : Item bits → Bits
  | literal _ rest _ => rest
  | reference _ _ rest _ => rest
  | stop rest _ => rest

/-- The same item in front of other bits. -/
def Item.before {bits bits' : Bits} (rest : Bits) (h : rest.length < bits'.length) :
    Item bits → Item bits'
  | literal byte _ _ => .literal byte rest h
  | reference length distance _ _ => .reference length distance rest h
  | stop _ _ => .stop rest h

section Contents

variable {codes : Codes} {bits rest : Bits} {out out' : Array UInt8}

/-- The bits behind the code word of a reference: its length and its distance. -/
theorem takesFront_reference {n m length distance : Nat} {between between' : Bits}
    {hle : between.length ≤ bits.length} {hlt : between'.length < between.length}
    {hle' : rest.length ≤ between'.length}
    (hlength : takeExtended lengthBases .literalCode n bits = .ok ⟨length, between, hle⟩)
    (hread : codes.distances.read between = .symbol m between' hlt)
    (hdistance : takeExtended distanceBases .distanceCode m between'
      = .ok ⟨distance, rest, hle'⟩) :
    TakesFront (fun bits rest => ∃ between hle between' hlt hle',
      takeExtended lengthBases .literalCode n bits = .ok ⟨length, between, hle⟩
        ∧ codes.distances.read between = .symbol m between' hlt
        ∧ takeExtended distanceBases .distanceCode m between' = .ok ⟨distance, rest, hle'⟩)
      bits rest := by
  have hlater : TakesFront (fun bits rest => ∃ between hlt hle,
      codes.distances.read bits = .symbol m between hlt
        ∧ takeExtended distanceBases .distanceCode m between = .ok ⟨distance, rest, hle⟩)
      between rest := by
    refine (takesFront_read hread).trans (takesFront_takeExtended hdistance) ?_
    rintro bits between rest ⟨hlt, hread⟩ ⟨hle, hdistance⟩
    exact ⟨between, hlt, hle, hread, hdistance⟩
  refine (takesFront_takeExtended hlength).trans hlater ?_
  rintro bits between rest ⟨hle, hlength⟩ ⟨between', hlt, hle', hread, hdistance⟩
  exact ⟨between, hle, between', hlt, hle', hlength, hread, hdistance⟩

theorem takesFront_takeItem {item : Item bits} (h : takeItem codes bits = .ok item) :
    TakesFront (fun bits rest => ∃ hlt, takeItem codes bits = .ok (item.before rest hlt))
      bits item.rest := by
  rw [takeItem] at h
  split at h
  · cases h
  · cases h
  rename_i n bits₁ hlt₁ hread
  -- the first code word says which item it is
  by_cases hliteral : n < 256
  · rw [if_pos hliteral] at h
    cases h
    refine (takesFront_read hread).imp ?_
    rintro bits rest ⟨hlt, hread⟩
    exact ⟨hlt, by rw [takeItem, hread]; exact if_pos hliteral⟩
  rw [if_neg hliteral] at h
  by_cases hstop : n = 256
  · rw [if_pos hstop] at h
    cases h
    refine (takesFront_read hread).imp ?_
    rintro bits rest ⟨hlt, hread⟩
    refine ⟨hlt, ?_⟩
    rw [takeItem, hread]
    dsimp only
    rw [if_neg hliteral]
    exact if_pos hstop
  rw [if_neg hstop] at h
  -- the length and the distance of a reference, each with some bits behind its code word
  split at h
  · cases h
  rename_i length bits₂ hle₂ hlength
  split at h
  · cases h
  · cases h
  rename_i m bits₃ hlt₃ hread'
  split at h
  · cases h
  rename_i distance bits₄ hle₄ hdistance
  cases h
  refine (takesFront_read hread).trans (takesFront_reference hlength hread' hdistance) ?_
  rintro bits between rest ⟨hlt, hread⟩ ⟨between₂, hle₂, between₃, hlt₃, hle₄, hlength, hread',
    hdistance⟩
  refine ⟨by show rest.length < bits.length; omega, ?_⟩
  rw [takeItem, hread]
  dsimp only
  rw [if_neg hliteral, if_neg hstop, hlength]
  dsimp only
  rw [hread']
  dsimp only
  rw [hdistance]
  rfl

theorem takesFront_inflateItems {limit : Nat} {hbits : bits.length ≤ limit}
    {hrest : rest.length ≤ limit}
    (h : inflateItems codes bits hbits out = .complete out' rest hrest) :
    TakesFront (fun bits rest => ∀ (limit : Nat) (hbits : bits.length ≤ limit),
      ∃ hrest, inflateItems codes bits hbits out = .complete out' rest hrest) bits rest := by
  -- along the recursion of the reader, which ends only at the end of a block
  fun_induction inflateItems codes bits hbits out with
  | case1 bits hbits out hitem => cases h
  | case2 bits hbits out d hitem => cases h
  | case3 bits hbits out bits' hlt hitem =>
    cases h
    refine (takesFront_takeItem hitem).imp ?_
    rintro bits rest ⟨hlt, hitem⟩ limit hbits
    have hrest : rest.length ≤ limit := by omega
    exact ⟨hrest, by rw [inflateItems, hitem]; rfl⟩
  | case4 bits hbits out byte bits' hlt hitem ih =>
    refine (takesFront_takeItem hitem).trans (ih h) ?_
    rintro bits between rest ⟨hlt, hitem⟩ hbetween limit hbits
    have hle : between.length ≤ limit := by omega
    obtain ⟨hrest, hread⟩ := hbetween limit hle
    exact ⟨hrest, by rw [inflateItems, hitem]; exact hread⟩
  | case5 bits hbits out length distance bits' hlt hitem hfar => cases h
  | case6 bits hbits out length distance bits' hlt hitem hnear ih =>
    refine (takesFront_takeItem hitem).trans (ih h) ?_
    rintro bits between rest ⟨hlt, hitem⟩ hbetween limit hbits
    have hle : between.length ≤ limit := by omega
    obtain ⟨hrest, hread⟩ := hbetween limit hle
    refine ⟨hrest, ?_⟩
    rw [inflateItems, hitem]
    exact (if_neg hnear).trans hread

theorem takesFront_copyBytes {limit n : Nat} {hbits : bits.length ≤ limit}
    {hrest : rest.length ≤ limit}
    (h : copyBytes n bits hbits out = .complete out' rest hrest) :
    TakesFront (fun bits rest => ∀ (limit : Nat) (hbits : bits.length ≤ limit),
      ∃ hrest, copyBytes n bits hbits out = .complete out' rest hrest) bits rest := by
  induction n generalizing bits out with
  | zero =>
    cases h
    exact ⟨[], rfl, fun behind _ limit hbits => ⟨hbits, rfl⟩⟩
  | succ n ih =>
    rw [copyBytes] at h
    split at h
    · cases h
    · rename_i value bits' hle htake
      refine (takesFront_takeNat htake).trans (ih h) ?_
      rintro bits between rest ⟨hle, htake⟩ hbetween limit hbits
      obtain ⟨hrest, hread⟩ := hbetween limit (Nat.le_trans hle hbits)
      exact ⟨hrest, by rw [copyBytes, htake]; exact hread⟩

/-- Going on to the next byte counts the bits that are left, up to whole bytes. -/
theorem takesFront_alignToByte (bits : Bits) :
    TakesFront (fun bits rest => alignToByte bits = rest) bits (alignToByte bits) := by
  refine ⟨bits.take (bits.length % 8), (List.take_append_drop _ _).symm, fun behind hbehind => ?_⟩
  have hfront : (bits.take (bits.length % 8)).length = bits.length % 8 := by
    rw [List.length_take]
    omega
  have hplace : (bits.take (bits.length % 8) ++ behind).length % 8 = bits.length % 8 := by
    rw [alignToByte, List.length_drop] at hbehind
    rw [List.length_append, hfront]
    omega
  show (bits.take (bits.length % 8) ++ behind).drop _ = behind
  rw [hplace]
  exact List.drop_left' hfront

theorem takesFront_inflateStored {hrest : rest.length ≤ bits.length}
    (h : inflateStored bits out = .complete out' rest hrest) :
    TakesFront (fun bits rest => ∃ hrest, inflateStored bits out = .complete out' rest hrest)
      bits rest := by
  rw [inflateStored] at h
  split at h
  · cases h
  rename_i lengths bits' hle htake
  dsimp only at h
  by_cases hlengths : lengths % 65536 + lengths / 65536 ≠ 65535
  · rw [if_pos hlengths] at h
    cases h
  rw [if_neg hlengths] at h
  have hlater : TakesFront (fun bits rest =>
      ∃ between hle, takeNat 32 bits = some ⟨lengths, between, hle⟩
      ∧ ∀ (limit : Nat) (hbits : between.length ≤ limit),
        ∃ hrest, copyBytes (lengths % 65536) between hbits out = .complete out' rest hrest)
      (alignToByte bits) rest := by
    refine (takesFront_takeNat htake).trans (takesFront_copyBytes h) ?_
    rintro bits between rest ⟨hle, htake⟩ hcopy
    exact ⟨between, hle, htake, hcopy⟩
  refine (takesFront_alignToByte bits).trans hlater ?_
  rintro bits between rest rfl ⟨between', hle, htake, hcopy⟩
  obtain ⟨hrest, hread⟩ := hcopy bits.length (Nat.le_trans hle (length_alignToByte_le bits))
  refine ⟨hrest, ?_⟩
  rw [inflateStored, htake]
  exact (if_neg hlengths).trans hread

theorem takesFront_inflateBlock {kind : Nat} {hrest : rest.length ≤ bits.length}
    (h : inflateBlock kind bits out = .complete out' rest hrest) :
    TakesFront (fun bits rest => ∃ hrest, inflateBlock kind bits out = .complete out' rest hrest)
      bits rest := by
  rw [inflateBlock] at h
  by_cases hstored : kind = 0
  · rw [if_pos hstored] at h
    refine (takesFront_inflateStored h).imp ?_
    rintro bits rest ⟨hrest, hread⟩
    exact ⟨hrest, (if_pos hstored).trans hread⟩
  rw [if_neg hstored] at h
  by_cases hfixed : kind = 1
  · rw [if_pos hfixed] at h
    refine (takesFront_inflateItems h).imp ?_
    intro bits rest hitems
    obtain ⟨hrest, hread⟩ := hitems bits.length (Nat.le_refl _)
    exact ⟨hrest, (if_neg hstored).trans ((if_pos hfixed).trans hread)⟩
  rw [if_neg hfixed] at h
  by_cases hbrought : kind = 2
  · rw [if_pos hbrought] at h
    split at h
    · cases h
    · cases h
    rename_i codes bits' hle hcodes
    refine (takesFront_takeCodes hcodes).trans (takesFront_inflateItems h) ?_
    rintro bits between rest ⟨hle, hcodes⟩ hitems
    obtain ⟨hrest, hread⟩ := hitems bits.length hle
    refine ⟨hrest, ?_⟩
    rw [inflateBlock, if_neg hstored, if_neg hfixed, if_pos hbrought, hcodes]
    exact hread
  · rw [if_neg hbrought] at h
    cases h

/-- A block with the three bits in front of it. -/
theorem takesFront_headedBlock {last low high : Bool} {hrest : rest.length ≤ bits.length}
    (h : inflateBlock (low.toNat + 2 * high.toNat) bits out = .complete out' rest hrest) :
    TakesFront (fun bits rest => ∃ block hrest, bits = last :: low :: high :: block
      ∧ inflateBlock (low.toNat + 2 * high.toNat) block out = .complete out' rest hrest)
      (last :: low :: high :: bits) rest := by
  obtain ⟨front, rfl, hread⟩ := takesFront_inflateBlock h
  refine ⟨last :: low :: high :: front, rfl, fun behind hbehind => ?_⟩
  obtain ⟨hrest, hblock⟩ := hread behind hbehind
  exact ⟨front ++ behind, hrest, rfl, hblock⟩

theorem takesFront_inflateBlocks {limit : Nat} {hbits : bits.length ≤ limit}
    {hrest : rest.length ≤ limit}
    (h : inflateBlocks bits hbits out = .complete out' rest hrest) :
    TakesFront (fun bits rest => ∀ (limit : Nat) (hbits : bits.length ≤ limit),
      ∃ hrest, inflateBlocks bits hbits out = .complete out' rest hrest) bits rest := by
  -- along the recursion of the reader, which goes on as long as a block is not the last one
  fun_induction inflateBlocks bits hbits out with
  | case1 out last low high bits hbits hshorter d hblock => cases h
  | case2 out last low high bits hbits hshorter out₁ hblock => cases h
  | case3 out low high bits out₁ bits₁ hle hblock hbits =>
    cases h
    refine (takesFront_headedBlock hblock).imp ?_
    rintro _ rest ⟨block, hle, rfl, hblock⟩ limit hbits
    have hrest : rest.length ≤ limit :=
      Nat.le_trans hle (Nat.le_trans (Nat.le_add_right _ 3) hbits)
    refine ⟨hrest, ?_⟩
    rw [inflateBlocks, hblock]
    rfl
  | case4 out last low high bits hbits hshorter out₁ bits₁ hle hblock hlast _ ih =>
    refine (takesFront_headedBlock hblock).trans (ih h) ?_
    rintro _ between rest ⟨block, hle, rfl, hblock⟩ hbetween limit hbits
    obtain ⟨hrest, hread⟩ :=
      hbetween limit (Nat.le_trans hle (Nat.le_trans (Nat.le_add_right _ 3) hbits))
    refine ⟨hrest, ?_⟩
    rw [inflateBlocks, hblock]
    exact (if_neg hlast).trans hread
  | case5 bits _ out hbits hshort => cases h

end Contents

/-! ## Whole streams -/

theorem length_bitsOf (bytes : Bytes) : (bitsOf bytes).length = 8 * bytes.length := by
  induction bytes with
  | nil => rfl
  | cons b bytes ih =>
    have hbyte : (bitsOfByte b).length = 8 := rfl
    rw [bitsOf, List.flatMap_cons, ← bitsOf, List.length_append, hbyte, ih, List.length_cons]
    omega

theorem bitsOf_append (front back : Bytes) : bitsOf (front ++ back) = bitsOf front ++ bitsOf back :=
  List.flatMap_append

/-- A front of the bits leaves some bits of the byte that it ends in, and the bytes behind that. -/
theorem exists_cut_of_bitsOf_eq {bytes : Bytes} {front rest : Bits}
    (h : bitsOf bytes = front ++ rest) :
    ∃ between, between.length = rest.length % 8
      ∧ bitsOf (bytes.take (bytes.length - rest.length / 8)) = front ++ between := by
  generalize hcount : bytes.length - rest.length / 8 = count
  have hlength : 8 * bytes.length = front.length + rest.length := by
    rw [← length_bitsOf, h, List.length_append]
  have htake : (bitsOf (bytes.take count)).length = 8 * count := by
    rw [length_bitsOf, List.length_take]
    omega
  have hcut : bitsOf (bytes.take count) ++ bitsOf (bytes.drop count) = bitsOf bytes := by
    rw [← bitsOf_append, List.take_append_drop]
  obtain ⟨between, hbetween⟩ : front <+: bitsOf (bytes.take count) :=
    List.prefix_of_prefix_length_le ⟨rest, h.symm⟩ ⟨_, hcut⟩ (by omega)
  refine ⟨between, ?_, hbetween.symm⟩
  rw [← hbetween, List.length_append] at htake
  omega

/-- **A stream says where it ends.** With anything else behind it, its content is the same, and what
is behind it is left. -/
theorem exists_front_of_inflate {bytes content rest : Bytes}
    (h : inflate bytes = .complete content rest) :
    ∃ front, bytes = front ++ rest
      ∧ ∀ behind, inflate (front ++ behind) = .complete content behind := by
  rw [inflate] at h
  split at h
  case h_2 => cases h
  case h_3 => cases h
  rename_i out bits hle hblocks
  cases h
  obtain ⟨front, hfront, hread⟩ := takesFront_inflateBlocks hblocks
  obtain ⟨between, hbetween, hcut⟩ := exists_cut_of_bitsOf_eq hfront
  refine ⟨_, (List.take_append_drop _ _).symm, fun behind => ?_⟩
  -- what is exchanged are whole bytes, and so the bits behind the front end at the same place
  have hlength : (between ++ bitsOf behind).length = bits.length % 8 + 8 * behind.length := by
    rw [List.length_append, hbetween, length_bitsOf]
  have hbits : bitsOf (bytes.take (bytes.length - bits.length / 8) ++ behind)
      = front ++ (between ++ bitsOf behind) := by
    rw [bitsOf_append, hcut, List.append_assoc]
  have hread := hread (between ++ bitsOf behind) (by omega)
  rw [← hbits] at hread
  obtain ⟨hrest, hblocks⟩ := hread _ (Nat.le_refl _)
  rw [inflate, hblocks]
  have hbehind : (between ++ bitsOf behind).length / 8 = behind.length := by omega
  dsimp only
  rw [hbehind, List.length_append, Nat.add_sub_cancel, List.drop_left]

/-- What stands behind a stream is passed on. -/
theorem inflate_append {bytes content rest : Bytes} (h : inflate bytes = .complete content rest)
    (behind : Bytes) : inflate (bytes ++ behind) = .complete content (rest ++ behind) := by
  obtain ⟨front, rfl, hread⟩ := exists_front_of_inflate h
  rw [List.append_assoc]
  exact hread (rest ++ behind)

end LogSearch.Deflate
