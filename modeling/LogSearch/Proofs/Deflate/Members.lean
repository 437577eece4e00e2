/-
Reading gzip members.

There are two readers of members. The strict one expects a file to be one member; the other one
takes headers lightly and reads members in a row.

What the strict one reads is exactly what can be written as a member (`takeGzip_eq_ok_iff`). The
other one reads more, but it reads every member (`takeMember?_append`) and no part of one
(`takeMember?_of_cut`). The second holds because a stream says where it ends: with more bytes
behind it a reader reads the same and passes them on. If it read a part of a member, then it would
have the rest of that left over where nothing is left.

For files of members it follows that members in a row are read in a row, and that a file that ends
inside a member is not read at all, by neither reader.
-/
import LogSearch.Proofs.Deflate.Extent
import LogSearch.Proofs.Deflate.Headers

set_option autoImplicit false

namespace LogSearch.Deflate

/-! ## The strict reader -/

variable {stream bytes content rest left : Bytes}

/-- A stream of its own, in front of anything. -/
theorem inflate_eq_complete_iff : inflate bytes = .complete content rest
    ↔ ∃ packed, inflate packed = .complete content [] ∧ packed ++ rest = bytes := by
  constructor
  · intro h
    obtain ⟨packed, rfl, hread⟩ := exists_front_of_inflate h
    have halone := hread []
    rw [List.append_nil] at halone
    exact ⟨packed, halone, rfl⟩
  · rintro ⟨packed, halone, rfl⟩
    exact inflate_append halone rest

theorem takeContent_eq_ok_iff : takeContent bytes = .ok (content, rest)
    ↔ inflate bytes = .complete content rest := by
  rw [takeContent]
  cases inflate bytes <;> simp

/-- The checksum and the length of a content are read where they are written. -/
theorem contentCheck_append_eq_iff : contentCheck content ++ rest = bytes
    ↔ ∃ between hle hle',
      takeNumber? 4 bytes = some ⟨(Checksum.crc32 content).toNat, between, hle⟩
        ∧ takeNumber? 4 between = some ⟨content.length % Nat.pow 2 32, rest, hle'⟩ := by
  have hcrc : (Checksum.crc32 content).toNat < Nat.pow 256 4 := (Checksum.crc32 content).toNat_lt
  have hlength : content.length % Nat.pow 2 32 < Nat.pow 256 4 := Nat.mod_lt _ (by decide)
  have hspelling : lowFirst 4 (content.length % Nat.pow 2 32) = lowFirst 4 content.length :=
    lowFirst_mod 4 _
  constructor
  · rintro rfl
    have hle : rest.length ≤ (lowFirst 4 content.length ++ rest).length :=
      (List.sublist_append_right _ _).length_le
    have hle' : (lowFirst 4 content.length ++ rest).length
        ≤ (contentCheck content ++ rest).length := by
      rw [contentCheck, List.append_assoc]
      exact (List.sublist_append_right _ _).length_le
    refine ⟨lowFirst 4 content.length ++ rest, hle', hle, ?_, ?_⟩
    · exact takeNumber?_eq_some_iff_lowFirst.mpr ⟨hcrc, (List.append_assoc ..).symm⟩
    · exact takeNumber?_eq_some_iff_lowFirst.mpr ⟨hlength, congrArg (· ++ rest) hspelling⟩
  · rintro ⟨between, hle, hle', hcheck, hlength⟩
    obtain ⟨-, rfl⟩ := takeNumber?_eq_some_iff_lowFirst.mp hcheck
    obtain ⟨-, rfl⟩ := takeNumber?_eq_some_iff_lowFirst.mp hlength
    rw [contentCheck, hspelling, List.append_assoc]

/-- **Members.** Behind the mark of gzip the strict reader reads members, and nothing else. -/
theorem takeGzip_eq_ok_iff (hmark : isGzip stream) : takeGzip stream = .ok (content, rest)
    ↔ ∃ m : GzipMember, m.content = content ∧ m.bytes ++ rest = stream := by
  constructor
  · intro h
    obtain ⟨behind, hheader, h⟩ := exists_of_bind_eq_ok h
    obtain ⟨⟨content', rest₁⟩, hcontent, h⟩ := exists_of_bind_eq_ok h
    obtain ⟨⟨check, rest₂, hle₂⟩, hcheck, h⟩ := exists_of_bind_eq_ok h
    dsimp only at h
    split at h
    · cases h
    rename_i hsame
    obtain ⟨⟨length, rest₃, hle₃⟩, hlength, h⟩ := exists_of_bind_eq_ok h
    dsimp only at h
    split at h
    · cases h
    rename_i hsame'
    cases h
    -- what the readers have taken are the parts of a member
    obtain ⟨header, rfl⟩ := (skipGzipHeader_eq_ok_iff hmark).mp hheader
    obtain ⟨packed, isPacked, rfl⟩ := inflate_eq_complete_iff.mp (takeContent_eq_ok_iff.mp hcontent)
    obtain rfl := Classical.not_not.mp hsame
    obtain rfl := Classical.not_not.mp hsame'
    have htrailer := contentCheck_append_eq_iff.mpr ⟨rest₂, hle₂, hle₃,
      orUnfinished_eq_ok_iff.mp hcheck, orUnfinished_eq_ok_iff.mp hlength⟩
    refine ⟨⟨header, content, packed, isPacked⟩, rfl, ?_⟩
    rw [GzipMember.bytes, ← htrailer]
    simp only [List.append_assoc]
  · rintro ⟨m, rfl, rfl⟩
    obtain ⟨between, hle, hle', hcheck, hlength⟩ :=
      contentCheck_append_eq_iff.mp (Eq.refl (contentCheck m.content ++ rest))
    have hstream : m.header.bytes ++ (m.packed ++ (contentCheck m.content ++ rest))
        = m.bytes ++ rest := by
      simp only [GzipMember.bytes, List.append_assoc]
    have hheader := (skipGzipHeader_eq_ok_iff hmark).mpr ⟨m.header, hstream⟩
    have hcontent := takeContent_eq_ok_iff.mpr
      (inflate_append m.isPacked (contentCheck m.content ++ rest))
    refine bind_eq_ok_iff.mpr ⟨_, hheader, bind_eq_ok_iff.mpr ⟨_, hcontent, ?_⟩⟩
    refine bind_eq_ok_iff.mpr ⟨_, orUnfinished_eq_ok_iff.mpr hcheck, ?_⟩
    dsimp only
    rw [if_neg (not_not_intro rfl)]
    refine bind_eq_ok_iff.mpr ⟨_, orUnfinished_eq_ok_iff.mpr hlength, ?_⟩
    dsimp only
    rw [if_neg (not_not_intro rfl)]
    rfl

/-! ## The lenient reader -/

theorem guard_eq_some_iff {p : Prop} [Decidable p] {u : Unit} :
    (guard p : Option Unit) = some u ↔ p := by
  unfold guard
  split
  · rename_i hp
    exact iff_of_true rfl hp
  · rename_i hp
    exact iff_of_false (fun h => nomatch h) hp

theorem takeContent_toOption_eq_some_iff : (takeContent bytes).toOption = some (content, rest)
    ↔ inflate bytes = .complete content rest := by
  rw [← takeContent_eq_ok_iff]
  cases takeContent bytes with
  | error e => exact iff_of_false (fun h => nomatch h) (fun h => nomatch h)
  | ok read => rw [Except.toOption, Option.some.injEq, Except.ok.injEq]

/-- The lenient reader gives what stands behind a header, up to the zeros that follow it. -/
theorem takeMember?_eq_some_iff : takeMember? stream = some (content, left)
    ↔ ∃ packed rest, inflate packed = .complete content []
      ∧ passHeader? stream = some (packed ++ (contentCheck content ++ rest))
      ∧ rest.dropWhile (· = 0) = left := by
  constructor
  · intro h
    obtain ⟨behind, hheader, h⟩ := Option.bind_eq_some_iff.mp h
    obtain ⟨⟨content', rest₁⟩, hcontent, h⟩ := Option.bind_eq_some_iff.mp h
    obtain ⟨⟨check, rest₂, hle₂⟩, hcheck, h⟩ := Option.bind_eq_some_iff.mp h
    obtain ⟨_, hsame, h⟩ := Option.bind_eq_some_iff.mp h
    obtain ⟨⟨length, rest₃, hle₃⟩, hlength, h⟩ := Option.bind_eq_some_iff.mp h
    obtain ⟨_, hsame', h⟩ := Option.bind_eq_some_iff.mp h
    cases h
    -- the guards say that the trailer is the one that belongs to the content
    obtain ⟨packed, isPacked, rfl⟩ :=
      inflate_eq_complete_iff.mp (takeContent_toOption_eq_some_iff.mp hcontent)
    obtain rfl := guard_eq_some_iff.mp hsame
    obtain rfl := guard_eq_some_iff.mp hsame'
    have htrailer := contentCheck_append_eq_iff.mpr ⟨rest₂, hle₂, hle₃, hcheck, hlength⟩
    rw [← htrailer] at hheader
    exact ⟨packed, rest₃, isPacked, hheader, rfl⟩
  · rintro ⟨packed, rest, isPacked, hheader, rfl⟩
    obtain ⟨between, hle, hle', hcheck, hlength⟩ :=
      contentCheck_append_eq_iff.mp (Eq.refl (contentCheck content ++ rest))
    have hcontent := takeContent_toOption_eq_some_iff.mpr
      (inflate_append isPacked (contentCheck content ++ rest))
    refine Option.bind_eq_some_iff.mpr ⟨_, hheader, Option.bind_eq_some_iff.mpr ⟨_, hcontent, ?_⟩⟩
    refine Option.bind_eq_some_iff.mpr ⟨_, hcheck, ?_⟩
    refine Option.bind_eq_some_iff.mpr ⟨(), guard_eq_some_iff.mpr rfl, ?_⟩
    refine Option.bind_eq_some_iff.mpr ⟨_, hlength, ?_⟩
    exact Option.bind_eq_some_iff.mpr ⟨(), guard_eq_some_iff.mpr rfl, rfl⟩

/-- A member is read, together with the zeros behind it. -/
theorem takeMember?_append (m : GzipMember) (rest : Bytes) :
    takeMember? (m.bytes ++ rest) = some (m.content, rest.dropWhile (· = 0)) := by
  refine takeMember?_eq_some_iff.mpr ⟨m.packed, rest, m.isPacked, ?_, rfl⟩
  have hbytes : m.bytes ++ rest
      = m.header.bytes ++ (m.packed ++ (contentCheck m.content ++ rest)) := by
    simp only [GzipMember.bytes, List.append_assoc]
  rw [hbytes]
  exact passHeader?_append m.header _

theorem length_contentCheck (content : Bytes) : (contentCheck content).length = 8 := by
  rw [contentCheck, List.length_append, length_lowFirst, length_lowFirst]

/-- **Parts of members.** No part of a member is read: the rest of the member would have to be left
over, and nothing is. -/
theorem takeMember?_of_cut {m : GzipMember} {part more : Bytes} (hcut : part ++ more = m.bytes)
    (hmore : more ≠ []) : takeMember? part = none := by
  rw [Option.eq_none_iff_forall_ne_some]
  rintro ⟨content, left⟩ hread
  obtain ⟨packed, rest, isPacked, hheader, -⟩ := takeMember?_eq_some_iff.mp hread
  have hnonempty : packed ++ (contentCheck content ++ rest) ≠ [] := by
    intro hnil
    have hlength := congrArg List.length hnil
    rw [List.length_append, List.length_append, length_contentCheck] at hlength
    simp only [List.length_nil] at hlength
    omega
  have hwhole := passHeader?_more hheader hnonempty more
  rw [hcut, GzipMember.bytes, passHeader?_append, Option.some.injEq] at hwhole
  -- the two streams are read off the same bytes
  have hread₁ := inflate_append m.isPacked (contentCheck m.content)
  have hread₂ := inflate_append isPacked (contentCheck content ++ rest ++ more)
  rw [hwhole, List.append_assoc, hread₂] at hread₁
  have hlength := congrArg List.length (Inflated.complete.inj hread₁).2
  simp only [List.length_append, List.length_nil, length_contentCheck] at hlength
  exact hmore (List.eq_nil_of_length_eq_zero (by omega))

/-! ## Files of members -/

section Files

variable {m : GzipMember} {part more : Bytes}

/-- A file of one member is read by the strict reader, and a longer one is left to the other. -/
theorem unwrap_append (m : GzipMember) (rest : Bytes) :
    unwrap (m.bytes ++ rest) = if rest.isEmpty then .ok m.content else .error .trailingData := by
  have hmark : isGzip (m.bytes ++ rest) = true := rfl
  rw [unwrap, if_pos hmark, (takeGzip_eq_ok_iff hmark).mpr ⟨m, rfl, rfl⟩]
  rfl

theorem joinMembers?_append (m : GzipMember) (rest : Bytes) (limit : Nat) :
    joinMembers? (limit + 1) (m.bytes ++ rest)
      = (joinMembers? limit (rest.dropWhile (· = 0))).map (m.content ++ ·) := by
  obtain ⟨tail, htail⟩ : ∃ tail, m.bytes ++ rest = 0x1F :: tail := ⟨_, rfl⟩
  rw [htail, joinMembers?, ← htail, takeMember?_append, Option.bind_eq_bind, Option.bind_some]
  dsimp only
  cases joinMembers? limit (rest.dropWhile (· = 0)) <;> rfl

theorem joinMembers?_flatMap {members : List GzipMember} {limit : Nat}
    (h : members.length ≤ limit) :
    joinMembers? limit (members.flatMap GzipMember.bytes)
      = some (members.flatMap GzipMember.content) := by
  induction members generalizing limit with
  | nil => cases limit <;> rfl
  | cons m members ih =>
    cases limit with
    | zero => cases h
    | succ limit =>
      -- the next member starts with the mark, so there are no zeros to pass over
      have hnext : (members.flatMap GzipMember.bytes).dropWhile (· = 0)
          = members.flatMap GzipMember.bytes := by
        cases members <;> rfl
      rw [List.flatMap_cons, joinMembers?_append, hnext, ih (Nat.le_of_succ_le_succ h)]
      rfl

theorem length_le_length_flatMap (members : List GzipMember) :
    members.length ≤ (members.flatMap GzipMember.bytes).length := by
  induction members with
  | nil => exact Nat.le_refl _
  | cons m members ih =>
    have hm : 0 < m.bytes.length := Nat.succ_pos _
    rw [List.length_cons, List.flatMap_cons, List.length_append]
    omega

/-- Members in a row are read in a row. -/
theorem unwrapMembers?_flatMap (members : List GzipMember) :
    unwrapMembers? (members.flatMap GzipMember.bytes)
      = some (members.flatMap GzipMember.content) :=
  joinMembers?_flatMap (length_le_length_flatMap members)

/-- The start of a member is that of the mark. -/
theorem exists_eq_cons_of_cut (hcut : part ++ more = m.bytes) (hpart : part ≠ []) :
    ∃ rest, part = 0x1F :: rest := by
  cases part with
  | nil => exact (hpart rfl).elim
  | cons b rest => exact ⟨rest, congrArg (· :: rest) (List.cons.inj hcut).1⟩

/-- Where a file ends inside a member, nothing is read of it. -/
theorem joinMembers?_of_cut (hcut : part ++ more = m.bytes) (hpart : part ≠ []) (hmore : more ≠ [])
    (before : List GzipMember) (limit : Nat) :
    joinMembers? limit (before.flatMap GzipMember.bytes ++ part) = none := by
  obtain ⟨rest, rfl⟩ := exists_eq_cons_of_cut hcut hpart
  induction before generalizing limit with
  | nil =>
    cases limit with
    | zero => rfl
    | succ limit =>
      rw [List.flatMap_nil, List.nil_append, joinMembers?, takeMember?_of_cut hcut hmore]
      rfl
  | cons m' before ih =>
    cases limit with
    | zero => rfl
    | succ limit =>
      have hnext : (before.flatMap GzipMember.bytes ++ 0x1F :: rest).dropWhile (· = 0)
          = before.flatMap GzipMember.bytes ++ 0x1F :: rest := by
        cases before <;> rfl
      rw [List.flatMap_cons, List.append_assoc, joinMembers?_append, hnext, ih]
      rfl

theorem unwrapMembers?_of_cut (hcut : part ++ more = m.bytes) (hpart : part ≠ [])
    (hmore : more ≠ []) (before : List GzipMember) :
    unwrapMembers? (before.flatMap GzipMember.bytes ++ part) = none :=
  joinMembers?_of_cut hcut hpart hmore before _

/-- A part of a member is no stream: one with the mark of gzip would be a member, and the lenient
reader would read it as well. -/
theorem unwrap_of_cut (hcut : part ++ more = m.bytes) (hmore : more ≠ []) :
    ∃ e, unwrap part = .error e := by
  cases hread : unwrap part with
  | error e => exact ⟨e, rfl⟩
  | ok content =>
    exfalso
    unfold unwrap at hread
    dsimp only at hread
    by_cases hmark : isGzip part
    · rw [if_pos hmark] at hread
      obtain ⟨⟨content', rest⟩, hstream, -⟩ := exists_of_bind_eq_ok hread
      obtain ⟨m', -, rfl⟩ := (takeGzip_eq_ok_iff hmark).mp hstream
      have hnone := takeMember?_of_cut hcut hmore
      rw [takeMember?_append] at hnone
      cases hnone
    · rw [if_neg hmark] at hread
      obtain ⟨⟨content', rest⟩, hstream, -⟩ := exists_of_bind_eq_ok hread
      -- at most the first byte of the mark is there, and no header of either kind is so short
      match part, hcut, hmark with
      | [], _, _ => cases hstream
      | [b], _, _ => cases hstream
      | a :: b :: rest, hcut, hmark =>
        have ha : a = 0x1F := (List.cons.inj hcut).1
        have hb : b = 0x8B := (List.cons.inj (List.cons.inj hcut).2).1
        rw [ha, hb] at hmark
        exact hmark rfl

/-- The strict reader does not read a file that ends inside a member, whether or not there are
members in front. -/
theorem unwrap_of_cut_file (hcut : part ++ more = m.bytes) (hpart : part ≠ []) (hmore : more ≠ [])
    (before : List GzipMember) :
    ∃ e, unwrap (before.flatMap GzipMember.bytes ++ part) = .error e := by
  cases before with
  | nil => exact unwrap_of_cut hcut hmore
  | cons m' before =>
    refine ⟨.trailingData, ?_⟩
    rw [List.flatMap_cons, List.append_assoc, unwrap_append, if_neg]
    rw [List.isEmpty_iff, List.append_eq_nil_iff]
    exact fun h => hpart h.2

end Files

end LogSearch.Deflate
