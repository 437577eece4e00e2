/-
Gzip files of several members.

A log that is rotated and compressed piece by piece comes as gzip members in a row. All of its
pieces are read. And a file that was cut off is noticed: unless the cut falls between two members,
where nothing shows that there were more, the file is reported and no shorter log is made of it.
-/
import LogSearch.Payload
import LogSearch.Proofs.Deflate.Members

set_option autoImplicit false

namespace LogSearch.Payload

open Deflate

/-- Members in a row give their contents in a row. -/
theorem readGzip_flatMap (name : String) {members : List GzipMember} (h : members ≠ []) :
    readGzip name (members.flatMap GzipMember.bytes)
      = .ok (members.flatMap GzipMember.content) := by
  obtain ⟨m, members, rfl⟩ := List.exists_cons_of_ne_nil h
  rw [List.flatMap_cons, readGzip, unwrap_append]
  cases members with
  | nil => exact congrArg Except.ok (List.append_nil _).symm
  | cons m' members =>
    -- more members are something behind the first stream
    show (if (m.bytes ++ _).take 2 = [0x50, 0x4B] then _ else _) = _
    have hmark : (m.bytes ++ (m' :: members).flatMap GzipMember.bytes).take 2 ≠ [0x50, 0x4B] := by
      intro hmark
      cases (List.cons.inj hmark).1
    rw [if_neg hmark, ← List.flatMap_cons, unwrapMembers?_flatMap]

/-- A file that ends inside a member is at fault. -/
theorem exists_readGzip_of_cut (name : String) {m : GzipMember} {part more : Bytes}
    (hcut : part ++ more = m.bytes) (hpart : part ≠ []) (hmore : more ≠ [])
    (before : List GzipMember) :
    ∃ e, readGzip name (before.flatMap GzipMember.bytes ++ part)
      = .error (.failure (.stream name e)) := by
  obtain ⟨e, hunwrap⟩ := unwrap_of_cut_file hcut hpart hmore before
  obtain ⟨rest, rfl⟩ := exists_eq_cons_of_cut hcut hpart
  have hmark : (before.flatMap GzipMember.bytes ++ 0x1F :: rest).take 2 ≠ [0x50, 0x4B] := by
    intro hmark
    cases before with
    | nil => cases (List.cons.inj hmark).1
    | cons m' before => cases (List.cons.inj hmark).1
  refine ⟨e, ?_⟩
  rw [readGzip, hunwrap]
  dsimp only
  rw [if_neg hmark, unwrapMembers?_of_cut hcut hpart hmore]

/-- **Whole logs or none.** A file of gzip members gives the contents of all of them. Cut off
anywhere inside a member, it gives nothing but a report. -/
theorem readGzip_members (name : String) (members : List GzipMember) (hmembers : members ≠ []) :
    readGzip name (members.flatMap GzipMember.bytes) = .ok (members.flatMap GzipMember.content)
      ∧ ∀ before m after count, members = before ++ m :: after → 0 < count
        → count < m.bytes.length
        → ∃ e, readGzip name ((members.flatMap GzipMember.bytes).take
            ((before.flatMap GzipMember.bytes).length + count))
          = .error (.failure (.stream name e)) := by
  refine ⟨readGzip_flatMap name hmembers, ?_⟩
  rintro before m after count rfl hpos hlt
  have hcut : m.bytes.take count ++ m.bytes.drop count = m.bytes := List.take_append_drop _ _
  have hpart : m.bytes.take count ≠ [] := by
    rw [← List.length_pos_iff, List.length_take]
    omega
  have hmore : m.bytes.drop count ≠ [] := by
    rw [← List.length_pos_iff, List.length_drop]
    omega
  have hfile : ((before ++ m :: after).flatMap GzipMember.bytes).take
      ((before.flatMap GzipMember.bytes).length + count)
      = before.flatMap GzipMember.bytes ++ m.bytes.take count := by
    rw [List.flatMap_append, List.flatMap_cons, List.take_length_add_append,
      List.take_append_of_le_length (Nat.le_of_lt hlt)]
  rw [hfile]
  exact exists_readGzip_of_cut name hcut hpart hmore before

/-- A member with a name and the text "up" in a stored block. -/
def upMember : GzipMember where
  header := ⟨true, Vector.replicate 6 0, none, some ⟨[0x61], by decide⟩, none, true⟩
  content := [0x75, 0x70]
  packed := [1, 2, 0, 0xFD, 0xFF, 0x75, 0x70]
  isPacked := by
    unfold inflate inflateBlocks
    rfl

/-- A member without content. -/
def emptyMember : GzipMember where
  header := ⟨false, Vector.replicate 6 0, none, none, none, false⟩
  content := []
  packed := [1, 0, 0, 0xFF, 0xFF]
  isPacked := by
    unfold inflate inflateBlocks
    rfl

/-- Two members, the second of them empty, whole and cut off behind the first byte of the second. -/
theorem readGzip_two_members :
    [upMember, emptyMember] ≠ []
      ∧ readGzip "a.gz" ([upMember, emptyMember].flatMap GzipMember.bytes) = .ok [0x75, 0x70]
      ∧ ∃ e, readGzip "a.gz" (([upMember, emptyMember].flatMap GzipMember.bytes).take
          (([upMember].flatMap GzipMember.bytes).length + 1))
        = .error (.failure (.stream "a.gz" e)) := by
  have hmembers : [upMember, emptyMember] ≠ [] := List.cons_ne_nil _ _
  obtain ⟨hwhole, hcut⟩ := readGzip_members "a.gz" [upMember, emptyMember] hmembers
  have hinside : 1 < emptyMember.bytes.length := Nat.succ_lt_succ (Nat.succ_pos _)
  exact ⟨hmembers, hwhole, hcut [upMember] emptyMember [] 1 rfl Nat.one_pos hinside⟩

end LogSearch.Payload
