/-
Fields of a row of bytes.

Compressed files and containers are made of fields that follow one another.
Reading one hands back the rest with the proof that it has not grown, so loops
over a file end by its length. A number takes its low byte first, except where
a format says otherwise.
-/
import LogSearch.Text.Utf8

set_option autoImplicit false

namespace LogSearch

/-- Something read off the front of some bytes, and what is left of them. -/
structure Field (α : Type) (bytes : Bytes) where
  /-- What was read. -/
  value : α
  /-- The bytes behind it. -/
  rest : Bytes
  /-- Nothing was added. -/
  notLonger : rest.length ≤ bytes.length

/-- The number that some bytes make, the low byte first. -/
def littleEndian (bytes : Bytes) : Nat :=
  bytes.foldr (fun b n => b.toNat + 256 * n) 0

/-- The number that some bytes make, the high byte first. -/
def bigEndian (bytes : Bytes) : Nat :=
  bytes.foldl (fun n b => 256 * n + b.toNat) 0

/-- Reads `n` bytes, or `none` where there are fewer. -/
def takeField? (n : Nat) (bytes : Bytes) : Option (Field Bytes bytes) :=
  if (bytes.take n).length < n then none
  else some ⟨bytes.take n, bytes.drop n, by rw [List.length_drop]; exact Nat.sub_le _ _⟩

/-- Reads a number of `n` bytes. -/
def takeNumber? (n : Nat) (bytes : Bytes) : Option (Field Nat bytes) :=
  (takeField? n bytes).map fun ⟨front, rest, h⟩ => ⟨littleEndian front, rest, h⟩

/-- A number that is read takes up as many bytes as it is wide. -/
theorem length_of_takeNumber? {n : Nat} {bytes : Bytes} {field : Field Nat bytes}
    (h : takeNumber? n bytes = some field) : field.rest.length + n = bytes.length := by
  unfold takeNumber? takeField? at h
  split at h
  · simp at h
  · rename_i short
    simp only [Option.map_some, Option.some.injEq] at h
    simp only [List.length_take] at short
    subst h
    simp only [List.length_drop]
    omega

/-- What a number is read from. -/
theorem takeNumber?_eq_some_iff {n : Nat} {bytes : Bytes} {field : Field Nat bytes} :
    takeNumber? n bytes = some field
      ↔ n ≤ bytes.length ∧ field.value = littleEndian (bytes.take n)
        ∧ field.rest = bytes.drop n := by
  obtain ⟨value, rest, hle⟩ := field
  rw [takeNumber?, takeField?, List.length_take]
  split
  · simp only [Option.map_none, reduceCtorEq, false_iff]
    omega
  · simp only [Option.map_some, Option.some.injEq, Field.mk.injEq]
    constructor
    · rintro ⟨rfl, rfl⟩
      exact ⟨by omega, rfl, rfl⟩
    · rintro ⟨-, rfl, rfl⟩
      exact ⟨rfl, rfl⟩

theorem takeNumber?_eq_none_iff {n : Nat} {bytes : Bytes} :
    takeNumber? n bytes = none ↔ bytes.length < n := by
  rw [takeNumber?, takeField?, List.length_take]
  split
  · simp only [Option.map_none, true_iff]
    omega
  · simp only [Option.map_some, reduceCtorEq, false_iff]
    omega

/-- The bytes behind the first zero, or `none` without a zero. -/
def afterZero? : Bytes → Option Bytes
  | [] => none
  | b :: bytes => if b = 0 then some bytes else afterZero? bytes

/-- The bytes from `start` up to `stop`, as far as they are there. -/
def sliceOf (bytes : Bytes) (start stop : Nat) : Bytes :=
  (bytes.drop start).take (stop - start)

/-- Appends `count` bytes, each equal to the one `distance` places before it. -/
def repeatBack (distance : Nat) : Nat → Array UInt8 → Array UInt8
  | 0, out => out
  | count + 1, out => repeatBack distance count (out.push (out.getD (out.size - distance) 0))

/-! ## Fields and what is around them -/

section Fields

variable {n : Nat} {bytes front rest : Bytes} {hle : rest.length ≤ bytes.length}

/-- A field is the front of what it is read from. -/
theorem takeField?_eq_some_iff :
    takeField? n bytes = some ⟨front, rest, hle⟩ ↔ front.length = n ∧ front ++ rest = bytes := by
  rw [takeField?]
  constructor
  · intro h
    split at h
    · cases h
    · rename_i hlong
      cases h
      rw [List.length_take] at hlong
      exact ⟨List.length_take_of_le (by omega), List.take_append_drop n bytes⟩
  · rintro ⟨rfl, rfl⟩
    rw [if_neg (by rw [List.take_left]; exact Nat.lt_irrefl _)]
    simp only [List.take_left, List.drop_left]

theorem takeField?_front (h : front.length = n) (rest : Bytes) :
    takeField? n (front ++ rest)
      = some ⟨front, rest, (List.sublist_append_right front rest).length_le⟩ :=
  takeField?_eq_some_iff.mpr ⟨h, rfl⟩

theorem takeNumber?_front (h : front.length = n) (rest : Bytes) :
    takeNumber? n (front ++ rest)
      = some ⟨littleEndian front, rest, (List.sublist_append_right front rest).length_le⟩ := by
  rw [takeNumber?, takeField?_front h]
  rfl

theorem exists_front_of_takeNumber? {value : Nat}
    (h : takeNumber? n bytes = some ⟨value, rest, hle⟩) :
    ∃ front, front.length = n ∧ littleEndian front = value ∧ front ++ rest = bytes := by
  rw [takeNumber?] at h
  obtain ⟨⟨front, rest, hle⟩, hfield, hvalue⟩ := Option.map_eq_some_iff.mp h
  cases hvalue
  obtain ⟨hlength, hbytes⟩ := takeField?_eq_some_iff.mp hfield
  exact ⟨front, hlength, rfl, hbytes⟩

/-- More bytes at the end make no difference to a field. -/
theorem takeField?_append (h : takeField? n bytes = some ⟨front, rest, hle⟩) (more : Bytes) :
    ∃ hle, takeField? n (bytes ++ more) = some ⟨front, rest ++ more, hle⟩ := by
  obtain ⟨hlength, rfl⟩ := takeField?_eq_some_iff.mp h
  rw [List.append_assoc]
  exact ⟨_, takeField?_front hlength (rest ++ more)⟩

theorem takeNumber?_append {value : Nat} (h : takeNumber? n bytes = some ⟨value, rest, hle⟩)
    (more : Bytes) :
    ∃ hle, takeNumber? n (bytes ++ more) = some ⟨value, rest ++ more, hle⟩ := by
  obtain ⟨front, hlength, rfl, rfl⟩ := exists_front_of_takeNumber? h
  rw [List.append_assoc]
  exact ⟨_, takeNumber?_front hlength (rest ++ more)⟩

/-- The first zero is the one with none in front of it. -/
theorem afterZero?_eq_some_iff :
    afterZero? bytes = some rest ↔ ∃ front, 0 ∉ front ∧ front ++ 0 :: rest = bytes := by
  constructor
  · intro h
    induction bytes with
    | nil => cases h
    | cons b bytes ih =>
      rw [afterZero?] at h
      by_cases hb : b = 0
      · rw [if_pos hb, Option.some.injEq] at h
        exact ⟨[], List.not_mem_nil, by rw [hb, h]; rfl⟩
      · rw [if_neg hb] at h
        obtain ⟨front, hfront, hbytes⟩ := ih h
        refine ⟨b :: front, ?_, by rw [List.cons_append, hbytes]⟩
        rw [List.mem_cons, not_or]
        exact ⟨Ne.symm hb, hfront⟩
  · rintro ⟨front, hfront, rfl⟩
    induction front with
    | nil => rfl
    | cons b front ih =>
      rw [List.mem_cons, not_or] at hfront
      rw [List.cons_append, afterZero?, if_neg (Ne.symm hfront.1)]
      exact ih hfront.2

theorem afterZero?_append (h : afterZero? bytes = some rest) (more : Bytes) :
    afterZero? (bytes ++ more) = some (rest ++ more) := by
  obtain ⟨front, hfront, rfl⟩ := afterZero?_eq_some_iff.mp h
  exact afterZero?_eq_some_iff.mpr ⟨front, hfront, by rw [List.append_assoc, List.cons_append]⟩

end Fields

end LogSearch
