/-
Reading JSON.

Every reader takes a value off the front of the characters and returns the rest
together with the fact that it is shorter, so the whole is a recursion on the
number of characters. The words for numbers that are not finite are read as
well. Of members with the same name the last one counts, in the place of the
first.
-/
import LogSearch.Json.Lexeme

set_option autoImplicit false

namespace LogSearch.Json

/-- Something read off the front of some characters, and what is left of them. -/
structure Taken (α : Type) (cs : List Char) where
  /-- What was read. -/
  value : α
  /-- The characters behind it. -/
  rest : List Char
  /-- Something was read. -/
  shorter : rest.length < cs.length

/-- Lets more characters stand in front. -/
def Taken.widen {α : Type} {cs cs' : List Char} (t : Taken α cs) (h : cs.length ≤ cs'.length) :
    Taken α cs' :=
  ⟨t.value, t.rest, Nat.lt_of_lt_of_le t.shorter h⟩

/-- The words for values, with the values. -/
def words : List (List Char × Value) :=
  [("null".toList, .null), ("true".toList, .bool true), ("false".toList, .bool false),
    ("NaN".toList, .float .nan), ("Infinity".toList, .float (.infinite false)),
    ("-Infinity".toList, .float (.infinite true))]

/-- Takes a word off the front. -/
def takeWord? (cs : List Char) : Option (Taken Value cs) :=
  words.findSome? fun (word, value) =>
    if h : word.isPrefixOf cs ∧ 0 < word.length then
      some ⟨value, cs.drop word.length, by
        have := (List.isPrefixOf_iff_prefix.1 h.1).length_le
        simp only [List.length_drop]
        omega⟩
    else none

/-- Takes a string behind its opening quote off the front. -/
def takeString (cs : List Char) : Except ReadError (Taken String cs) :=
  match h : takePieces? [] cs with
  | none => .error .malformed
  | some (pieces, rest) =>
    .ok ⟨String.ofList (joinPieces pieces), rest, length_lt_of_takePieces? h⟩

/-- Takes a number off the front. -/
def takeNumber (isNegative : Bool) (cs : List Char) : Except ReadError (Taken Value cs) :=
  match h : takeNumber? isNegative cs with
  | none => .error .malformed
  | some (.error e, _) => .error e
  | some (.ok value, rest) => .ok ⟨value, rest, length_lt_of_takeNumber? h⟩

/-- Takes a value that holds no others off the front. -/
def takeSimple (cs : List Char) : Except ReadError (Taken Value cs) :=
  match takeWord? cs with
  | some taken => .ok taken
  | none =>
    match cs with
    | '"' :: cs => (takeString cs).map fun t => ⟨.string t.value, t.rest, Nat.lt_succ_of_lt t.shorter⟩
    | '-' :: cs => (takeNumber true cs).map (·.widen (Nat.le_succ _))
    | cs => takeNumber false cs

/-- Takes the name of a member and the colon behind it off the front. -/
def takeName (cs : List Char) : Except ReadError (Taken String cs) :=
  match cs with
  | '"' :: cs =>
    match takeString cs with
    | .error e => .error e
    | .ok ⟨name, rest, h⟩ =>
      match h' : dropBlanks rest with
      | ':' :: rest' => .ok ⟨name, dropBlanks rest', by
          have h₁ := length_dropBlanks_le rest
          have h₂ := length_dropBlanks_le rest'
          rw [h'] at h₁
          simp only [List.length_cons] at *
          omega⟩
      | _ => .error .malformed
  | _ => .error .malformed

mutual

/-- Takes a value off the front. -/
def takeValue (cs : List Char) : Except ReadError (Taken Value cs) :=
  match cs with
  | '[' :: cs =>
    match h : dropBlanks cs with
    | ']' :: rest => .ok ⟨.array [], rest, by
        have := length_dropBlanks_le cs
        rw [h] at this
        simp only [List.length_cons] at *
        omega⟩
    | first =>
      match takeItems first with
      | .error e => .error e
      | .ok ⟨items, rest, h'⟩ => .ok ⟨.array items, rest, by
          have := length_dropBlanks_le cs
          simp_all only [List.length_cons]
          omega⟩
  | '\x7b' :: cs =>
    match h : dropBlanks cs with
    | '\x7d' :: rest => .ok ⟨.object [], rest, by
        have := length_dropBlanks_le cs
        rw [h] at this
        simp only [List.length_cons] at *
        omega⟩
    | first =>
      match takeMembers [] first with
      | .error e => .error e
      | .ok ⟨members, rest, h'⟩ => .ok ⟨.object members, rest, by
          have := length_dropBlanks_le cs
          simp_all only [List.length_cons]
          omega⟩
  | cs => takeSimple cs
termination_by (cs.length, 0)
decreasing_by
  · have := length_dropBlanks_le cs
    rw [‹dropBlanks cs = _›] at this
    exact .left _ _ (Nat.lt_succ_of_le this)
  · have := length_dropBlanks_le cs
    rw [‹dropBlanks cs = _›] at this
    exact .left _ _ (Nat.lt_succ_of_le this)

/-- Takes the items of a list and its closing bracket off the front. -/
def takeItems (cs : List Char) : Except ReadError (Taken (List Value) cs) :=
  match takeValue cs with
  | .error e => .error e
  | .ok ⟨item, rest, h⟩ =>
    match h' : dropBlanks rest with
    | ']' :: rest' => .ok ⟨[item], rest', by
        have := length_dropBlanks_le rest
        rw [h'] at this
        simp only [List.length_cons] at *
        omega⟩
    | ',' :: rest' =>
      match takeItems (dropBlanks rest') with
      | .error e => .error e
      | .ok ⟨items, rest'', h''⟩ => .ok ⟨item :: items, rest'', by
          have h₁ := length_dropBlanks_le rest
          have h₂ := length_dropBlanks_le rest'
          rw [h'] at h₁
          simp only [List.length_cons] at *
          omega⟩
    | _ => .error .malformed
termination_by (cs.length, 1)
decreasing_by
  · exact .right _ Nat.zero_lt_one
  · have h₁ := length_dropBlanks_le rest
    have h₂ := length_dropBlanks_le rest'
    rw [h'] at h₁
    simp only [List.length_cons] at h₁
    exact .left _ _ (by omega)

/-- Takes members and the closing brace off the front, and puts them to those in front of them. -/
def takeMembers (members : List (String × Value)) (cs : List Char) :
    Except ReadError (Taken (List (String × Value)) cs) :=
  match takeName cs with
  | .error e => .error e
  | .ok ⟨name, rest, h⟩ =>
    match takeValue rest with
    | .error e => .error e
    | .ok ⟨value, rest', h'⟩ =>
      let members := Value.putMember name value members
      match hb : dropBlanks rest' with
      | '\x7d' :: rest'' => .ok ⟨members, rest'', by
          have := length_dropBlanks_le rest'
          rw [hb] at this
          simp only [List.length_cons] at *
          omega⟩
      | ',' :: rest'' =>
        match takeMembers members (dropBlanks rest'') with
        | .error e => .error e
        | .ok ⟨members, rest''', h''⟩ => .ok ⟨members, rest''', by
            have h₁ := length_dropBlanks_le rest'
            have h₂ := length_dropBlanks_le rest''
            rw [hb] at h₁
            simp only [List.length_cons] at *
            omega⟩
      | _ => .error .malformed
termination_by (cs.length, 1)
decreasing_by
  · exact .left _ _ h
  · have h₁ := length_dropBlanks_le rest'
    have h₂ := length_dropBlanks_le rest''
    rw [hb] at h₁
    simp only [List.length_cons] at h₁
    exact .left _ _ (by omega)

end

/-- Reads a text. -/
def read (s : String) : Except ReadError Value :=
  match takeValue (dropBlanks s.toList) with
  | .error e => .error e
  | .ok ⟨value, rest, _⟩ => if (dropBlanks rest).isEmpty then .ok value else .error .malformed

end LogSearch.Json
