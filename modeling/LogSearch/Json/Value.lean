/-
JSON values.

Whole numbers and numbers with a fraction are kept apart, the first without a
limit. An object has its members in the order in which they came, with every name
once.
-/
import LogSearch.Decimal.Binary64

set_option autoImplicit false

namespace LogSearch.Json

/-- A JSON value. -/
inductive Value where
  /-- Nothing. -/
  | null
  /-- A truth value. -/
  | bool (b : Bool)
  /-- A whole number. -/
  | int (n : Int)
  /-- A number with a fraction or an exponent. -/
  | float (x : Decimal.Binary64)
  /-- A text. -/
  | string (s : String)
  /-- A list. -/
  | array (items : List Value)
  /-- Named members. -/
  | object (members : List (String × Value))
deriving Repr, Inhabited

namespace Value

/-- The member of some name. -/
def member? (name : String) (members : List (String × Value)) : Option Value :=
  members.lookup name

/-- The member of some name, or nothing. -/
def member (name : String) (members : List (String × Value)) : Value :=
  (member? name members).getD .null

/-- Adds a member. It takes the place of one of the same name. -/
def putMember (name : String) (value : Value) : List (String × Value) → List (String × Value)
  | [] => [(name, value)]
  | (other, old) :: members =>
    if other = name then (name, value) :: members
    else (other, old) :: putMember name value members

/-- A value or nothing. -/
def ofOption {α : Type} (f : α → Value) : Option α → Value
  | none => .null
  | some x => f x

/-- A list of values. -/
def ofList {α : Type} (f : α → Value) (xs : List α) : Value :=
  .array (xs.map f)

/-- A natural number. -/
def nat (n : Nat) : Value := .int n

/-- Whether the value counts as given: nothing, false, zero and everything empty do not. -/
def isGiven : Value → Bool
  | null => false
  | bool b => b
  | int n => n ≠ 0
  | float (.finite _ mantissa _) => mantissa ≠ 0
  | float _ => true
  | string s => !s.isEmpty
  | array items => !items.isEmpty
  | object members => !members.isEmpty

theorem isGiven_string {s : String} : (string s).isGiven = true ↔ s ≠ "" := by
  simp [isGiven]

/-- An object is given if one of its members is. -/
theorem isGiven_object_of_member {name : String} {members : List (String × Value)}
    (h : (member name members).isGiven = true) : (object members).isGiven = true := by
  cases members with
  | nil => cases h
  | cons member members => rfl

/-- Whether the value is a text, if it is given. -/
def IsText (v : Value) : Prop := v.isGiven = true → ∃ text, v = string text

end Value

end LogSearch.Json
