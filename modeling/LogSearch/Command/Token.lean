/-
The parts of a command line, each for itself.

Which arguments are options can be told without regard to their order. An option
may be shortened as long as one option fits, a value may be attached to it by an
equals sign, and to an option of one letter also directly. Behind two dashes
nothing is an option any more. Neither is what looks like a negative number, nor
what starts with a dash, fits no option and has a space in it.
-/
import LogSearch.Text.Digit
import LogSearch.Text.Match

set_option autoImplicit false

namespace LogSearch.Command

/-- What an option is for. -/
inductive OptionKind where
  /-- It asks for help. -/
  | help
  /-- It stands for itself. -/
  | flag
  /-- It has a value. -/
  | value
deriving DecidableEq, Repr

/-- An option. -/
structure OptionSpec where
  /-- What it is called in what was read. -/
  name : String
  /-- All that may be written for it. -/
  forms : List String
  /-- What it is for. -/
  kind : OptionKind
deriving DecidableEq, Repr

/-- The option that asks for help. -/
def OptionSpec.help : OptionSpec := ⟨"help", ["-h", "--help"], .help⟩

/-- An option with a value. -/
def OptionSpec.value (name : String) (forms : List String) : OptionSpec := ⟨name, forms, .value⟩

/-- A value that is attached to an option. -/
structure Attachment where
  /-- Whether an equals sign stands in front of it. -/
  hasEquals : Bool
  /-- The value. -/
  value : String
deriving DecidableEq, Repr

/-- An argument by itself. -/
inductive Token where
  /-- A word. -/
  | word (text : String)
  /-- The two dashes behind which nothing is an option. -/
  | dashes
  /-- An option, in the form that is meant, with what is attached to it. -/
  | option (spec : OptionSpec) (form : String) (attached : Option Attachment)
  /-- What looks like an option but fits none. -/
  | unknown (text : String)
deriving DecidableEq, Repr

/-- The argument as it was given, if it is not an option. -/
def Token.text? : Token → Option String
  | word text => some text
  | dashes => some "--"
  | _ => none

/-- Cuts an argument at its first equals sign, if it has one. -/
def cutEquals (text : String) : String × Option Attachment :=
  let (front, back) := (text.toList.takeWhile (· ≠ '='), text.toList.dropWhile (· ≠ '='))
  match back with
  | [] => (text, none)
  | _ :: value => (String.ofList front, some ⟨true, String.ofList value⟩)

/-- The option of a form. -/
def specOf? (specs : List OptionSpec) (form : String) : Option OptionSpec :=
  specs.find? fun spec => spec.forms.contains form

/-- Whether a text starts like another one. -/
def startsLike (text start : String) : Bool :=
  start.toList.isPrefixOf text.toList

/-- Whether an argument looks like a negative number. -/
def isNegativeNumber (text : String) : Bool :=
  match text.toList with
  | '-' :: cs =>
    let whole := cs.takeWhile Text.isDigit
    match cs.dropWhile Text.isDigit with
    | [] => !whole.isEmpty
    | '.' :: cs => !cs.isEmpty && cs.all Text.isDigit
    | _ => false
  | _ => false

/-- The options that a shortened form may mean. -/
def candidates (specs : List OptionSpec) (text : String) : List Token :=
  match text.toList with
  | '-' :: '-' :: _ =>
    let (start, attached) := cutEquals text
    specs.flatMap fun spec =>
      (spec.forms.filter (startsLike · start)).map fun form => .option spec form attached
  | '-' :: c :: value =>
    let form := String.ofList ['-', c]
    ((specOf? specs form).map fun spec =>
      .option spec form (some ⟨false, String.ofList value⟩)).toList
  | _ => []

/-- What an argument is; `none` if it may mean several options. -/
def classify? (specs : List OptionSpec) (text : String) : Option Token :=
  if !startsLike text "-" || text = "-" then some (.word text)
  else
    let (form, attached) := cutEquals text
    match specOf? specs text, specOf? specs form with
    | some spec, _ => some (.option spec text none)
    | none, some spec => some (.option spec form attached)
    | none, none =>
      match candidates specs text with
      | [token] => some token
      | _ :: _ => none
      | [] =>
        if isNegativeNumber text || text.toList.contains ' ' then some (.word text)
        else some (.unknown text)

/-- What the arguments are; `none` if one of them may mean several options. -/
def tokens? (specs : List OptionSpec) : List String → Option (List Token)
  | [] => some []
  | "--" :: texts => some (.dashes :: texts.map .word)
  | text :: texts => do return (← classify? specs text) :: (← tokens? specs texts)

end LogSearch.Command
