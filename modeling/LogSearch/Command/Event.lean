/-
What a command line says, from left to right.

An option with a value takes it from behind the equals sign, or else from the next
argument, which must not be an option. Words are taken in one run: what stands
between the first of them and the next option belongs together, and words
behind that option are too many. A command takes all that follows it, options
included, and reads it by rules of its own.
-/
import LogSearch.Command.Token

set_option autoImplicit false

namespace LogSearch.Command

/-- Something that a command line says. -/
inductive Event where
  /-- An option without a value. -/
  | flag (name : String)
  /-- An option with a value. -/
  | value (name value : String)
  /-- Words. -/
  | words (texts : List String)
  /-- A command with its arguments. -/
  | command (name : String) (arguments : List String)
  /-- A request for help. -/
  | help
  /-- An argument that is too many. -/
  | extra
  /-- A mistake, behind which nothing is read. -/
  | mistake
deriving DecidableEq, Repr

/-- What an option without a value says. -/
def eventOf (spec : OptionSpec) : Event :=
  if spec.kind = .help then .help else .flag spec.name

/-- What an option without a value says to which more letters are attached, each an option of its
own. The last of them may have a value attached, or be left waiting for one. -/
def clusterEvents (specs : List OptionSpec) (spec : OptionSpec) :
    List Char → List Event × Option OptionSpec
  | [] => ([eventOf spec], none)
  | c :: rest =>
    if c = '-' then ([.mistake], none)
    else
      match specOf? specs (String.ofList ['-', c]) with
      | none => ([eventOf spec, .extra], none)
      | some next =>
        match next.kind, rest with
        | .value, [] => ([eventOf spec], some next)
        | .value, '=' :: value => ([eventOf spec, .value next.name (String.ofList value)], none)
        | .value, value => ([eventOf spec, .value next.name (String.ofList value)], none)
        | _, '=' :: _ => ([.mistake], none)
        | _, rest =>
          let (events, waiting) := clusterEvents specs next rest
          if events = [.mistake] then (events, none) else (eventOf spec :: events, waiting)

/-- What an option says by itself, and the option that still waits for a value. -/
def optionEvents (specs : List OptionSpec) (spec : OptionSpec) (form : String)
    (attached : Option Attachment) : List Event × Option OptionSpec :=
  match spec.kind, attached with
  | .value, some a => ([.value spec.name a.value], none)
  | .value, none => ([], some spec)
  | _, none => ([eventOf spec], none)
  | _, some a =>
    if startsLike form "--" || a.hasEquals || a.value.isEmpty then ([.mistake], none)
    else clusterEvents specs spec a.value.toList

/-- What arguments say. `expectsWords` tells whether a run of words is still to come. -/
def events (specs : List OptionSpec) (expectsWords : Bool) : List Token → List Event
  | [] => []
  | .unknown _ :: rest => .extra :: events specs expectsWords rest
  | .option spec form attached :: rest =>
    match optionEvents specs spec form attached, rest with
    | (said, none), rest => said ++ events specs expectsWords rest
    | (said, some waiting), .word value :: rest =>
      said ++ .value waiting.name value :: events specs expectsWords rest
    | (_, some _), _ => [.mistake]
  | token :: rest =>
    let run := token :: rest.takeWhile fun t => t.text?.isSome
    let hasWords := expectsWords && run.any (· ≠ .dashes)
    let said := if hasWords then .words ((run.filterMap Token.text?).erase "--") else .extra
    said :: events specs (expectsWords && !hasWords) (rest.dropWhile fun t => t.text?.isSome)
termination_by tokens => tokens.length
decreasing_by
  · exact Nat.lt_succ_self _
  · exact Nat.lt_succ_self _
  · exact Nat.lt_succ_of_lt (Nat.lt_succ_self _)
  · exact Nat.lt_succ_of_le (List.dropWhile_suffix _).length_le

/-- What arguments say up to a command and with it. They are given together with the way in which
they were written, since the arguments of the command are not to be read here. -/
def commandEvents (specs : List OptionSpec) : List (Token × String) → List Event
  | [] => []
  | (.unknown _, _) :: rest => .extra :: commandEvents specs rest
  | (.option spec form attached, _) :: rest =>
    match optionEvents specs spec form attached with
    | (said, none) => said ++ commandEvents specs rest
    | (_, some _) => [.mistake]
  | (.word name, _) :: rest => [.command name (rest.map (·.2))]
  | (.dashes, _) :: rest => if rest.isEmpty then [.extra] else [.mistake]

end LogSearch.Command
