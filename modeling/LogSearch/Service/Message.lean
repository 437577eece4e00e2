/-
Requests to the service and what it replies.
-/
import LogSearch.Bytes
import LogSearch.Json.Reading

set_option autoImplicit false

namespace LogSearch.Service

/-- A file that is sent to the service. -/
structure Upload where
  /-- Its name. -/
  name : String
  /-- Its data. -/
  data : Bytes
deriving DecidableEq, Repr

/-- What a request carries. -/
inductive Body where
  /-- Nothing. -/
  | empty
  /-- JSON, or what should be JSON. -/
  | json (content : Except Json.ReadError Json.Value)
  /-- Files. -/
  | files (uploads : List Upload)

/-- The body that a text makes up. A byte order mark in front does not count. -/
def Body.ofText (text : String) : Body :=
  if text.isEmpty then .empty
  else
    match text.toList with
    | '\uFEFF' :: cs => .json (Json.read (String.ofList cs))
    | _ => .json (Json.read text)

/-- A request. -/
structure Request where
  /-- What is to be done. -/
  method : String
  /-- With what, and how. -/
  target : String
  /-- What it carries. -/
  body : Body := .empty

/-- Why a request is not granted. -/
inductive Refusal where
  /-- For a reason that is told with a status. -/
  | denied (status : Nat) (detail : String)
  /-- Something of it has not the required form. -/
  | invalid
  /-- Handling it came to no proper end. -/
  | crashed
deriving DecidableEq, Repr

/-- What is sent back. -/
inductive Content where
  /-- JSON. -/
  | json (value : Json.Value)
  /-- A text. -/
  | text (s : String)
  /-- JSON values on lines of their own. -/
  | lines (values : List Json.Value)
  /-- A report on what has not the required form, which is not spelled out. -/
  | invalidReport

/-- A reply. -/
structure Reply where
  /-- The status. -/
  status : Nat
  /-- What is sent back. -/
  content : Content

/-- The reply to a request that is not granted. -/
def Refusal.reply : Refusal → Reply
  | denied status detail => ⟨status, .json (.object [("detail", .string detail)])⟩
  | invalid => ⟨422, .invalidReport⟩
  | crashed => ⟨500, .text "Internal Server Error"⟩

/-- The reply to a request. -/
def replyOf (result : Except Refusal Content) : Reply :=
  match result with
  | .error refusal => refusal.reply
  | .ok content => ⟨200, content⟩

/-- The members of the JSON object that a body has to be. -/
def Body.members : Body → Except Refusal (List (String × Json.Value))
  | json (.ok (.object members)) => .ok members
  | json (.error .numberTooLong) => .error (.denied 400 "There was an error parsing the body")
  | _ => .error .invalid

/-- The files that a body has to be. A file without a name is none. -/
def Body.uploads : Body → Except Refusal (List Upload)
  | files uploads =>
    if uploads.isEmpty || uploads.any (·.name.isEmpty) then .error .invalid else .ok uploads
  | _ => .error .invalid

end LogSearch.Service
