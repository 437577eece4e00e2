/-
Fetching a bundle of logs from a log server.

This takes two requests. The first names a window of time and has the server
prepare a bundle; the reply tells where it is. The second downloads it. Any
reply but the right one ends the fetch, and the second request is only made
when the first one has succeeded.

What the server replies is given by a `Link`, so that a fetch is a function of
the replies, and all requests that were made are part of its result.
-/
import LogSearch.Bytes
import LogSearch.Calendar.Utc
import LogSearch.Json.Shown
import LogSearch.Remote.Server

set_option autoImplicit false

namespace LogSearch.Remote

open Calendar (ZonedTime)

/-- A request to a log server. -/
inductive Request where
  /-- A request to do something, with parameters. -/
  | post (url : String) (parameters : List (String × String))
  /-- A request for data. -/
  | get (url : String)
deriving DecidableEq, Repr

/-- What comes back for a request. -/
inductive Reply (α : Type) where
  /-- Nothing, for the stated reason. -/
  | broken (reason : String)
  /-- A status and a content. -/
  | answer (status : Int) (content : α)
deriving Repr

/-- A reply with some JSON is one whose body is JSON. -/
instance : Coe (Reply Json.Value) (Reply (Option Json.Value)) where
  coe
    | .broken reason => .broken reason
    | .answer status content => .answer status (some content)

/-- The replies of a log server. -/
structure Link where
  /-- The reply to the request for a bundle: the JSON that its body is, which is null for an empty
  body, or nothing if the body is something else. -/
  prepare : Request → Reply (Option Json.Value)
  /-- The reply to the request for its data. -/
  download : Request → Reply Bytes

/-- Which of the two requests. -/
inductive Phase where
  /-- The one that has a bundle prepared. -/
  | prepare
  /-- The one that downloads it. -/
  | download
deriving DecidableEq, Repr

/-- The name of a phase in messages. -/
def Phase.name : Phase → String
  | prepare => "Prepare"
  | download => "Download"

/-- Why there is no bundle. -/
inductive FetchError where
  /-- The window ends before it begins. -/
  | reversed
  /-- A request could not be made. -/
  | broken (phase : Phase) (reason : String)
  /-- A reply had a status other than that of success. -/
  | status (phase : Phase) (status : Int)
  /-- The server did not prepare a bundle. It may say why. -/
  | refused (reason : Option String)
  /-- The server did not say where the bundle is. -/
  | noPath
deriving DecidableEq, Repr

/-- The text of the report. -/
def FetchError.message : FetchError → String
  | .reversed => "Begin time is after end time"
  | .broken phase reason => s!"{phase.name} failed: {reason}"
  | .status phase code => s!"{phase.name} failed: HTTP {code}"
  | .refused reason => reason.getD "Prepare failed"
  | .noPath => "Prepare response has no filePath"

/-- Why a fetch comes to no proper end. -/
inductive Fault where
  /-- An error that callers are prepared for. -/
  | error (e : FetchError)
  /-- A bound of the window cannot be written for the server. -/
  | unwritable (e : Calendar.UtcError)
  /-- The bounds cannot be compared, or the reply or a part of it is of the wrong type. -/
  | wrongType
deriving DecidableEq, Repr

/-- A bundle of logs. -/
structure Bundle where
  /-- Where the server has it. -/
  path : String
  /-- Its data. -/
  data : Bytes
deriving DecidableEq, Repr

/-- The result of a fetch, with the requests that were made on the way. -/
structure Trace (α : Type) where
  /-- The requests. -/
  requests : List Request
  /-- The result. -/
  result : Except Fault α

/-- The content of a reply with a status of success. -/
def Reply.content {α : Type} (phase : Phase) : Reply α → Except FetchError α
  | broken reason => .error (.broken phase reason)
  | answer status content => if 300 ≤ status then .error (.status phase status) else .ok content

/-- Where the bundle is, by the member that names the path. -/
def pathOfMember (path : Json.Value) : Except Fault String :=
  if path.isGiven then
    match path with
    | .string path => .ok path
    | _ => .error .wrongType
  else .error (.error .noPath)

/-- Where the bundle is, by the data of a reply. -/
def pathOfData (data : Json.Value) : Except Fault String :=
  if data.isGiven then
    match data with
    | .object members => pathOfMember (Json.Value.member "filePath" members)
    | _ => .error .wrongType
  else .error (.error .noPath)

/-- Where the bundle is, by the reply of the server. -/
def pathOfReply : Json.Value → Except Fault String
  | .object members =>
    match Json.Value.member "code" members with
    | .string "0" => pathOfData (Json.Value.member "data" members)
    | _ =>
      let message := Json.Value.member "message" members
      .error (.error (.refused (if message.isGiven then some message.shown else none)))
  | _ => .error (.error (.refused none))

/-- Where the bundle is, by what comes back for the request. -/
def pathOfBody : Option Json.Value → Except Fault String
  | none => .error .wrongType
  | some content => pathOfReply content

/-- The request for a bundle. -/
def prepareRequest (server : Server) (start stop : ZonedTime) :
    Except Calendar.UtcError Request := do
  return .post (server.baseUrl ++ "/api/v4/system-logs/prepare")
    [("date", ""), ("beginDate", ← start.forServer), ("endDate", ← stop.forServer)]

/-- The request for the data of a bundle. -/
def downloadRequest (server : Server) (path : String) : Request :=
  .get (server.baseUrl ++ "/api/v4/system-logs/download/" ++
    String.ofList (path.toList.dropWhile (· = '/')))

/-- Has a bundle prepared: where it is. -/
def prepare (server : Server) (link : Link) (start stop : ZonedTime) : Trace String :=
  match prepareRequest server start stop with
  | .error e => ⟨[], .error (.unwritable e)⟩
  | .ok request =>
    ⟨[request], ((link.prepare request).content .prepare).mapError .error >>= pathOfBody⟩

/-- Downloads the data of a bundle. -/
def download (server : Server) (link : Link) (path : String) : Trace Bytes :=
  let request := downloadRequest server path
  ⟨[request], ((link.download request).content .download).mapError .error⟩

/-- Fetches a bundle. A time with an offset cannot be compared with one without. -/
def fetch (server : Server) (link : Link) (start stop : ZonedTime) : Trace Bundle :=
  if start.offset.isSome ≠ stop.offset.isSome then ⟨[], .error .wrongType⟩
  else if stop.utcMicros < start.utcMicros then ⟨[], .error (.error .reversed)⟩
  else
    let prepared := prepare server link start stop
    match prepared.result with
    | .error e => ⟨prepared.requests, .error e⟩
    | .ok path =>
      let downloaded := download server link path
      ⟨prepared.requests ++ downloaded.requests, downloaded.result.map (⟨path, ·⟩)⟩

end LogSearch.Remote
