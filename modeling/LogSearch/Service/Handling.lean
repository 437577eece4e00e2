/-
How the service handles requests.

The service has one workspace and one engine. A search is answered by a stream:
a line for every slice of records that it passes on, and a last line with the
report, or with the reason why it failed. The slot is claimed before the stream
begins, so a second search is refused at once, and it is free again when the
search has ended, whether or not anyone reads the stream.
-/
import LogSearch.Export
import LogSearch.Remote.Fetch
import LogSearch.Report
import LogSearch.Service.Endpoint
import LogSearch.Service.Parameters
import LogSearch.Settings.Remote

set_option autoImplicit false

namespace LogSearch

open Json (Value)

/-- The service with all that it holds. -/
structure Service where
  /-- The surroundings. -/
  environment : Environment
  /-- The settings for log servers. -/
  remote : Settings.Remote
  /-- The engine. -/
  engine : Search.Engine
  /-- The workspace. -/
  workspace : Workspace := {}

namespace Service

/-- The version of the service. -/
def version : String := "1.0.0"

/-- The number of lines that are looked at for the range of a log. -/
def window (s : Service) : Int :=
  s.engine.settings.timeRangeWindow

/-! ## Sources -/

/-- How the service is. -/
def health (s : Service) : Value :=
  .object [
    ("status", .string "healthy"),
    ("version", .string version),
    ("features", .object [
      ("zstd", .bool s.environment.hasZstd),
      ("remote_logs", .bool true)]),
    ("files", .nat s.workspace.files.length),
    ("searching", .bool s.engine.isSearching)]

/-- The part of the overall range that a named window selects. -/
def presetRange (name : String) (s : Service) : Except Refusal Content :=
  match s.workspace.preset name with
  | .error .outsideCalendar => .error .crashed
  | .error e => .error (.denied 400 e.message)
  | .ok none => .error (.denied 404 "No files with a time range are loaded")
  | .ok (some range) =>
    .ok (.json (.object [("preset", .string name), ("time_range", Report.range range)]))

/-- Loads files one after the other. If one cannot be loaded at all those in front of it stay. -/
def upload : List Upload → Service → Except Refusal (List Value) × Service
  | [], s => (.ok [], s)
  | file :: files, s =>
    match s.workspace.add s.environment s.window file.name file.data with
    | .error (.aborted _) => (.error .crashed, s)
    | .error e =>
      let (reports, s) := upload files s
      let report : Value := .object [("name", .string file.name), ("status", .string "duplicate"),
        ("error", .string e.message)]
      (reports.map (report :: ·), s)
    | .ok (source, workspace) =>
      let (reports, s) := upload files { s with workspace }
      (reports.map (Report.source source :: ·), s)

/-- The number that a path gives. White space around it and a fraction of zeros do not count. -/
def readIndex? (text : String) : Option Int :=
  let cs := (Text.trim text).toList
  let (whole, fraction) := Decimal.splitAtFirst (· = '.') cs
  if Decimal.maxDigits < cs.length ∨ (fraction.drop 1).any (· ≠ '0') then none
  else Text.signed? (Text.groupedDigits? Text.asciiDigit? 10) whole

/-- Removes a file. -/
def deleteFile (index : String) (s : Service) : Except Refusal Content × Service :=
  match readIndex? index with
  | none => (.error .invalid, s)
  | some n =>
    match s.workspace.remove n with
    | .error e => (.error (.denied 404 e.message), s)
    | .ok (source, workspace) =>
      (.ok (.json (.object [("removed", .string source.name)])), { s with workspace })

/-! ## Searches -/

/-- The line for a slice of records. -/
def batchLine (records : List Record) : Value :=
  .object [("type", .string "batch"), ("records", .ofList Report.record records)]

/-- The last line of a search. -/
def lastLine (keywords : List String) (outcome : Search.Outcome) : Value :=
  match outcome.report with
  | .error e => .object [("type", .string "error"), ("error", .string e.message)]
  | .ok summary =>
    .object [
      ("type", .string "summary"),
      ("total", .nat outcome.results.records.size),
      ("cap_reached", .bool outcome.results.isCapped),
      ("capped_sources", .ofList .string outcome.results.cappedSources.toList),
      ("keywords", .ofList .string keywords),
      ("failures", .ofList Report.failure summary.failures),
      ("cancelled", .bool summary.isCancelled),
      ("tasks", .nat summary.total)]

/-- The lines of the stream of a search that has come to its end. -/
def streamLines (keywords : List String) (outcome : Search.Outcome) : List Value :=
  outcome.results.deliveries.toList.map batchLine ++ [lastLine keywords outcome]

/-- Takes in a search: its parameters are read, and the slot is claimed for it. -/
def receive (m : Members) (s : Service) : Except Refusal SearchParameters × Service :=
  match readSearch s.engine.settings m with
  | .error refusal => (.error refusal, s)
  | .ok p =>
    if !s.workspace.hasSources then (.error (.denied 400 "No log files are loaded"), s)
    else
      match s.engine.acquire with
      | .error e => (.error (.denied 409 e.message), s)
      | .ok engine => (.ok p, { s with engine })

/-- Searches all sources: the lines of the stream. -/
def search (m : Members) (s : Service) : Except Refusal (List Value) × Service :=
  match s.receive m with
  | (.error refusal, s) => (.error refusal, s)
  | (.ok p, s) =>
    let (outcome, engine) :=
      s.engine.search s.environment p.criteria p.maxResults true s.workspace.tasks
    (.ok (streamLines p.criteria.expression.keywords outcome), { s with engine })

/-- Checks a query. -/
def validateQuery (m : Members) : Except Refusal Content := do
  match ← readQuery m with
  | .error e =>
    return .json (.object [("valid", .bool false), ("error", .string e.message),
      ("position", .ofOption .nat e.position)])
  | .ok e =>
    return .json (.object [("valid", .bool true), ("keywords", .ofList .string e.keywords),
      ("normalized", .string e.render)])

/-- What the last search has found, as a text. -/
def exportResults (s : Service) : Except Refusal Content :=
  match s.engine.lastResults with
  | none => .error (.denied 404 "No search results to export")
  | some results => .ok (.text (Export.text results.records.toList))

/-! ## Bundles from log servers -/

/-- Loads a bundle in place of the one that is there. -/
def takeBundle (bundle : Remote.Bundle) (s : Service) : Except Refusal Content × Service :=
  match s.workspace.setRemote s.environment s.window bundle.path bundle.data with
  | .error _ => (.error .crashed, s)
  | .ok (source, workspace) =>
    (.ok (.json (.object [("file_path", .string bundle.path),
      ("remote", Report.source source)])), { s with workspace })

/-- What comes of a fetch. The bundle that is there is only replaced by one that has arrived. -/
def settleFetch (fetched : Except Remote.Fault Remote.Bundle) (s : Service) :
    Except Refusal Content × Service :=
  match fetched with
  | .error (.error e) => (.error (.denied 502 e.message), s)
  | .error _ => (.error .crashed, s)
  | .ok bundle => s.takeBundle bundle

/-- Fetches a bundle and loads it. -/
def fetchBundle (link : Remote.Link) (m : Members) (s : Service) :
    Except Refusal Content × List Remote.Request × Service :=
  match readFetch s.remote m with
  | .error refusal => (.error refusal, [], s)
  | .ok p =>
    let server := Remote.Server.ofAddress p.address p.token
    let trace := Remote.fetch server link ⟨p.start, none⟩ ⟨p.stop, none⟩
    let settled := s.settleFetch trace.result
    (settled.1, trace.requests, settled.2)

/-! ## Requests -/

/-- What comes of a request: the reply, the requests to log servers, and the service afterwards. -/
structure Handled where
  /-- The reply. -/
  reply : Reply
  /-- The requests to log servers on the way. -/
  requests : List Remote.Request := []
  /-- The service afterwards. -/
  service : Service

/-- Handles a request at an endpoint. -/
def handleAt (link : Remote.Link) (body : Body) (s : Service) : Endpoint → Handled
  | .health => ⟨replyOf (.ok (.json s.health)), [], s⟩
  | .listFiles => ⟨replyOf (.ok (.json (Report.workspace s.workspace))), [], s⟩
  | .timeRange =>
    let range := Value.ofOption Report.range s.workspace.range?
    ⟨replyOf (.ok (.json (.object [("time_range", range)]))), [], s⟩
  | .presetRange name => ⟨replyOf (s.presetRange name), [], s⟩
  | .upload =>
    match body.uploads with
    | .error refusal => ⟨refusal.reply, [], s⟩
    | .ok files =>
      let (reports, s) := s.upload files
      ⟨replyOf (reports.map fun reports => .json (.object [("files", .array reports)])), [], s⟩
  | .deleteFile index =>
    let (result, s) := s.deleteFile index
    ⟨replyOf result, [], s⟩
  | .search =>
    match body.members with
    | .error refusal => ⟨refusal.reply, [], s⟩
    | .ok members =>
      let (lines, s) := s.search members
      ⟨replyOf (lines.map .lines), [], s⟩
  | .validateQuery => ⟨replyOf (body.members >>= validateQuery), [], s⟩
  | .cancelSearch =>
    let (isHeld, engine) := s.engine.cancel
    ⟨replyOf (.ok (.json (.object [("cancelled", .bool isHeld)]))), [], { s with engine }⟩
  | .exportResults => ⟨replyOf s.exportResults, [], s⟩
  | .fetchBundle =>
    match body.members with
    | .error refusal => ⟨refusal.reply, [], s⟩
    | .ok members =>
      let (result, requests, s) := s.fetchBundle link members
      ⟨replyOf result, requests, s⟩

/-- Handles a request. -/
def handle (link : Remote.Link) (r : Request) (s : Service) : Handled :=
  match r.endpoint with
  | .error refusal => ⟨refusal.reply, [], s⟩
  | .ok endpoint => s.handleAt link r.body endpoint

end Service

end LogSearch
