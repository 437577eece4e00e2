/-
What the service offers, and under which paths.

The path of a request is what stands in front of a question mark, with percent
signs and two hexadecimal digits for bytes that cannot stand for themselves.
Slashes at its end do not count.
-/
import LogSearch.Json.Lexeme
import LogSearch.Service.Message
import LogSearch.Text.Cut

set_option autoImplicit false

namespace LogSearch.Service

/-- What the service offers. -/
inductive Endpoint where
  /-- How the service is. -/
  | health
  /-- All sources. -/
  | listFiles
  /-- The time that all sources span. -/
  | timeRange
  /-- The part of it that a named window selects. -/
  | presetRange (name : String)
  /-- Loading files. -/
  | upload
  /-- Removing a file. -/
  | deleteFile (index : String)
  /-- Searching. -/
  | search
  /-- Checking a query. -/
  | validateQuery
  /-- Calling off a search. -/
  | cancelSearch
  /-- What the last search has found. -/
  | exportResults
  /-- Fetching a bundle from a log server. -/
  | fetchBundle
deriving DecidableEq, Repr

namespace Endpoint

/-- The endpoint of a path that is cut up at its slashes. -/
def ofSegments? : List String → Option Endpoint
  | ["", "health"] => some .health
  | ["", "api", "files"] => some .listFiles
  | ["", "api", "time-range"] => some .timeRange
  | ["", "api", "time-range", "preset", name] => some (.presetRange name)
  | ["", "api", "upload"] => some .upload
  | ["", "api", "files", index] => some (.deleteFile index)
  | ["", "api", "search"] => some .search
  | ["", "api", "search", "validate-query"] => some .validateQuery
  | ["", "api", "search", "cancel"] => some .cancelSearch
  | ["", "api", "search", "export"] => some .exportResults
  | ["", "api", "remote-logs", "fetch"] => some .fetchBundle
  | _ => none

/-- The only method of an endpoint. -/
def method : Endpoint → String
  | health => "GET"
  | listFiles => "GET"
  | timeRange => "GET"
  | presetRange _ => "GET"
  | deleteFile _ => "DELETE"
  | _ => "POST"

end Endpoint

/-- The bytes of a path. -/
def percentDecoded : List Char → Bytes
  | '%' :: a :: b :: cs =>
    match Json.hexValue? a, Json.hexValue? b with
    | some high, some low => UInt8.ofNat (high * 16 + low) :: percentDecoded cs
    | _, _ => Text.encodeUtf8 "%" ++ percentDecoded (a :: b :: cs)
  | c :: cs => Text.encodeUtf8 (String.ofList [c]) ++ percentDecoded cs
  | [] => []

/-- The path of a request, cut up at its slashes. -/
def pathSegments (target : String) : List String :=
  let path := target.toList.takeWhile fun c => c ≠ '?' && c ≠ '#'
  let decoded := Text.decodeUtf8 (percentDecoded path)
  Text.splitOn '/' (String.ofList (Text.dropRightWhile (· = '/') decoded.toList))

/-- What a request is for. -/
def Request.endpoint (r : Request) : Except Refusal Endpoint :=
  match Endpoint.ofSegments? (pathSegments r.target) with
  | none => .error (.denied 404 "Not Found")
  | some endpoint =>
    if endpoint.method = r.method then .ok endpoint
    else .error (.denied 405 "Method Not Allowed")

end LogSearch.Service
