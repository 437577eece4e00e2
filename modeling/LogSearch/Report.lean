/-
Reports: the JSON form of sources, records and searches.
-/
import LogSearch.Json.Value
import LogSearch.Search.Run
import LogSearch.Workspace

set_option autoImplicit false

namespace LogSearch.Report

open Json (Value)

/-- A span of time. -/
def range (r : TimeRange) : Value :=
  .object [("start", .string r.start.iso), ("end", .string r.stop.iso),
    ("year_source", .string r.yearSource.name)]

/-- A log in a bundle. -/
def subFile (s : SubFile) : Value :=
  .object [("name", .string s.entry.name), ("size", .int s.entry.size),
    ("time_range", range s.range)]

/-- A source. -/
def source (s : Source) : Value :=
  .object [
    ("name", .string s.name),
    ("size", .nat s.size),
    ("status", .string s.status),
    ("is_archive", .bool s.isBundle),
    ("time_range", .ofOption range s.range?),
    ("sub_files", .ofList subFile s.subFiles),
    ("error", .ofOption .string s.error?),
    ("warnings", .ofList .string s.warnings)]

/-- A workspace. -/
def workspace (w : Workspace) : Value :=
  .object [
    ("files", .ofList source w.files),
    ("remote", .ofOption source w.remote),
    ("overall_time_range", .ofOption range w.range?)]

/-- A record. -/
def record (r : Record) : Value :=
  .object [
    ("timestamp", .string r.timestamp.isoMillis),
    ("content", .string r.content),
    ("source", .string r.source),
    ("sequence", .nat r.sequence),
    ("line_number", .int r.lineNumber)]

/-- A log that could not be read. -/
def failure (f : Search.Failure) : Value :=
  .object [("source", .string f.source), ("error", .string f.reason)]

/-- A search. -/
def summary (s : Search.Summary) : Value :=
  .object [
    ("tasks_total", .nat s.total),
    ("tasks_completed", .nat s.completed),
    ("workers", .nat s.workers),
    ("matches_found", .nat s.matched),
    ("failures", .ofList failure s.failures),
    ("stopped_by_sink", .bool s.isFull),
    ("cancelled", .bool s.isCancelled)]

end LogSearch.Report
