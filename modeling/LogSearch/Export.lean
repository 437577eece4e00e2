/-
The text form of what a search has found: its records in the order of their
times, each as a time, its lines and a rule.

Records of one time are put in the order of their sources, by code points, and
then in the order in which their source has them.
-/
import LogSearch.Calendar.Written
import LogSearch.Record

set_option autoImplicit false

namespace LogSearch.Export

/-- Whether a record may stand in front of another one. -/
def isInOrder (a b : Record) : Bool :=
  if a.timestamp < b.timestamp then true
  else if b.timestamp < a.timestamp then false
  else if a.source < b.source then true
  else if b.source < a.source then false
  else a.sequence ≤ b.sequence

/-- The records in order. -/
def sorted (records : List Record) : List Record :=
  records.mergeSort isInOrder

/-- The rule below a record. -/
def rule : String :=
  String.ofList (List.replicate 80 '=')

/-- One record. -/
def block (r : Record) : String :=
  r.timestamp.shortMillis " " ++ "\n" ++ r.content ++ "\n" ++ rule ++ "\n"

/-- All records. -/
def text (records : List Record) : String :=
  "\n".intercalate ((sorted records).map block)

end LogSearch.Export
