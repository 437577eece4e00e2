/-
Log servers: where they are and how one proves who one is.
-/
import LogSearch.Text.Blank

set_option autoImplicit false

namespace LogSearch.Remote

/-- A log server. -/
structure Server where
  /-- What all its addresses start with. -/
  baseUrl : String
  /-- The secret that proves who asks; there may be none. -/
  token : String
deriving DecidableEq, Repr

namespace Server

/-- What an address starts with if it names how to talk to the server. -/
def schemes : List String := ["http://", "https://"]

/-- The server at an address. Slashes at its end do not count, and it is talked to without
encryption unless the address says otherwise. -/
def ofAddress (address token : String) : Server :=
  let address := String.ofList (Text.dropRightWhile (· = '/') (Text.trim address).toList)
  let hasScheme := schemes.any fun scheme => scheme.toList.isPrefixOf address.toList
  ⟨if hasScheme then address else "http://" ++ address, token⟩

/-- The headers of every request. -/
def headers (s : Server) : List (String × String) :=
  if s.token.isEmpty then [] else [("Authorization", "Bearer " ++ s.token)]

end Server

end LogSearch.Remote
