/-
# Pushing over HTTP

A push over HTTP starts with a request for the references of the repository. A
server that answers 401 wants credentials: first those of the URL are tried,
once, then those of the caller, up to three times. Any other answer than 200 ends
the push.
-/

import NightlyRelease.Credentials
import NightlyRelease.Git.Fault
import NightlyRelease.Text.Base64

namespace NightlyRelease
namespace Git
namespace Http

/-- A request, with the credentials that it shows. -/
structure Request where
  path : String
  authorization : Option String
  deriving DecidableEq, Repr

/-- A server that gives every request the same answer, and the requests so far. -/
structure Server where
  host : String
  status : Nat
  requests : List Request := []
  deriving DecidableEq, Repr

/-- The parts of a URL. -/
structure Url where
  credentials : Option Credentials
  host : String
  path : String
  deriving DecidableEq

/-- The start of the URLs that are read here. -/
def scheme : List Char := "http://".toList

/-- The text of percent-encoded characters. -/
def decode (s : List Char) : String :=
  String.ofList (Text.Utf8.lossy (bytes s))
where
  /-- The bytes of percent-encoded characters. -/
  bytes : List Char → List UInt8
    | '%' :: a :: b :: r => match Text.Hex.value? a, Text.Hex.value? b with
      | some x, some y => UInt8.ofNat (16 * x + y) :: bytes r
      | _, _ => 37 :: bytes (a :: b :: r)
    | c :: r => Text.bytes (String.ofList [c]) ++ bytes r
    | [] => []

/-- The credentials of a user-info: a user name that is not empty, and a password that may be
left out. -/
def credentialsOf? (userInfo : List Char) : Option Credentials :=
  let (name, password) := (Text.splitAt? [':'] userInfo).getD (userInfo, [])
  if name = [] then none else some ⟨decode name, decode password⟩

/-- Reads a URL of this kind. -/
def Url.parse? (s : String) : Option Url := do
  let rest ← Text.stripPrefix? scheme s.toList
  let (userInfo, rest) := Url.splitUserInfo rest
  let host := rest.takeWhile fun c => !Url.endsAuthority c
  let path := (rest.dropWhile fun c => !Url.endsAuthority c).takeWhile fun c =>
    c != '?' && c != '#'
  return { credentials := userInfo.bind credentialsOf?, host := String.ofList host
           path := String.ofList path }

/-- What is asked for, behind the path of a repository. -/
def service : String := "/info/refs?service=git-receive-pack"

/-- The path of the request for a repository. -/
def requestPath (repository : String) : String :=
  String.ofList ((repository.toList.reverse.dropWhile (· == '/')).reverse) ++ service

/-- How credentials are shown. -/
def authorization (c : Credentials) : String :=
  "Basic " ++
    String.ofList (Text.Base64.encode (Text.bytes (c.username ++ ":" ++ c.secret)))

/-- How often the credentials of the caller are tried. -/
def attempts : Nat := 3

/-- The credentials that are shown, one request after the other, as long as they are refused. -/
def offers (inUrl given : Option Credentials) : List (Option Credentials) :=
  none :: inUrl.toList.map some ++
    match given with
    | none => []
    | some c => List.replicate attempts (some c)

/-- How the server answers credentials that it refuses to the end. -/
def refusal (given : Option Credentials) : Fault :=
  match given with
  | none => { text := "remote authentication required but no callback set"
              cls := some .http, code := some .auth }
  | some _ => { text := "authentication rejected" }

/-- Whether an answer sends the caller elsewhere. -/
def isRedirect (status : Nat) : Bool := [301, 302, 303, 307, 308].contains status

/-- Why an answer other than 401 ends the push. -/
def answerFault (status : Nat) : Fault :=
  if status = 200 then { text := "no content-type header in response", cls := some .http }
  else if isRedirect status then { text := "redirect without location", cls := some .http }
  else { text := "unexpected http status code: " ++ Text.Decimal.text status, cls := some .http }

/-- The requests of a push, and how it ends. -/
def exchange (status : Nat) (url : Url) (given : Option Credentials) : List Request × Fault :=
  let request (c : Option Credentials) : Request := ⟨requestPath url.path, c.map authorization⟩
  if status = 401 then ((offers url.credentials given).map request, refusal given)
  else ([request none], answerFault status)

/-- A push to a URL: what it does to the server, and how it ends. -/
def push (server : Option Server) (url : Url) (given : Option Credentials) :
    Option Server × Fault :=
  match server with
  | some s =>
    if s.host = url.host then
      let (requests, fault) := exchange s.status url given
      (some { s with requests := s.requests ++ requests }, fault)
    else (some s, unreachable)
  | none => (none, unreachable)
where
  /-- Nobody answers. -/
  unreachable : Fault :=
    { text := "failed to connect to " ++ url.host ++ ": Connection refused", cls := some .os }

end Http
end Git
end NightlyRelease
