/-
# The user-info of a URL

A URL is a scheme, `://`, and the rest; the authority of the rest ends before
the first `/`, `?` or `#`. What stands in the authority before its last `@` is
the user-info: a user name, and often a password. `redact` hides it, so that the
URL can be shown; a URL without a user-info stays as it is.
-/

import NightlyRelease.Text.Search

namespace NightlyRelease
namespace Url

/-- Whether a character ends the authority. -/
def endsAuthority (c : Char) : Bool := c == '/' || c == '?' || c == '#'

/-- Splits what follows the scheme at the last `@` of its authority: the user-info, if there
is one, and the rest. -/
def splitUserInfo : List Char → Option (List Char) × List Char
  | [] => (none, [])
  | c :: r =>
    if endsAuthority c then (none, c :: r)
    else match splitUserInfo r with
      | (some user, rest) => (some (c :: user), rest)
      | (none, _) => if c = '@' then (some [], r) else (none, c :: r)

/-- What stands between the scheme and the rest of a URL. -/
def schemeMark : List Char := [':', '/', '/']

/-- The URL with three stars in place of its user-info. -/
def redactChars (url : List Char) : List Char :=
  match Text.splitAt? schemeMark url with
  | none => url
  | some (scheme, rest) => match splitUserInfo rest with
    | (none, _) => url
    | (some _, host) => scheme ++ schemeMark ++ ['*', '*', '*', '@'] ++ host

/-- `redactChars` on strings. -/
def redact (url : String) : String := String.ofList (redactChars url.toList)

end Url
end NightlyRelease
