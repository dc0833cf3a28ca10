/-
# Push credentials

A user name and a secret. `Credentials.injectInto` writes both, percent-encoded,
as the user-info of an https URL, in place of one that is there; a URL of another
scheme cannot carry them. `Credentials.describe` shows who pushes and never with
which secret.
-/

import NightlyRelease.Text.Quoted
import NightlyRelease.Text.Utf8
import NightlyRelease.Url.Percent
import NightlyRelease.Url.UserInfo

namespace NightlyRelease

/-- The name and the secret with which a push is authenticated. -/
structure Credentials where
  username : String
  secret : String
  deriving DecidableEq

namespace Credentials

/-- The start of the URLs that can carry credentials. -/
def secureScheme : List Char := "https://".toList

/-- The user-info that carries the credentials, with the `@` that ends it. -/
def userInfo (c : Credentials) : List Char :=
  Url.Percent.encode (Text.bytes c.username) ++
    ':' :: Url.Percent.encode (Text.bytes c.secret) ++ ['@']

/-- An https URL with the credentials as its user-info; `none` for any other URL. -/
def injectInto (c : Credentials) (url : String) : Option String :=
  (Text.stripPrefix? secureScheme url.toList).map fun rest =>
    String.ofList (secureScheme ++ c.userInfo ++ (Url.splitUserInfo rest).2)

/-- The credentials for a diagnostic text, without the secret. -/
def describe (c : Credentials) : String :=
  "Credentials \x7b username: " ++ Text.Quoted.string c.username ++
    ", secret: \"<redacted>\" \x7d"

end Credentials
end NightlyRelease
