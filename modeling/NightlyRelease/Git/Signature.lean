/-
# Signatures

A commit is signed with a name, an email address and the time; name and address
are either those that are given or those of the settings. Blanks and most
punctuation around them do not count, angle brackets are not allowed, and neither
may be empty.
-/

import NightlyRelease.Config.Basic
import NightlyRelease.Git.Settings

namespace NightlyRelease
namespace Git

/-- In whose name a commit is made, and when. -/
structure Signature where
  name : String
  email : String
  time : Int
  deriving DecidableEq, Repr

namespace Signature

/-- The punctuation that does not count at the ends of a name. -/
def fringe : List Char := ['.', ',', ':', ';', '<', '>', '"', '\\', '\x27']

/-- Whether a character does not count at the ends of a name. -/
def isFringe (c : Char) : Bool := c.toNat ≤ 32 || fringe.contains c

/-- A text without what does not count at its ends. -/
def trim (s : String) : String :=
  String.ofList (((s.toList.dropWhile isFringe).reverse.dropWhile isFringe).reverse)

/-- Whether a text holds an angle bracket. -/
def hasBracket (s : String) : Bool := s.toList.any fun c => c == '<' || c == '>'

/-- A signature cannot be made. -/
def refused (reason : String) : Fault where
  text := "failed to parse signature - " ++ reason
  cls := some .invalid

/-- The brackets that stand in the text of a fault about names. -/
def bracketRule : String :=
  "Neither \x60name\x60 nor \x60email\x60 should contain angle brackets chars."

/-- The signature with a name and an email address, at a time. -/
def make (now : Int) (name email : String) : Except Fault Signature := do
  withoutNul [name, email]
  if hasBracket name || hasBracket email then throw (refused bracketRule)
  let signature : Signature := ⟨trim name, trim email, now⟩
  if signature.name = "" ∨ signature.email = "" then
    throw (refused "Signature cannot have an empty name or email")
  return signature

/-- The value of a variable that must be set. -/
def required (settings : Settings) (key : String) : Except Fault String :=
  match settings.textOrEmpty? key with
  | some s => .ok s
  | none => .error { text := "config value '" ++ key ++ "' was not found"
                     cls := some .config, code := some .notFound }

/-- The signature of the settings. -/
def ofSettings (now : Int) (settings : Settings) : Except Fault Signature := do
  make now (← required settings "user.name") (← required settings "user.email")

/-- The signature of an author, or else that of the settings. -/
def choose (now : Int) (settings : Settings) : Option Author → Except Fault Signature
  | some author => make now author.name author.email
  | none => ofSettings now settings

end Signature
end Git
end NightlyRelease
