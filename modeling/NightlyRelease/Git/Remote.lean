/-
# Remotes

A remote is a name for another repository, with a URL in the settings, and
perhaps another URL for pushes. A name is proper if it can stand in the name of a
reference.
-/

import NightlyRelease.Git.Settings

namespace NightlyRelease
namespace Git
namespace Remote

/-- The key of a variable of a remote. -/
def key (name variable_ : String) : String := "remote." ++ name ++ "." ++ variable_

/-- Refuses an improper name. -/
def requireName (name : String) : Except Fault Unit :=
  if name ≠ "" ∧ Reference.isName ("refs/remotes/" ++ name ++ "/test") false true then .ok ()
  else .error { text := "'" ++ name ++ "' is not a valid remote name."
                cls := some .config, code := some .invalidSpec }

/-- The URLs of a remote: for fetching and for pushing. -/
structure Urls where
  fetch : Option (List UInt8)
  push : Option (List UInt8)
  deriving DecidableEq, Repr

/-- The URLs of a remote that must be there. -/
def find (settings : Settings) (name : String) : Except Fault Urls := do
  withoutNul [name]
  requireName name
  match settings.get? (key name "url"), settings.get? (key name "pushurl") with
  | none, none => throw { text := "remote '" ++ name ++ "' does not exist"
                          cls := some .config, code := some .notFound }
  | fetch, push => return { fetch, push }

/-- The URL of a remote as text, if it is text. -/
def Urls.text? (u : Urls) : Option String :=
  u.fetch.bind fun b => String.fromUTF8? ⟨b.toArray⟩

/-- The URL for fetching, with replacement characters for what is not text. -/
def Urls.fetchText (u : Urls) : String := String.ofList (Text.Utf8.lossy (u.fetch.getD []))

/-- The URL to which pushes go. -/
def Urls.pushText (u : Urls) : String :=
  String.ofList (Text.Utf8.lossy ((u.push <|> u.fetch).getD []))

/-- Gives a remote another URL; one that is not there comes to be. -/
def setUrl (fs : FileSystem) (directory : FileSystem.Location) (name url : String) :
    Except Fault FileSystem := do
  withoutNul [name, url]
  requireName name
  if url = "" then
    throw { text := "cannot set empty URL", cls := some .invalid, code := some .invalidSpec }
  Settings.set fs directory (key name "url") url

/-- Adds a remote. -/
def add (fs : FileSystem) (directory : FileSystem.Location) (name url : String) :
    Except Fault FileSystem := do
  withoutNul [name, url]
  requireName name
  let settings ← Settings.load fs directory
  if (find settings name).isOk then
    throw { text := "remote '" ++ name ++ "' already exists"
            cls := some .config, code := some .alreadyExists }
  let fs ← setUrl fs directory name url
  Settings.set fs directory (key name "fetch") ("+refs/heads/*:refs/remotes/" ++ name ++ "/*")

end Remote
end Git
end NightlyRelease
