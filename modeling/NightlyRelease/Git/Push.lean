/-
# Pushing a branch

A push takes a branch to the branch of the same name of another repository; the
URL of the remote says where that is. It is asked for over HTTP, or lies on the
same machine, where it must be a bare repository. A branch only goes forward: the
commit that it has over there must be one that the new commit builds on.

The other repository can refuse the reference after the commits have reached it;
the push itself has then gone through. Else the reference that stands for the
branch of the remote follows.
-/

import NightlyRelease.Git.Operation
import NightlyRelease.Git.Refspec
import NightlyRelease.Git.Remote
import NightlyRelease.Git.Site

namespace NightlyRelease
namespace Git
namespace Push

/-- A reference that the other repository did not take. -/
structure Rejection where
  reference : String
  reason : String
  deriving DecidableEq, Repr

/-- What is reported about a rejection. -/
def Rejection.text (r : Rejection) : String := r.reference ++ " rejected: " ++ r.reason

/-- The ways to reach another repository. -/
inductive Route where
  | http (url : Http.Url)
  /-- Over a secured connection, to a host. -/
  | secured (host : String)
  /-- At a path of this machine. -/
  | path (p : Path)
  | unknown
  deriving DecidableEq

/-- The path of a URL for a file, unless it is malformed. -/
def filePath? (url : String) : Option String :=
  let rest := Text.stripPrefix? "file:///".toList url.toList <|>
    Text.stripPrefix? "file://localhost/".toList url.toList
  match rest with
  | none => some url
  | some rest =>
    if rest = [] ∨ rest.head? = some '/' then none else some (Http.decode ('/' :: rest))

/-- The path that a URL stands for. -/
def pathOfUrl (url : String) : Except Fault Path :=
  match filePath? url with
  | some p => .ok ⟨p⟩
  | none => .error { text := "'" ++ url ++ "' is not a valid local file URI", cls := some .config }

/-- Whether a path leads to a directory. -/
def isDirectory (fs : FileSystem) (p : Path) : Bool :=
  match fs.find true p with
  | .ok (_, .directory) => true
  | _ => false

/-- Whether a URL starts with a scheme, in capitals or not. -/
def hasScheme (scheme url : String) : Bool :=
  (scheme.toList).isPrefixOf (url.toList.map Char.toLower)

/-- The host of a URL, from what follows the scheme. -/
def hostOf (rest : List Char) : String :=
  String.ofList ((Url.splitUserInfo rest).2.takeWhile fun c => !Url.endsAuthority c && c != ':')

/-- The way that a URL names. -/
def Route.ofUrl (fs : FileSystem) (url : String) : Except Fault Route :=
  if hasScheme "http://" url then
    .ok (((Http.Url.parse? url).map Route.http).getD .unknown)
  else if hasScheme "https://" url then
    .ok (.secured (hostOf (url.toList.drop "https://".length)))
  else if hasScheme "file://" url then Route.path <$> pathOfUrl url
  else if !url.toList.contains ':' && isDirectory fs ⟨url⟩ then .ok (.path ⟨url⟩)
  else .ok .unknown

/-- No way leads to a URL. -/
def unsupported : Fault := { text := "unsupported URL protocol", cls := some .net }

/-- Nobody answers for a host. -/
def unresolved (host : String) : Fault where
  text := "failed to resolve address for " ++ host ++ ": Name or service not known"
  cls := some .net

/-- Reaches the repository that a URL names. -/
def connect (url : String) (credentials : Option Credentials) : Operation Site := do
  let fs ← Operation.files
  match ← Operation.ofExcept (Route.ofUrl fs url) with
  | .http target =>
    let m ← Operation.machine
    let (server, fault) := Http.push m.server target credentials
    Operation.setMachine { m with server }
    throw fault
  | .secured host => throw (unresolved host)
  | .path p => Operation.ofExcept ((Site.ofPath fs p).mapError fun f => { f with code := none })
  | .unknown => throw unsupported

/-- The commit to which a reference leads, if it leads to one. -/
def commitAt (fs : FileSystem) (directory : FileSystem.Location) (name : String) :
    Except Fault (Option CommitId) := do
  match ← Reference.resolve fs directory name with
  | some (.found _ id) => return id
  | _ => return none

/-- The commit that the source of a refspec stands for. What comes after a colon would be a path
in the tree of the commit, and there is nothing at such a path. -/
def sourceCommit (fs : FileSystem) (m : Machine) (directory : FileSystem.Location)
    (source : String) : Except Fault CommitId :=
  let name := String.ofList (source.toList.takeWhile (· != ':'))
  match commitAt fs directory name with
  | .error _ => .error { text := "not a valid reference '" ++ source ++ "'", cls := some .invalid }
  | .ok found =>
    match (found.filter fun id => name = source ∧ (m.commit? directory id).isSome) with
    | some id => .ok id
    | none => .error {
        text := "src refspec '" ++ source ++ "' does not match any existing object"
        cls := some .reference }

/-- Where names of references start. -/
def root : String := "refs/"

/-- Reads what is to be pushed: a refspec and the commit that it takes along. -/
def readSpec (fs : FileSystem) (m : Machine) (directory : FileSystem.Location) (branch : String) :
    Except Fault (Refspec × CommitId) := do
  let text := (Refspec.ofBranch branch).text
  let spec := Refspec.read text
  if !spec.isProper then throw { text := "invalid refspec " ++ text, cls := some .invalid }
  let id ← sourceCommit fs m directory spec.source
  if !root.toList.isPrefixOf spec.target.toList then
    throw { text := "not a valid reference '" ++ spec.target ++ "'", cls := some .invalid }
  return (spec, id)

/-- A push that would go another way than forward. -/
def notForward (text : String) : Fault where
  text
  cls := some .reference
  code := some .notFastForward

/-- Refuses a push that takes a reference anywhere but forward; `theirs` is the commit that it has
in the other repository. -/
def requireForward (m : Machine) (directory : FileSystem.Location) (ours : CommitId) :
    (theirs : Option (Option CommitId)) → Except Fault Unit
  | none => .ok ()
  | some theirs =>
    if theirs = some ours then .ok ()
    else match theirs.filter fun id => (m.commit? directory id).isSome with
      | none => .error (notForward ("cannot push because a reference that you are trying to " ++
          "update on the remote contains commits that are not present locally."))
      | some id =>
        if (m.history.reachable ours).contains id then .ok ()
        else .error (notForward "cannot push non-fastforwardable reference")

/-- What a reference of the other repository holds, if it can be read. -/
def remoteCommit (fs : FileSystem) (site : Site) (name : String) : Option (Option CommitId) :=
  match Reference.resolve fs site.directory name with
  | .ok (some (.found _ id)) => some id
  | _ => none

/-- Moves a reference of the other repository. One that was not there before must not turn out to
be there after all. -/
def update (fs : FileSystem) (site : Site) (name : String) (known : Bool) (id : CommitId) :
    Except Fault FileSystem :=
  let taken := match fs.find true (pathOf (Reference.location site.directory name)) with
    | .ok (_, .file _) => true
    | _ => false
  if taken && !known then
    .error { text := "failed to write reference '" ++ name ++
               "': a reference with that name already exists.", cls := some .reference }
  else Reference.write fs site.directory name (.commit (some id))

/-- Lets the reference that stands for a branch of a remote follow the branch. -/
def track (site : Site) (settings : Settings) (remote : String) (spec : Refspec)
    (id : CommitId) : Operation Unit := do
  let specs := (settings.values (Remote.key remote "fetch")).filterMap fun v =>
    v.map fun b => String.ofList (Text.Utf8.lossy b)
  match Refspec.firstTarget? specs spec.target with
  | none => pure ()
  | some name =>
    Operation.setFiles (← Operation.ofExcept
      (Reference.write (← Operation.files) site.directory name (.commit (some id))))

/-- The repository that takes the commits; it must be a bare one. -/
def receiver (fs : FileSystem) (url : String) : Except Fault Site := do
  let theirs ← Site.ofPath fs (← pathOfUrl url)
  if theirs.workDirectory.isSome then
    throw { text := "local push doesn't (yet) support pushing to non-bare repos."
            cls := some .invalid, code := some .bareRepository }
  return theirs

/-- Pushes a branch of a repository to a remote with some URLs. -/
def run (site : Site) (remote : String) (urls : Remote.Urls) (branch : String)
    (credentials : Option Credentials) : Operation (Option Rejection) := do
  Operation.ofExcept (withoutNul [branch])
  let settings ← Operation.ofExcept (Settings.load (← Operation.files) site.directory)
  let reached ← connect urls.pushText credentials
  let fs ← Operation.files
  let m ← Operation.machine
  let (spec, id) ← Operation.ofExcept (readSpec fs m site.directory branch)
  let theirs := remoteCommit fs reached spec.target
  Operation.ofExcept (requireForward m site.directory id theirs)
  let receiver ← Operation.ofExcept (receiver fs urls.fetchText)
  Operation.setMachine (m.receive receiver.directory id)
  match update fs receiver spec.target theirs.isSome id with
  | .error fault => return some ⟨spec.target, fault.text⟩
  | .ok fs =>
    Operation.setFiles fs
    track site settings remote spec id
    return none

end Push
end Git
end NightlyRelease
