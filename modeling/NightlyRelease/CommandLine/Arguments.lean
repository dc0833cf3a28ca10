/-
# Arguments of the program

The program takes two texts, the user name and the secret for the push, and
options before, between and after them. An option is one text with two dashes in
front, or one letter with one dash; letters can be put together. The value of an
option is the next argument, or follows an equals sign, or follows the letter.
After two dashes alone nothing is an option.

| option | value | meaning |
| --- | --- | --- |
| `-c`, `--config` | a path | the configuration |
| `-C`, `--repo` | a path | where to look for the repository |
| `--remote` | a text | the remote to push to |
| `--dry-run` | | change nothing |
| `-v`, `--verbose` | | write a longer log |
| `-h`, `--help` | | tell about all this, and do nothing else |
| `-V`, `--version` | | tell the version, and do nothing else |

Arguments are read one by one, so what is wrong before `--help` is refused, and
what is wrong after it is not looked at. No option may be given twice, a value
does not look like an option, and a path is not empty. Without `--dry-run` both
texts must be there.
-/

import NightlyRelease.FileSystem.Path

namespace NightlyRelease
namespace CommandLine

/-- The options with a value. -/
inductive Setting where
  | config | repository | remote
  deriving DecidableEq, Repr

/-- The options without a value that change a run. -/
inductive Switch where
  | dryRun | verbose
  deriving DecidableEq, Repr

/-- What an option stands for. -/
inductive Key where
  | setting (s : Setting)
  | switch (s : Switch)
  | help
  | version
  deriving DecidableEq, Repr

/-- The option with a long name. -/
def Key.ofName? : String → Option Key
  | "config" => some (.setting .config)
  | "repo" => some (.setting .repository)
  | "remote" => some (.setting .remote)
  | "dry-run" => some (.switch .dryRun)
  | "verbose" => some (.switch .verbose)
  | "help" => some .help
  | "version" => some .version
  | _ => none

/-- The option with a letter. -/
def Key.ofLetter? : Char → Option Key
  | 'c' => some (.setting .config)
  | 'C' => some (.setting .repository)
  | 'v' => some (.switch .verbose)
  | 'h' => some .help
  | 'V' => some .version
  | _ => none

/-- Whether the value of an option is a path. -/
def Setting.isPath : Setting → Bool
  | config => true
  | repository => true
  | remote => false

/-- What is wrong with the arguments. -/
inductive Misuse where
  | unknownOption (argument : String)
  | missingValue (s : Setting)
  | repeatedSetting (s : Setting)
  | repeatedSwitch (s : Switch)
  /-- An option got a value that takes none. -/
  | unneededValue (value : String)
  /-- There are more texts than the user name and the secret. -/
  | surplus (argument : String)
  | missingCredentials
  deriving DecidableEq, Repr

/-- Why there is nothing to run. -/
inductive Stop where
  | help
  | version
  | misuse (m : Misuse)
  deriving DecidableEq, Repr

/-- What has been read of the arguments. -/
structure Given where
  settings : List (Setting × String) := []
  switches : List Switch := []
  /-- The texts that are no options, in their order. -/
  texts : List String := []
  deriving DecidableEq, Repr

namespace Given

/-- The value of an option. -/
def value? (g : Given) (s : Setting) : Option String := g.settings.lookup s

/-- Adds an option with its value. -/
def set (g : Given) (s : Setting) (value : String) : Except Stop Given :=
  if s.isPath ∧ value = "" then .error (.misuse (.missingValue s))
  else if (g.value? s).isSome then .error (.misuse (.repeatedSetting s))
  else .ok { g with settings := (s, value) :: g.settings }

/-- Adds an option without a value. -/
def turnOn (g : Given) (s : Switch) : Except Stop Given :=
  if s ∈ g.switches then .error (.misuse (.repeatedSwitch s))
  else .ok { g with switches := s :: g.switches }

/-- Adds a text. -/
def addText (g : Given) (text : String) : Except Stop Given :=
  if g.texts.length < 2 then .ok { g with texts := g.texts ++ [text] }
  else .error (.misuse (.surplus text))

end Given

/-- How far the arguments have been read. -/
structure Reading where
  given : Given := {}
  /-- An option that waits for its value. -/
  pending : Option Setting := none
  /-- Whether options are over. -/
  closed : Bool := false
  deriving DecidableEq, Repr

namespace Reading

/-- Whether an argument looks like an option. -/
def looksLikeOption (argument : String) : Bool :=
  match argument.toList with
  | '-' :: _ :: _ => true
  | _ => false

/-- Meets an option that takes no value. -/
def meet (g : Given) : Key → Except Stop Given
  | .switch s => g.turnOn s
  | .help => .error .help
  | .version => .error .version
  | .setting _ => .ok g

/-- Reads an option after its two dashes. -/
def readLong (r : Reading) (argument : String) (name : List Char) (value : Option (List Char)) :
    Except Stop Reading :=
  match Key.ofName? (String.ofList name), value with
  | none, _ => .error (.misuse (.unknownOption argument))
  | some (.setting s), some value => do
    return { r with given := ← r.given.set s (String.ofList value) }
  | some (.setting s), none => .ok { r with pending := some s }
  | some _, some value => .error (.misuse (.unneededValue (String.ofList value)))
  | some key, none => do return { r with given := ← meet r.given key }

/-- Reads letters after their dash. -/
def readLetters (r : Reading) (argument : String) : List Char → Except Stop Reading
  | [] => .ok r
  | c :: rest => match Key.ofLetter? c with
    | none => .error (.misuse (.unknownOption argument))
    | some (.setting s) =>
      if rest = [] then .ok { r with pending := some s }
      else do
        let value := (Text.stripPrefix? ['='] rest).getD rest
        return { r with given := ← r.given.set s (String.ofList value) }
    | some key => do readLetters { r with given := ← meet r.given key } argument rest

/-- Reads an argument that is no value of an option before it. -/
def readArgument (r : Reading) (argument : String) : Except Stop Reading :=
  match argument.toList with
  | ['-', '-'] => .ok { r with closed := true }
  | '-' :: '-' :: text => match Text.splitAt? ['='] text with
    | some (name, value) => r.readLong argument name (some value)
    | none => r.readLong argument text none
  | '-' :: c :: letters => r.readLetters argument (c :: letters)
  | _ => do return { r with given := ← r.given.addText argument }

/-- Reads the next argument. -/
def next (r : Reading) (argument : String) : Except Stop Reading :=
  if r.closed then do return { r with given := ← r.given.addText argument }
  else match r.pending with
    | none => r.readArgument argument
    | some s =>
      if looksLikeOption argument then .error (.misuse (.missingValue s))
      else do return { r with given := ← r.given.set s argument, pending := none }

end Reading

/-- What the program is to do. -/
structure Request where
  username : Option String
  secret : Option String
  config : Option Path
  /-- Where to look for the repository. -/
  repository : Path
  remote : Option String
  dry : Bool
  verbose : Bool
  deriving DecidableEq, Repr

/-- The request that arguments make. -/
def Given.request (g : Given) : Except Stop Request :=
  let dry := decide (Switch.dryRun ∈ g.switches)
  if !dry && g.texts.length < 2 then .error (.misuse .missingCredentials)
  else .ok {
    username := g.texts[0]?
    secret := g.texts[1]?
    config := (g.value? .config).map Path.mk
    repository := ((g.value? .repository).map Path.mk).getD ⟨"."⟩
    remote := g.value? .remote
    dry
    verbose := decide (Switch.verbose ∈ g.switches) }

/-- Reads the arguments of the program. -/
def parse (arguments : List String) : Except Stop Request := do
  let r ← arguments.foldlM Reading.next {}
  match r.pending with
  | some s => throw (.misuse (.missingValue s))
  | none => r.given.request

end CommandLine
end NightlyRelease
