/-
# The program

The program reads its arguments, loads the configuration, opens the repository
and makes one nightly run. It ends with what it has written to the terminal and
with an exit status: 0 if it did what it was asked for, 2 if there was nothing to
do, 1 if it failed.
-/

import NightlyRelease.CommandLine.Arguments
import NightlyRelease.Config.Lookup
import NightlyRelease.Nightly

namespace NightlyRelease
namespace CommandLine

/-- How the program ends. -/
structure Ending where
  output : Output
  exitCode : Nat
  deriving DecidableEq, Repr

/-- The name of the program. -/
def programName : String := "nightly-bump"

/-- The version of the program. -/
def programVersion : String := "0.1.0"

/-- The answer to `--version`. -/
def versionText : String := programName ++ " " ++ programVersion ++ "\n"

/-- How the program is called. -/
def usageLine : String := "Usage: " ++ programName ++ " [OPTIONS] [USERNAME] [SECRET]\n"

/-- The answer to `--help`. -/
def helpText : String :=
  "Bump the nightly patch version, write a changelog and push the result\n\n" ++ usageLine ++
  "\nArguments:\n" ++
  "  [USERNAME]  User name for the push\n" ++
  "  [SECRET]    Password or token for the push\n" ++
  "\nOptions:\n" ++
  "  -c, --config <CONFIG>  Custom configuration file path\n" ++
  "  -C, --repo <REPO>      Repository to run in [default: .]\n" ++
  "      --remote <REMOTE>  Remote to push to, overriding the configuration\n" ++
  "      --dry-run          Preview what would happen without making changes\n" ++
  "  -v, --verbose          Enable debug logging\n" ++
  "  -h, --help             Print help\n" ++
  "  -V, --version          Print version\n"

/-- How an option with a value is written. -/
def Setting.text : Setting → String
  | config => "--config <CONFIG>"
  | repository => "--repo <REPO>"
  | remote => "--remote <REMOTE>"

/-- How an option without a value is written. -/
def Switch.text : Switch → String
  | dryRun => "--dry-run"
  | verbose => "--verbose"

/-- The text about wrong arguments. -/
def Misuse.message : Misuse → String
  | unknownOption argument => "unexpected argument '" ++ argument ++ "' found"
  | missingValue s => "a value is required for '" ++ s.text ++ "' but none was supplied"
  | repeatedSetting s => "the argument '" ++ s.text ++ "' cannot be used multiple times"
  | repeatedSwitch s => "the argument '" ++ s.text ++ "' cannot be used multiple times"
  | unneededValue value => "unexpected value '" ++ value ++ "' found; no more were expected"
  | surplus argument => "unexpected argument '" ++ argument ++ "' found"
  | missingCredentials =>
    "the following required arguments were not provided:\n  <USERNAME>\n  <SECRET>"

/-- How the program ends if there is nothing to run. -/
def Stop.ending : Stop → Ending
  | help => ⟨⟨helpText, ""⟩, 0⟩
  | version => ⟨⟨versionText, ""⟩, 0⟩
  | misuse m => ⟨⟨"", "error: " ++ m.message ++ "\n\n" ++ usageLine ++
      "\nFor more information, try '--help'.\n"⟩, 1⟩

/-- The end after an error. -/
def failure (before : Output) (message : String) : Ending := ⟨before ++ Terminal.error message, 1⟩

/-- What a run is asked for. -/
def Request.options (r : Request) : Nightly.Options where
  credentials := match r.username, r.secret with
    | some username, some secret => some ⟨username, secret⟩
    | _, _ => none
  remote := r.remote
  dry := r.dry

/-- What is said before a run starts. -/
def Request.announcement (r : Request) : Output :=
  if r.dry then Terminal.status "Dry run, no files or repository state will change" else .empty

variable {σ : Type}

/-- Makes a run with a configuration in a repository. -/
def runIn (request : Request) (config : Config) (repo : Repository σ) : Action σ Ending := do
  match ← Action.attempt (Nightly.run request.options config repo) with
  | .ok outcome => return ⟨request.announcement ++ outcome.summary, outcome.exitCode⟩
  | .error e => return failure request.announcement e.chain

/-- Loads the configuration, with what the log says about it. -/
def loadConfig (request : Request) (userDirectory : Option Path) :
    Action σ (Except Error Config) := do
  let (loaded, lines) := Config.load (← Action.files) request.config userDirectory
  for line in lines do
    Action.log line.level line.text
  return loaded

/-- Does what is asked for; `openRepository` finds the repository to which a path belongs. -/
def execute (request : Request) (userDirectory : Option Path)
    (openRepository : Path → Action σ (Repository σ)) : Action σ Ending := do
  match ← loadConfig request userDirectory with
  | .error e => return failure .empty ("Error loading config: " ++ e.chain)
  | .ok config => match ← Action.attempt (openRepository request.repository) with
    | .error e =>
      return failure .empty
        ("Git repository error in " ++ request.repository.text ++ ": " ++ e.chain)
    | .ok repo => runIn request config repo

/-- Runs the program. -/
def run (arguments : List String) (userDirectory : Option Path)
    (openRepository : Path → Action σ (Repository σ)) : Action σ Ending :=
  match parse arguments with
  | .error stop => return stop.ending
  | .ok request => execute request userDirectory openRepository

end CommandLine
end NightlyRelease
