/-
# The settings of a repository

The file `config` of a repository holds sections of variables:

    [remote "origin"]
    	url = /srv/repo.git

A variable is known by a key, here `remote.origin.url`: the section and the name
in lower case, with the subsection as it is between them. Values are bytes; they
may stand in quotes, with escapes, and go on in the next line after a backslash.
A variable without `=` has no value. Of several values for a key the last one
counts, and such a key cannot be set.
-/

import NightlyRelease.Git.Reference

namespace NightlyRelease
namespace Git

/-- A variable with its value, if it has one. -/
structure Setting where
  key : String
  value : Option (List UInt8)
  deriving DecidableEq, Repr

/-- The variables of a file, in their order. -/
abbrev Settings := List Setting

namespace Settings

/-- Bytes as characters with the same numbers. -/
def charsOf (b : List UInt8) : List Char := b.map fun b => Char.ofNat b.toNat

/-- Characters below 256 as bytes. -/
def bytesOf (s : List Char) : List UInt8 := s.map fun c => UInt8.ofNat c.toNat

/-- The text of characters that stand for bytes. -/
def textOf (s : List Char) : String := String.ofList (Text.Utf8.lossy (bytesOf s))

/-- Whether a character separates words in a line. -/
def isGap (c : Char) : Bool := c == ' ' || c == '\t' || c == '\r'

/-- Whether a character may stand in the name of a section or a variable. -/
def isNameChar (c : Char) : Bool := c.isAlphanum || c == '-'

/-- The text after the end of the line. -/
def nextLine (s : List Char) : List Char := (s.dropWhile (· != '\n')).drop 1

/-- The character that an escape stands for. -/
def unescape? : Char → Option Char
  | 'n' => some '\n'
  | 't' => some '\t'
  | 'b' => some '\x08'
  | '"' => some '"'
  | '\\' => some '\\'
  | _ => none

/-- A value up to the end of its line, with the text after that. `value` is what has been read
and `gap` the blanks after it, which count only if more of the value follows. -/
def readValue (quoted : Bool) (value gap : List Char) :
    List Char → Option (List Char × List Char)
  | [] => if quoted then none else some (value, [])
  | '\n' :: r => if quoted then none else some (value, r)
  | '\\' :: '\n' :: r => readValue quoted value gap r
  | '\\' :: '\r' :: '\n' :: r => readValue quoted value gap r
  | '\\' :: c :: r => (unescape? c).bind fun d => readValue quoted (value ++ gap ++ [d]) [] r
  | '"' :: r => readValue (!quoted) (value ++ gap) [] r
  | c :: r =>
    if quoted then readValue quoted (value ++ [c]) [] r
    else if c == '#' || c == ';' then some (value, nextLine r)
    else if isGap c then readValue quoted value (if value = [] then [] else gap ++ [c]) r
    else readValue quoted (value ++ gap ++ [c]) [] r

/-- A subsection up to its closing quote. -/
def readSubsection : List Char → Option (List Char × List Char)
  | '"' :: r => some ([], r)
  | '\\' :: c :: r => (readSubsection r).map fun (s, t) => (c :: s, t)
  | c :: r => if c = '\n' then none else (readSubsection r).map fun (s, t) => (c :: s, t)
  | [] => none

/-- The start of the keys in a section, from its header after the opening bracket. -/
def readHeader (s : List Char) : Option (String × List Char) :=
  let name := String.ofList ((s.takeWhile fun c => isNameChar c || c == '.').map Char.toLower)
  match (s.dropWhile fun c => isNameChar c || c == '.').dropWhile isGap with
  | ']' :: r => if name = "" then none else some (name ++ ".", r)
  | '"' :: r => match readSubsection r with
    | some (sub, ']' :: t) => if name = "" then none else some (name ++ "." ++ textOf sub ++ ".", t)
    | _ => none
  | _ => none

/-- The variables of a text, in which `start` is the start of the keys. -/
def readLines : Nat → (start : Option String) → List Char → Option Settings
  | 0, _, _ => some []
  | fuel + 1, start, s => match s.dropWhile fun c => isGap c || c == '\n' with
    | [] => some []
    | '[' :: r => do
      let (start, rest) ← readHeader r
      readLines fuel (some start) rest
    | c :: r =>
      if c == '#' || c == ';' then readLines fuel start (nextLine r)
      else do
        let start ← start
        let name := ((c :: r).takeWhile isNameChar).map Char.toLower
        if name = [] then none
        let key := start ++ String.ofList name
        match ((c :: r).dropWhile isNameChar).dropWhile isGap with
        | '=' :: t => do
          let (value, rest) ← readValue false [] [] t
          return ⟨key, some (bytesOf value)⟩ :: (← readLines fuel (some start) rest)
        | t =>
          if t.head?.all fun c => c == '\n' || c == '#' || c == ';' then
            return ⟨key, none⟩ :: (← readLines fuel (some start) (nextLine t))
          else none

/-- Reads the file of settings. -/
def parse (content : List UInt8) : Option Settings :=
  let s := charsOf content
  readLines (s.length + 1) none s

/-- A character of a value between quotes. -/
def escape (c : Char) : List Char :=
  if c = '\n' then ['\\', 'n']
  else if c = '\t' then ['\\', 't']
  else if c = '\x08' then ['\\', 'b']
  else if c = '"' ∨ c = '\\' then ['\\', c]
  else [c]

/-- The parts of a key: section, subsection if there is one, and name. -/
def splitKey (key : String) : String × Option String × String :=
  match Text.splitOn '.' key.toList with
  | [] => ("", none, "")
  | [only] => ("", none, String.ofList only)
  | first :: rest =>
    let name := rest.getLast?.getD []
    let middle := rest.dropLast
    (String.ofList first,
      if middle = [] then none else some (".".intercalate (middle.map String.ofList)),
      String.ofList name)

/-- The lines for a variable. -/
def renderSetting (s : Setting) : List UInt8 :=
  let (section_, sub, name) := splitKey s.key
  let header := match sub with
    | none => "[" ++ section_ ++ "]"
    | some sub =>
      "[" ++ section_ ++ " \"" ++ String.ofList (sub.toList.flatMap escape) ++ "\"]"
  let value := match s.value with
    | none => []
    | some v => bytesOf (" = \"".toList ++ (charsOf v).flatMap escape ++ ['"'])
  Text.bytes (header ++ "\n\t" ++ name) ++ value ++ [10]

/-- The file of settings. -/
def render (settings : Settings) : List UInt8 := settings.flatMap renderSetting

/-- Whether a text is a proper name of a section or a variable. -/
def isName (s : List Char) : Bool := s != [] && s.all isNameChar && s.head? != some '-'

/-- The key that a text stands for. -/
def key? (text : String) : Option String :=
  let (section_, sub, name) := splitKey text
  if isName section_.toList && isName name.toList && !(sub.getD "").toList.contains '\n' then
    some (String.ofList (section_.toList.map Char.toLower) ++
      (match sub with | none => "." | some sub => "." ++ sub ++ ".") ++
      String.ofList (name.toList.map Char.toLower))
  else none

/-- The values of a key. -/
def values (settings : Settings) (key : String) : List (Option (List UInt8)) :=
  (settings.filter (·.key == key)).map (·.value)

/-- The value that counts for a key. -/
def get? (settings : Settings) (key : String) : Option (List UInt8) :=
  (settings.values key).getLast?.bind id

/-- The value of a key as text. -/
def text? (settings : Settings) (key : String) : Option String :=
  (settings.get? key).map fun v => String.ofList (Text.Utf8.lossy v)

/-- The value of a key as text, which is empty for a variable without a value. -/
def textOrEmpty? (settings : Settings) (key : String) : Option String :=
  (settings.values key).getLast?.map fun v => String.ofList (Text.Utf8.lossy (v.getD []))

/-- Whether a variable is switched on; one without a value is. -/
def isOn (settings : Settings) (key : String) : Bool :=
  match (settings.values key).getLast? with
  | none => false
  | some none => true
  | some (some v) =>
    let s := String.ofList ((charsOf v).map Char.toLower)
    s = "true" || s = "yes" || s = "on" || (s.toNat?.any (· ≠ 0))

/-- Where the settings of a repository lie. -/
def location (directory : FileSystem.Location) : FileSystem.Location := directory ++ ["config"]

/-- The settings of a repository. -/
def load (fs : FileSystem) (directory : FileSystem.Location) : Except Fault Settings :=
  match fs.read (pathOf (location directory)) with
  | .error _ => .ok []
  | .ok content => match parse content.toList with
    | some settings => .ok settings
    | none => .error { text := "failed to parse config file", cls := some .config }

/-- Sets a variable of a repository. Nothing is written if it has the value already. -/
def set (fs : FileSystem) (directory : FileSystem.Location) (key value : String) :
    Except Fault FileSystem := do
  withoutNul [key, value]
  let some key := key? key
    | throw { text := "invalid config item name '" ++ key ++ "'"
              cls := some .config, code := some .invalidSpec }
  let settings ← load fs directory
  let value := Text.bytes value
  let write (settings : Settings) : Except Fault FileSystem := do
    Reference.requireUnlocked fs (location directory)
    return fs.set (location directory) (.file ⟨(render settings).toArray⟩)
  match settings.values key with
  | [] => write (settings ++ [⟨key, some value⟩])
  | [old] =>
    if old = some value then return fs
    else write (settings.map fun s => if s.key = key then ⟨key, some value⟩ else s)
  | _ => throw { text := "entry is not unique due to being a multivar", cls := some .config }

end Settings
end Git
end NightlyRelease
