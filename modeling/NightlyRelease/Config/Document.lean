/-
# Configurations as documents

A configuration is written as a TOML document with the sections `paths`,
`version`, `commits`, `remote` and `author`. All of them may be left out, and
any part of them except the two of an author.
-/

import NightlyRelease.Config.Basic
import NightlyRelease.Toml.Document
import NightlyRelease.Toml.Record

namespace NightlyRelease
namespace Config

/-- A path. -/
def pathText : Toml.Decoder Path := fun v => Path.mk <$> Toml.textNamed "path string" v

/-- The fields of the section `paths`. -/
def pathsFields : List (Toml.Field Paths) :=
  [.of "version_file" pathText fun p s => { s with versionFile := p },
   .of "changelog" pathText fun p s => { s with changelog := p },
   .of "version_output" pathText fun p s => { s with versionOutput := p }]

/-- The field of the section `version`. -/
def versionFields : List (Toml.Field String) := [.of "prefix" Toml.text fun p _ => p]

/-- The fields of the section `commits`. -/
def commitsFields : List (Toml.Field Commits) :=
  [.of "marker" Toml.text fun s c => { c with marker := s },
   .of "commit_prefix" Toml.text fun s c => { c with lead := s },
   .of "changelog_window" Toml.count fun n c => { c with window := n },
   .of "min_subject_len" Toml.count fun n c => { c with minimum := n }]

/-- The field of the section `remote`. -/
def remoteFields : List (Toml.Field String) := [.of "name" Toml.text fun s _ => s]

/-- An author of whom not everything has been read. -/
structure AuthorDraft where
  name : Option String := none
  email : Option String := none

/-- The fields of the section `author`. -/
def authorFields : List (Toml.Field AuthorDraft) :=
  [.of "name" Toml.text fun s a => { a with name := some s },
   .of "email" Toml.text fun s a => { a with email := some s }]

/-- What a section without a whole author lacks. -/
def authorFault (v : Toml.Node) (a : AuthorDraft) : Toml.Fault :=
  match v.shape with
  | .array items => .length items.length "struct AuthorConfig with 2 elements"
  | .tables items => .length items.length "struct AuthorConfig with 2 elements"
  | _ => .missing (if a.name.isNone then "name" else "email")

/-- An author, of whom both parts must be given. -/
def authorSection : Toml.Decoder Author := fun v => do
  let a ← Toml.record "struct AuthorConfig" authorFields {} v
  match a.name, a.email with
  | some name, some email => return { name, email }
  | _, _ => throw ⟨v.span, authorFault v a⟩

/-- The sections of a document. -/
def sections : List (Toml.Field Config) :=
  [.of "paths" (Toml.record "struct PathsConfig" pathsFields {}) fun p c => { c with paths := p },
   .of "version" (Toml.record "struct VersionConfig" versionFields defaultKeyPrefix) fun p c =>
     { c with keyPrefix := p },
   .of "commits" (Toml.record "struct CommitsConfig" commitsFields {}) fun s c =>
     { c with commits := s },
   .of "remote" (Toml.record "struct RemoteConfig" remoteFields defaultRemote) fun s c =>
     { c with remote := s },
   .of "author" authorSection fun a c => { c with author := some a }]

/-- The configuration that a table of sections gives. -/
def ofTable (t : Toml.Table) : Except Toml.Mismatch Config :=
  Toml.Field.setEntries sections {} t.entries

/-- Reads the text of a configuration, without validating it. Of a text that is no TOML it is not
told what is wrong with it. -/
def parse (text : String) : Except Error Config :=
  match Toml.parse text with
  | none => .error (.config "TOML parse error")
  | some t => (ofTable t).mapError fun m => .config (m.message text)

end Config
end NightlyRelease
