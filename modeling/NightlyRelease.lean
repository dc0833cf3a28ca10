import NightlyRelease.Artifacts
import NightlyRelease.Changelog
import NightlyRelease.CommandLine.Arguments
import NightlyRelease.CommandLine.Program
import NightlyRelease.Commit.Subject
import NightlyRelease.Config.Basic
import NightlyRelease.Config.Document
import NightlyRelease.Config.Lookup
import NightlyRelease.Credentials
import NightlyRelease.Error
import NightlyRelease.FileSystem.Basic
import NightlyRelease.FileSystem.Path
import NightlyRelease.Git.Branch
import NightlyRelease.Git.Commit
import NightlyRelease.Git.Committing
import NightlyRelease.Git.Creation
import NightlyRelease.Git.Fault
import NightlyRelease.Git.Http
import NightlyRelease.Git.Ignore
import NightlyRelease.Git.Index
import NightlyRelease.Git.Machine
import NightlyRelease.Git.Operation
import NightlyRelease.Git.Push
import NightlyRelease.Git.Reference
import NightlyRelease.Git.Refspec
import NightlyRelease.Git.Remote
import NightlyRelease.Git.Settings
import NightlyRelease.Git.Signature
import NightlyRelease.Git.Site
import NightlyRelease.Git.Staging
import NightlyRelease.Git.Summary
import NightlyRelease.Git.Walk
import NightlyRelease.Git.WorkTree
import NightlyRelease.Log
import NightlyRelease.LoopGuard
import NightlyRelease.Main
import NightlyRelease.Nightly
import NightlyRelease.Publish
import NightlyRelease.RemoteSwap
import NightlyRelease.Repository.Basic
import NightlyRelease.Repository.InMemory
import NightlyRelease.Repository.Scripted
import NightlyRelease.Repository.Stored
import NightlyRelease.Terminal
import NightlyRelease.Text.Base64
import NightlyRelease.Text.Binary64
import NightlyRelease.Text.Blank
import NightlyRelease.Text.Decimal
import NightlyRelease.Text.Hex
import NightlyRelease.Text.Hidden
import NightlyRelease.Text.Lines
import NightlyRelease.Text.Quoted
import NightlyRelease.Text.Search
import NightlyRelease.Text.Sorting
import NightlyRelease.Text.Utf8
import NightlyRelease.Toml.Document
import NightlyRelease.Toml.Mismatch
import NightlyRelease.Toml.Number
import NightlyRelease.Toml.Parser
import NightlyRelease.Toml.Quotation
import NightlyRelease.Toml.Reader
import NightlyRelease.Toml.Record
import NightlyRelease.Toml.Value
import NightlyRelease.Url.Percent
import NightlyRelease.Url.UserInfo
import NightlyRelease.Version.Basic
import NightlyRelease.Version.Grammar
import NightlyRelease.VersionFile.Basic
import NightlyRelease.VersionFile.Declaration
import NightlyRelease.VersionFile.Located
import NightlyRelease.Warning
import NightlyRelease.World
import NightlyRelease.Proofs.FileSystem.Writing
import NightlyRelease.Proofs.FileSystem.Directories
import NightlyRelease.Proofs.Text.Scanning
import NightlyRelease.Proofs.Version.Canonical
import NightlyRelease.Proofs.Text.Lines
import NightlyRelease.Proofs.Text.Encoding
import NightlyRelease.Proofs.Text.Hexadecimal
import NightlyRelease.Proofs.Text.Trimming
import NightlyRelease.Proofs.Version.Order
import NightlyRelease.Proofs.VersionFile.Grammar
import NightlyRelease.Proofs.VersionFile.Parsing
import NightlyRelease.Proofs.VersionFile.Reading
import NightlyRelease.Proofs.VersionFile.Spans
import NightlyRelease.Proofs.VersionFile.Counting
import NightlyRelease.Proofs.VersionFile.Digits
import NightlyRelease.Proofs.Publish.Endings
import NightlyRelease.Proofs.Publish.Protocol
import NightlyRelease.Proofs.Nightly.Planning
import NightlyRelease.Proofs.Nightly.Course
import NightlyRelease.Proofs.Nightly.Checkpoints
import NightlyRelease.Proofs.Nightly.Completion
import NightlyRelease.Proofs.Nightly.Ascent
import NightlyRelease.Proofs.Commit.Folding
import NightlyRelease.Proofs.Commit.Summary
import NightlyRelease.Proofs.Commit.Agreement
import NightlyRelease.Proofs.Nightly.Recurrence
import NightlyRelease.Proofs.Nightly.Comparison
import NightlyRelease.Proofs.Nightly.Secrecy
import NightlyRelease.Proofs.Nightly.Redaction
import NightlyRelease.Proofs.RemoteSwap.Bracket
import NightlyRelease.Proofs.Nightly.Preview
import NightlyRelease.Proofs.Nightly.Partition
import NightlyRelease.Proofs.Nightly.Succession
import NightlyRelease.Proofs.Git.Trees
import NightlyRelease.Proofs.Git.Reachable
import NightlyRelease.Proofs.Git.Walks
import NightlyRelease.Proofs.Git.References
import NightlyRelease.Proofs.Git.Operations
import NightlyRelease.Proofs.Publish.Contents
import NightlyRelease.Proofs.Commit.Newest
import NightlyRelease.Proofs.Url.Decoding
import NightlyRelease.Proofs.Url.Redaction
import NightlyRelease.Proofs.Version.RoundTrip
import NightlyRelease.Proofs.Changelog.Document
import NightlyRelease.Proofs.FileSystem.Places
import NightlyRelease.Proofs.Publish.Foreign
import NightlyRelease.Proofs.Commit.Stability
import NightlyRelease.Proofs.Config.Sources
import NightlyRelease.Proofs.Toml.Keys
import NightlyRelease.Proofs.Toml.Fields
import NightlyRelease.Proofs.Config.Sections
import NightlyRelease.Proofs.Config.Merging
