import ScopedConf.CommandLine.Outcome
import ScopedConf.Context.Json
import ScopedConf.Engine.Parse
import ScopedConf.Files.Answers
import ScopedConf.Files.Archive
import ScopedConf.Main
import ScopedConf.Server.Basic
import ScopedConf.Proofs.Handling
import ScopedConf.Proofs.Runs
import ScopedConf.Proofs.Discipline
import ScopedConf.Proofs.Server.Reference
import ScopedConf.Proofs.Streams
import ScopedConf.Proofs.Recursion
import ScopedConf.Proofs.Splicing
import ScopedConf.Proofs.Items
import ScopedConf.Proofs.Server.Meaning
import ScopedConf.Proofs.Server.Storing
import ScopedConf.Proofs.Server.Configuration
import ScopedConf.Proofs.Ending
import ScopedConf.Proofs.Inheritance
import ScopedConf.Proofs.Isolation
import ScopedConf.Proofs.Encoding
import ScopedConf.Proofs.Grammar
import ScopedConf.Proofs.Lexemes
import ScopedConf.Proofs.Forms
import ScopedConf.Proofs.Blame
import ScopedConf.Proofs.Reports
import ScopedConf.Proofs.Erasure
import ScopedConf.Proofs.Independence
import ScopedConf.Proofs.Server.WellFormed
import ScopedConf.Proofs.Loosening
import ScopedConf.Proofs.Unread
import ScopedConf.Proofs.Simulation
import ScopedConf.Proofs.Uses
import ScopedConf.Proofs.Sections
import ScopedConf.Proofs.Commuting
import ScopedConf.Proofs.Mirroring
import ScopedConf.Proofs.Identity
import ScopedConf.Proofs.LiteralIncludes
import ScopedConf.Proofs.Refilling
import ScopedConf.Proofs.SingleUse
import ScopedConf.Proofs.OwnRecords
import ScopedConf.Proofs.Lines
import ScopedConf.Proofs.RawBytes
import ScopedConf.Proofs.Durations
import ScopedConf.Proofs.Amounts
import ScopedConf.Proofs.Setters
import ScopedConf.Proofs.Server.MediaTypes
import ScopedConf.Proofs.PathSearch
import ScopedConf.Proofs.NumberBounds
import ScopedConf.Proofs.NamedEntries
import ScopedConf.Proofs.JsonTrees
import ScopedConf.Proofs.Server.Endpoints
import ScopedConf.Proofs.Server.DefaultServers
import ScopedConf.Proofs.Server.Listening
import ScopedConf.Proofs.RefusedWords
