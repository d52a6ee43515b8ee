import Phrasebook.Log
import Phrasebook.Main
import Phrasebook.Options.Reader
import Phrasebook.Script.Reader
import Phrasebook.Translator
import Phrasebook.Files.Tree
import Phrasebook.Proofs.Json.Numbers
import Phrasebook.Proofs.Json.Strings
import Phrasebook.Proofs.Script.Layout
import Phrasebook.Proofs.Script.Literals
import Phrasebook.Proofs.Script.Templates
import Phrasebook.Proofs.Entries
import Phrasebook.Proofs.Script.Functions
import Phrasebook.Proofs.Script.Sequences
import Phrasebook.Proofs.Script.Trees
import Phrasebook.Proofs.Compile.Backends
import Phrasebook.Proofs.Script.Sources
import Phrasebook.Proofs.Compile.RoundTrip
import Phrasebook.Proofs.Script.Longer
import Phrasebook.Proofs.Compile.SelfDelimiting
import Phrasebook.Proofs.Template.Parsing
import Phrasebook.Proofs.Render.Meaning
import Phrasebook.Proofs.Render.Segments
import Phrasebook.Proofs.Resolver.Order
import Phrasebook.Proofs.Locale
import Phrasebook.Proofs.Resolver.Dialects
import Phrasebook.Proofs.Json.Names
import Phrasebook.Proofs.Catalog.Flattening
import Phrasebook.Proofs.Render.Fragments
import Phrasebook.Proofs.Tree.Nodes
import Phrasebook.Proofs.Tree.Canonical
import Phrasebook.Proofs.Translator.Selection
import Phrasebook.Proofs.Files.Path
import Phrasebook.Proofs.Files.Order
import Phrasebook.Proofs.Bundle.Collisions
import Phrasebook.Proofs.Bundle.Report
import Phrasebook.Proofs.Bundle.Accounts
import Phrasebook.Proofs.Bundle.Output
import Phrasebook.Proofs.Files.Program
import Phrasebook.Proofs.Files.Interference
import Phrasebook.Proofs.Files.Disk
import Phrasebook.Proofs.Bundle.Task
import Phrasebook.Proofs.Bundle.Parallel
import Phrasebook.Proofs.Compile.Groups
import Phrasebook.Proofs.Resolver.Redundancy
import Phrasebook.Proofs.Script.Places
import Phrasebook.Proofs.Script.Depth
import Phrasebook.Proofs.Script.Contexts
import Phrasebook.Proofs.Script.CodePoints
import Phrasebook.Proofs.Script.Holes
import Phrasebook.Proofs.Script.Escapes
import Phrasebook.Proofs.Script.Words
import Phrasebook.Proofs.Template.NormalForm
import Phrasebook.Proofs.Compile.Warnings
import Phrasebook.Proofs.Bundle.Warnings
import Phrasebook.Proofs.Compile.FixedPhrases
import Phrasebook.Proofs.Template.Rejoining
import Phrasebook.Proofs.Compile.Spelling
import Phrasebook.Proofs.Render.Keys
import Phrasebook.Proofs.Render.Numbered
import Phrasebook.Proofs.Translator.Counts
import Phrasebook.Proofs.Catalog.Merging
import Phrasebook.Proofs.Catalog.History
import Phrasebook.Proofs.Fallback
import Phrasebook.Proofs.Script.Lines
import Phrasebook.Proofs.Script.Indentation
import Phrasebook.Proofs.Script.Calls
import Phrasebook.Proofs.Script.Segments
import Phrasebook.Proofs.Bundle.Spellings
