import TypeGraph.Command.Line
import TypeGraph.Command.Option
import TypeGraph.Command.Run
import TypeGraph.Declaration.Basic
import TypeGraph.Declaration.OfTree
import TypeGraph.Declaration.Walk
import TypeGraph.Extract
import TypeGraph.Failure
import TypeGraph.Files.Entry
import TypeGraph.Files.Path
import TypeGraph.Files.Tree
import TypeGraph.Graph.Basic
import TypeGraph.Java.Automaton
import TypeGraph.Java.Fault
import TypeGraph.Java.Grammar
import TypeGraph.Java.Lexeme
import TypeGraph.Java.Marked
import TypeGraph.Java.Parse
import TypeGraph.Java.Phrase
import TypeGraph.Java.Reading
import TypeGraph.Java.Symbol
import TypeGraph.Java.Table
import TypeGraph.Java.Terminal
import TypeGraph.Java.Tree
import TypeGraph.Json.Basic
import TypeGraph.Json.OfDocument
import TypeGraph.Main
import TypeGraph.Project.Extract
import TypeGraph.Project.Save
import TypeGraph.Project.Scan
import TypeGraph.Proofs.Command.Run
import TypeGraph.Proofs.Command.Settings
import TypeGraph.Proofs.Declaration.Bare
import TypeGraph.Proofs.Declaration.Calls
import TypeGraph.Proofs.Declaration.Fields
import TypeGraph.Proofs.Declaration.Gap
import TypeGraph.Proofs.Declaration.Layout
import TypeGraph.Proofs.Declaration.Lines
import TypeGraph.Proofs.Declaration.Lookup
import TypeGraph.Proofs.Declaration.Lowering
import TypeGraph.Proofs.Declaration.Members
import TypeGraph.Proofs.Declaration.Phrases
import TypeGraph.Proofs.Declaration.Plain
import TypeGraph.Proofs.Declaration.Qualified
import TypeGraph.Proofs.Declaration.Reached
import TypeGraph.Proofs.Declaration.Rearranged
import TypeGraph.Proofs.Declaration.Receivers
import TypeGraph.Proofs.Declaration.Routes
import TypeGraph.Proofs.Declaration.Scope
import TypeGraph.Proofs.Declaration.Segment
import TypeGraph.Proofs.Declaration.Standing
import TypeGraph.Proofs.Declaration.TypeName
import TypeGraph.Proofs.Declaration.TypeParts
import TypeGraph.Proofs.Declaration.Unplaced
import TypeGraph.Proofs.Declaration.Visits
import TypeGraph.Proofs.Declaration.Written
import TypeGraph.Proofs.Files.Blank
import TypeGraph.Proofs.Files.Path
import TypeGraph.Proofs.Files.Sight
import TypeGraph.Proofs.Files.Walk
import TypeGraph.Proofs.Graph.Builder
import TypeGraph.Proofs.Graph.OfDocument
import TypeGraph.Proofs.Graph.Requests
import TypeGraph.Proofs.Graph.States
import TypeGraph.Proofs.Graph.Summary
import TypeGraph.Proofs.Java.Automaton
import TypeGraph.Proofs.Java.Bare
import TypeGraph.Proofs.Java.Comments
import TypeGraph.Proofs.Java.Derivation
import TypeGraph.Proofs.Java.Faults
import TypeGraph.Proofs.Java.Fits
import TypeGraph.Proofs.Java.Lexeme
import TypeGraph.Proofs.Java.Parts
import TypeGraph.Proofs.Java.Reading
import TypeGraph.Proofs.Java.Search
import TypeGraph.Proofs.Java.Spelling
import TypeGraph.Proofs.Java.Tiling
import TypeGraph.Proofs.Json.Document
import TypeGraph.Proofs.Json.Layout
import TypeGraph.Proofs.Json.Print
import TypeGraph.Proofs.Json.Reader
import TypeGraph.Proofs.Project.Appended
import TypeGraph.Proofs.Project.Directories
import TypeGraph.Proofs.Project.Extract
import TypeGraph.Proofs.Project.Homonyms
import TypeGraph.Proofs.Project.Links
import TypeGraph.Proofs.Project.Local
import TypeGraph.Proofs.Project.Order
import TypeGraph.Proofs.Project.Renaming
import TypeGraph.Proofs.Project.Save
import TypeGraph.Proofs.Project.Scan
import TypeGraph.Proofs.Project.Suffix
import TypeGraph.Proofs.Project.Targets
import TypeGraph.Proofs.Project.Units
import TypeGraph.Proofs.Project.Uses
import TypeGraph.Proofs.Project.Wider
import TypeGraph.Proofs.Responsibility
import TypeGraph.Proofs.Settings.Layer
import TypeGraph.Proofs.Text.Bytes
import TypeGraph.Proofs.Text.Case
import TypeGraph.Proofs.Text.Name
import TypeGraph.Proofs.Toml.Names
import TypeGraph.Record
import TypeGraph.Responsibility
import TypeGraph.Scope
import TypeGraph.Settings.Basic
import TypeGraph.Settings.OfToml
import TypeGraph.Text.Blank
import TypeGraph.Text.Case
import TypeGraph.Text.Intervals
import TypeGraph.Text.Letter
import TypeGraph.Text.Position
import TypeGraph.Text.Regex
import TypeGraph.Text.Split
import TypeGraph.Toml.Document
import TypeGraph.Toml.Fault
import TypeGraph.Toml.Scalar
import TypeGraph.Toml.Token
import TypeGraph.Toml.Value
