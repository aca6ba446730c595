import UrlHarvest.Address.Basic
import UrlHarvest.Address.Ip
import UrlHarvest.CommandLine.Report
import UrlHarvest.CommandLine.Run
import UrlHarvest.CommandLine.Usage
import UrlHarvest.CommandLine.Workspace
import UrlHarvest.Comments.Regions
import UrlHarvest.Comments.Style
import UrlHarvest.Entries
import UrlHarvest.Extraction
import UrlHarvest.FileFormat
import UrlHarvest.FilePath
import UrlHarvest.Ini.Document
import UrlHarvest.Ini.Reader
import UrlHarvest.Log
import UrlHarvest.Main
import UrlHarvest.Pattern.Basic
import UrlHarvest.Pattern.Boundary
import UrlHarvest.Pattern.Capture
import UrlHarvest.Proofs.Address.Target
import UrlHarvest.Proofs.CommandLine.Cleaning
import UrlHarvest.Proofs.CommandLine.Documents
import UrlHarvest.Proofs.Comments.Blocks
import UrlHarvest.Proofs.Comments.Fold
import UrlHarvest.Proofs.Comments.Hidden
import UrlHarvest.Proofs.Comments.Padding
import UrlHarvest.Proofs.Comments.Rounds
import UrlHarvest.Proofs.Comments.Spans
import UrlHarvest.Proofs.Comments.WholeText
import UrlHarvest.Proofs.Entries
import UrlHarvest.Proofs.Extraction.Ceiling
import UrlHarvest.Proofs.Extraction.Endings
import UrlHarvest.Proofs.Extraction.Fallback
import UrlHarvest.Proofs.Extraction.Schemes
import UrlHarvest.Proofs.Ini.Dangling
import UrlHarvest.Proofs.Ini.Distinct
import UrlHarvest.Proofs.Ini.Options
import UrlHarvest.Proofs.Pattern.Boundary
import UrlHarvest.Proofs.Pattern.Links
import UrlHarvest.Proofs.Pattern.Matches
import UrlHarvest.Proofs.Pattern.Padding
import UrlHarvest.Proofs.Pattern.Pieces
import UrlHarvest.Proofs.Pattern.Schemes
import UrlHarvest.Proofs.Pattern.Shown
import UrlHarvest.Proofs.Pattern.Tokens
import UrlHarvest.Proofs.Reference.Kinds
import UrlHarvest.Proofs.Scan.Blanked
import UrlHarvest.Proofs.Scan.Context
import UrlHarvest.Proofs.Scan.Coordinates
import UrlHarvest.Proofs.Scan.Delimited
import UrlHarvest.Proofs.Scan.Findings
import UrlHarvest.Proofs.Scan.History
import UrlHarvest.Proofs.Scan.Located
import UrlHarvest.Proofs.Scan.Locator
import UrlHarvest.Proofs.Scan.Markdown
import UrlHarvest.Proofs.Scan.Opaque
import UrlHarvest.Proofs.Scan.Outside
import UrlHarvest.Proofs.Scan.Padding
import UrlHarvest.Proofs.Scan.Places
import UrlHarvest.Proofs.Scan.Refused
import UrlHarvest.Proofs.Scan.Registry
import UrlHarvest.Proofs.Scan.Sequence
import UrlHarvest.Proofs.Scan.Sound
import UrlHarvest.Proofs.Scan.Structured
import UrlHarvest.Proofs.Scan.Targets
import UrlHarvest.Proofs.Settings.Accepted
import UrlHarvest.Proofs.Settings.Bounds
import UrlHarvest.Proofs.Text.Control
import UrlHarvest.Proofs.Text.Find
import UrlHarvest.Proofs.Text.Lines
import UrlHarvest.Proofs.Text.Lowercase
import UrlHarvest.Proofs.Text.Padding
import UrlHarvest.Proofs.Text.Space
import UrlHarvest.Proofs.Text.Utf8
import UrlHarvest.Proofs.Tidy.Firsts
import UrlHarvest.Proofs.Tidy.Lines
import UrlHarvest.Proofs.Tidy.Order
import UrlHarvest.Proofs.Tidy.Sorting
import UrlHarvest.Proofs.Tidy.Urls
import UrlHarvest.Proofs.Toml.Document
import UrlHarvest.Proofs.Toml.Nesting
import UrlHarvest.Proofs.Toml.Newlines
import UrlHarvest.Proofs.Toml.Reading
import UrlHarvest.Proofs.Toml.Scalar
import UrlHarvest.Proofs.Tree.Collect
import UrlHarvest.Proofs.Tree.Entries
import UrlHarvest.Proofs.Tree.Kinds
import UrlHarvest.Proofs.Tree.Paths
import UrlHarvest.Reference
import UrlHarvest.Scan.Context
import UrlHarvest.Scan.Fault
import UrlHarvest.Scan.Formats
import UrlHarvest.Scan.Line
import UrlHarvest.Scan.Locator
import UrlHarvest.Scan.Problem
import UrlHarvest.Scan.Registry
import UrlHarvest.Scan.RegistryStep
import UrlHarvest.Scan.Scanner
import UrlHarvest.Scan.Step
import UrlHarvest.Scan.Structured
import UrlHarvest.Scheme
import UrlHarvest.Settings.Basic
import UrlHarvest.Settings.Checked
import UrlHarvest.Settings.Document
import UrlHarvest.Settings.Safety
import UrlHarvest.Text.Basic
import UrlHarvest.Text.CaseTables
import UrlHarvest.Text.Control
import UrlHarvest.Text.LetterCase
import UrlHarvest.Text.Lowercase
import UrlHarvest.Text.Position
import UrlHarvest.Text.Printable
import UrlHarvest.Text.Quoted
import UrlHarvest.Text.Ranges
import UrlHarvest.Text.Space
import UrlHarvest.Text.Utf8
import UrlHarvest.Text.Word
import UrlHarvest.Tidy.Document
import UrlHarvest.Tidy.Lines
import UrlHarvest.Tidy.Order
import UrlHarvest.Tidy.Urls
import UrlHarvest.Toml.Basic
import UrlHarvest.Toml.Document
import UrlHarvest.Toml.Quoted
import UrlHarvest.Toml.Scalar
import UrlHarvest.Toml.Tables
import UrlHarvest.Tree.Basic
import UrlHarvest.Tree.Collect
import UrlHarvest.Tree.Printer
import UrlHarvest.Url
import UrlHarvest.Yaml.Document
import UrlHarvest.Yaml.Scalar
import UrlHarvest.Yaml.Token
