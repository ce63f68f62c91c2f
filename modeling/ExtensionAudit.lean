import ExtensionAudit.Advice
import ExtensionAudit.Archive.Basic
import ExtensionAudit.Archive.Checksum
import ExtensionAudit.Archive.Error
import ExtensionAudit.Archive.Inflate
import ExtensionAudit.Bytes
import ExtensionAudit.CommandLine.Run
import ExtensionAudit.Files.Tree
import ExtensionAudit.Finding
import ExtensionAudit.Json.Decode
import ExtensionAudit.Json.Value
import ExtensionAudit.Main
import ExtensionAudit.Manifest.Authored
import ExtensionAudit.Manifest.Basic
import ExtensionAudit.Number.Shortest
import ExtensionAudit.Policy
import ExtensionAudit.Proofs.Archive.Declared
import ExtensionAudit.Proofs.Archive.Deflated
import ExtensionAudit.Proofs.Archive.DirectReading
import ExtensionAudit.Proofs.Archive.FirstFile
import ExtensionAudit.Proofs.Archive.Index
import ExtensionAudit.Proofs.Archive.Paths
import ExtensionAudit.Proofs.Archive.Pieces
import ExtensionAudit.Proofs.Archive.Walk
import ExtensionAudit.Proofs.Archive.WholeReads
import ExtensionAudit.Proofs.Manifest.Extraction
import ExtensionAudit.Proofs.Manifest.UrlSearch
import ExtensionAudit.Proofs.Manifest.Version
import ExtensionAudit.Proofs.Report.DeclaredRules
import ExtensionAudit.Proofs.Report.Dependence
import ExtensionAudit.Proofs.Report.NamedLevel
import ExtensionAudit.Proofs.Report.Prompt
import ExtensionAudit.Proofs.Report.ResultLine
import ExtensionAudit.Proofs.Rollup.Levels
import ExtensionAudit.Proofs.Rollup.Table
import ExtensionAudit.Proofs.Rollup.Totals
import ExtensionAudit.Proofs.Rule.Grades
import ExtensionAudit.Proofs.Rule.Ignored
import ExtensionAudit.Proofs.Rule.Raises
import ExtensionAudit.Proofs.Rule.Requests
import ExtensionAudit.Proofs.Rule.SecurityPolicy
import ExtensionAudit.Proofs.Scan.Calls
import ExtensionAudit.Proofs.Scan.Spans
import ExtensionAudit.Proofs.Store.Interrupted
import ExtensionAudit.Proofs.Store.Transparency
import ExtensionAudit.Proofs.Time.Text
import ExtensionAudit.Proofs.Url.Redaction
import ExtensionAudit.Report.Format
import ExtensionAudit.Rollup
import ExtensionAudit.Rollup.Text
import ExtensionAudit.Rule.Battery
import ExtensionAudit.Settings
import ExtensionAudit.Store.Directory
import ExtensionAudit.StoreDetails
import ExtensionAudit.Text.Case
import ExtensionAudit.Text.CodePage437
import ExtensionAudit.Text.Lines
import ExtensionAudit.Text.Occurs
import ExtensionAudit.Text.TextSet
import ExtensionAudit.Text.Utf8
import ExtensionAudit.Time.Text
import ExtensionAudit.Toml.Reader
import ExtensionAudit.Url
