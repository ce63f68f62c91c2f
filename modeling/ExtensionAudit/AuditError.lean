import ExtensionAudit.Manifest.Package

namespace ExtensionAudit

/-- Why a command fails. -/
inductive AuditError where
  | package (fault : PackageError)
  /-- The text, without blanks around it, is no id. -/
  | invalidId (text : String)
  | brokenRecord
  | missingId
  | negativeAge (hours : Int)
  /-- The system refused to read or write a file, or a text file is no text. -/
  | files
  | brokenDetails
  | brokenSettings
  /-- A span of time does not fit. The program then stops at once and says nothing. -/
  | spanOverflow
deriving DecidableEq, Repr

namespace AuditError

def message : AuditError → String
  | package fault => fault.message
  | invalidId text => "Invalid extension ID '" ++ text ++ "': must be 32 alphanumeric characters"
  | brokenRecord => "Store error"
  | missingId => "Configuration error: using the result store requires an extension ID"
  | negativeAge hours => "Configuration error: store.max_age_hours must not be negative (got " ++
      Int.repr hours ++ ")"
  | files => "IO error"
  | brokenDetails => "JSON error"
  | brokenSettings => "TOML parse error"
  | spanOverflow => ""

end AuditError

end ExtensionAudit
