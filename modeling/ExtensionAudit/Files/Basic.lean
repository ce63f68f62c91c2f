import ExtensionAudit.AuditError

namespace ExtensionAudit

/-- Access to files. An operation that the system refuses answers with nothing or `false`. -/
class MonadFiles (m : Type → Type) where
  pathExists : String → m Bool
  read : String → m (Option ByteArray)
  /-- Writes a file in place of the one that is there. -/
  write : String → ByteArray → m Bool
  /-- Makes a directory, with those around it that are missing. -/
  createDirectories : String → m Bool
  /-- Gives a file another path, in place of the file that is there. -/
  rename : String → String → m Bool
  fileNames : String → m (List String)

namespace Files

variable {m : Type → Type} [Monad m] [MonadFiles m]

def readBytes (path : String) : ExceptT AuditError m ByteArray := do
  match ← (MonadFiles.read path : m (Option ByteArray)) with
  | some bytes => return bytes
  | none => throw .files

def readText (path : String) : ExceptT AuditError m String := do
  match String.fromUTF8? (← readBytes path) with
  | some text => return text
  | none => throw .files

/-- Fails if an operation was refused. -/
def demand (operation : m Bool) : ExceptT AuditError m Unit := do
  unless ← operation do throw .files

def writeText (path text : String) : ExceptT AuditError m Unit :=
  demand (MonadFiles.write path text.toUTF8)

/-- The bytes of a text are read as the text. -/
theorem fromUTF8?_toUTF8 (text : String) : String.fromUTF8? text.toUTF8 = some text := by
  have valid : text.toUTF8.IsValidUTF8 := text.isValidUTF8
  rw [String.fromUTF8?, dif_pos valid]
  rfl

end Files

end ExtensionAudit
