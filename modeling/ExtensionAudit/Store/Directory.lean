import ExtensionAudit.Files.Basic
import ExtensionAudit.Files.Path
import ExtensionAudit.Store.Record

namespace ExtensionAudit

def Record.ofText? (text : String) : Option Record :=
  (Json.Syntax.ofText? text.toList).bind Json.decode?

def Record.text (record : Record) : String :=
  (Json.encode record).prettyText

/-- Records in a directory, one file for each extension. -/
structure RecordStore where
  directory : String

namespace RecordStore

def fileExtension : String := ".json"

def fileName (id : ExtensionId) : String :=
  id.text ++ fileExtension

def path (store : RecordStore) (id : ExtensionId) : String :=
  Path.inside store.directory (fileName id)

/-- Where a record is written before it takes its place. -/
def draftPath (store : RecordStore) (id : ExtensionId) : String :=
  store.path id ++ ".tmp"

def isRecordName (name : String) : Bool :=
  Path.hasExtension fileExtension name

variable {m : Type → Type} [Monad m] [MonadFiles m]

def readRecord (path : String) : ExceptT AuditError m Record := do
  match Record.ofText? (← Files.readText path) with
  | some record => return record
  | none => throw .brokenRecord

def get (store : RecordStore) (id : ExtensionId) : ExceptT AuditError m (Option Record) := do
  if ← (MonadFiles.pathExists (store.path id) : m Bool) then
    return some (← readRecord (store.path id))
  else return none

/-- Keeps a record in place of the one that is there, and answers the record as it is kept. -/
def put (store : RecordStore) (record : Record) : ExceptT AuditError m Record := do
  Files.demand (MonadFiles.createDirectories store.directory)
  let kept := match ← store.get record.id with
    | some old => { record with createdAt := old.createdAt }
    | none => record
  Files.writeText (store.draftPath record.id) kept.text
  Files.demand (MonadFiles.rename (store.draftPath record.id) (store.path record.id))
  return kept

/-- The record in a file, if it can be read as one. -/
def readable? (path : String) : m (Option Record) := do
  return (← (readRecord path).run).toOption

/-- All records that can be read, in the order of their file names. -/
def all (store : RecordStore) : m (List Record) := do
  if ← MonadFiles.pathExists store.directory then
    let names := (← MonadFiles.fileNames store.directory).filter isRecordName
    let names := names.mergeSort fun a b => a ≤ b
    return (← names.mapM fun name => readable? (Path.inside store.directory name)).filterMap id
  else return []

/-- The record of an extension, if it may be served again. -/
def lookup (store : RecordStore) (freshness : Freshness) (id : ExtensionId) (now : Timestamp)
    (force : Bool) : ExceptT AuditError m (Option Record) := do
  return (← store.get id).filter fun record => freshness.reuses record now force

end RecordStore

end ExtensionAudit
