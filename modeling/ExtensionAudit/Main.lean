import ExtensionAudit.CommandLine.Guid
import ExtensionAudit.CommandLine.Run
import ExtensionAudit.Time.Clock
import Std.Time.DateTime.Timestamp

open ExtensionAudit

def succeeded? {α : Type} (action : IO α) : IO (Option α) := do
  match ← action.toBaseIO with
  | .ok result => return some result
  | .error _ => return none

instance : MonadFiles IO where
  pathExists path := do
    if path.isEmpty then return false
    ((← IO.currentDir) / path).pathExists
  read path := succeeded? (IO.FS.readBinFile path)
  write path content := return (← succeeded? (IO.FS.writeBinFile path content)).isSome
  createDirectories path := do
    if path.isEmpty then return true
    else if Path.endsInPoint path then
      let outer := Path.parent path
      let made ← if outer.isEmpty then pure true
        else return (← succeeded? (IO.FS.createDirAll outer)).isSome
      return made && (← ((← IO.currentDir) / path).isDir)
    else return (← succeeded? (IO.FS.createDirAll path)).isSome
  rename source target := return (← succeeded? (IO.FS.rename source target)).isSome
  fileNames path := do
    let entries := (← succeeded? ((← IO.currentDir) / path).readDir).getD #[]
    let files ← entries.filterM fun entry => return !(← entry.path.isDir)
    return (files.map (·.fileName)).toList

def currentTime : IO Timestamp := do
  let nanos := (← Std.Time.Timestamp.now).toNanosecondsSinceUnixEpoch.val
  match Timestamp.ofUnixNanos? nanos with
  | some now => return now
  | none => throw (IO.userError "the clock is out of range")

def main (arguments : List String) : IO UInt32 := do
  let now ← currentTime
  let random ← IO.getRandomBytes 16
  let outcome ← CommandLine.run arguments ⟨now, CommandLine.guidText (Bytes.toList random)⟩
  for remark in outcome.remarks do
    IO.eprintln remark
  IO.print outcome.output
  (← IO.getStdout).flush
  return outcome.code.toUInt32
