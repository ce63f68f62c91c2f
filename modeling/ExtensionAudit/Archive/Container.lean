import ExtensionAudit.Archive.Error
import ExtensionAudit.Bytes

namespace ExtensionAudit.Container

/-- The bytes `Cr24`. -/
def mark : List UInt8 := [0x43, 0x72, 0x32, 0x34]

/-- The size of mark, version and header size. -/
def fixedSize : Nat := 12

structure Header where
  version : Nat
  headerSize : Nat
deriving DecidableEq, Repr

def Header.payloadOffset (header : Header) : Nat :=
  fixedSize + header.headerSize

def isContainer (raw : ByteArray) : Bool :=
  Bytes.window raw 0 4 == mark

/-- The header of a container; nothing for a bare archive. -/
def header? (raw : ByteArray) : Except ArchiveError (Option Header) :=
  if !isContainer raw then .ok none
  else if raw.size < fixedSize then .error (.headerTruncated raw.size)
  else .ok (some {
    version := Bytes.littleEndian (Bytes.window raw 4 4)
    headerSize := Bytes.littleEndian (Bytes.window raw 8 4) })

/-- The archive in a package. The signed header before it is skipped unread. -/
def payload (raw : ByteArray) : Except ArchiveError ByteArray :=
  match header? raw with
  | .error fault => .error fault
  | .ok none => .ok raw
  | .ok (some header) =>
    if raw.size < header.payloadOffset then
      .error (.headerPastEnd header.headerSize raw.size)
    else .ok (raw.extract header.payloadOffset raw.size)

/-- A package with the given version, signed header and archive. -/
def wrap (version : Nat) (header archive : List UInt8) : List UInt8 :=
  mark ++ Bytes.littleEndianOf 4 version ++ Bytes.littleEndianOf 4 header.length ++ header ++
    archive

end ExtensionAudit.Container
