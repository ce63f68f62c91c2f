import ExtensionAudit.Archive.Container
import ExtensionAudit.Archive.Directory
import ExtensionAudit.Archive.Inflate

namespace ExtensionAudit

-- Bytes are compared as in the core library, whatever else is imported.
attribute [local instance (high)] ByteArray.instDecidableEq

/-- A package that is opened for reading. -/
structure Archive where
  bytes : ByteArray
  directory : Directory
  entries : List Entry
deriving DecidableEq

/-- The content of an entry with its name. -/
structure Content where
  path : String
  bytes : ByteArray

namespace Archive

/-- Opens a package, in a container or bare. -/
def ofPackage (raw : ByteArray) : Except ArchiveError Archive :=
  match Container.payload raw with
  | .error fault => .error fault
  | .ok bytes =>
    match Directory.ofArchive? bytes with
    | none => .error .notAnArchive
    | some directory => .ok ⟨bytes, directory, directory.entries⟩

/-- The number of entries, directories included. -/
def size (a : Archive) : Nat := a.entries.length

def isEmpty (a : Archive) : Bool := a.entries.isEmpty

def localSignature : List UInt8 := [0x50, 0x4B, 0x03, 0x04]

def localSize : Nat := 30

def dataStart (bytes : ByteArray) (offset : Nat) : Nat :=
  offset + localSize + Directory.numberAt bytes (offset + 26) 2 +
    Directory.numberAt bytes (offset + 28) 2

def hasLocalHeader (bytes : ByteArray) (offset : Nat) : Bool :=
  offset + localSize ≤ bytes.size && Directory.hasSignature bytes localSignature offset

/-- The content behind compressed data that are whole: at most the largest size of an entry. -/
def decompress (deflated : Bool) (data : ByteArray) : Except EntryFault ByteArray :=
  if deflated then
    match inflate largestEntry data with
    | .ok out => .ok out
    | .error .broken => .error .brokenData
    | .error .tooLong => .error .actualSize
  else if largestEntry < data.size then .error .actualSize
  else .ok data

/-- Opens an entry: its compressed data, and whether they are deflated. -/
def openEntry (bytes : ByteArray) (e : Entry) : Except EntryFault (Bool × ByteArray) :=
  if e.encrypted then .error .encrypted
  else if !hasLocalHeader bytes e.headerOffset then .error .lostHeader
  else if e.method ≠ Entry.storedMethod ∧ e.method ≠ Entry.deflatedMethod then
    .error .foreignMethod
  else
    let start := dataStart bytes e.headerOffset
    .ok (e.method == Entry.deflatedMethod, bytes.extract start (start + e.compressedSize))

/-- The content of an opened entry, with its checksum confirmed. -/
def readOpened (e : Entry) (deflated : Bool) (data : ByteArray) : Except EntryFault ByteArray :=
  if largestEntry < e.uncompressedSize then .error (.declaredSize e.uncompressedSize)
  else
    match decompress deflated data with
    | .error fault => .error fault
    | .ok content =>
      if Checksum.ofBytes content == e.checksum then .ok content else .error .wrongChecksum

/-- The content of the entry of a name; nothing if there is none or it is a directory. -/
def read (a : Archive) (path : String) : Except ArchiveError (Option ByteArray) :=
  match a.entries.find? (·.name == path) with
  | none => .ok none
  | some e =>
    match openEntry a.bytes e with
    | .error fault => .error (.unreadable (.named path) fault)
    | .ok (deflated, data) =>
      if e.isDirectory then .ok none
      else
        match readOpened e deflated data with
        | .error fault => .error (.unreadable (.named path) fault)
        | .ok content => .ok (some content)

/-- The content of the entry of an index; nothing if it is a directory. An entry that cannot be
opened is named by its index, one that cannot be read by its name. -/
def readIndex (a : Archive) (index : Nat) : Except ArchiveError (Option Content) :=
  match a.entries[index]? with
  | none => .error (.unreadable (.numbered index) .absent)
  | some e =>
    match openEntry a.bytes e with
    | .error fault => .error (.unreadable (.numbered index) fault)
    | .ok (deflated, data) =>
      if e.isDirectory then .ok none
      else
        match readOpened e deflated data with
        | .error fault => .error (.unreadable (.named e.name) fault)
        | .ok content => .ok (some ⟨e.name, content⟩)

/-- The content that a record of the walk leads to, past the index: neither encryption nor checksum
is looked at. -/
def readRecord (a : Archive) (r : CentralRecord) : Except EntryFault ByteArray :=
  if r.isExtended then .error .extended
  else
    let offset := a.directory.place.archiveOffset + r.localOffset.toNat
    if a.bytes.size < offset + localSize then .error .lostHeader
    else if !hasLocalHeader a.bytes offset then .error (.noHeaderAt offset)
    else if r.method ≠ Entry.storedMethod ∧ r.method ≠ Entry.deflatedMethod then
      .error (.methodOf r.method.toNat)
    else if largestEntry < r.uncompressedSize.toNat then
      .error (.declaredSize r.uncompressedSize.toNat)
    else
      let start := dataStart a.bytes offset
      decompress (r.method == Entry.deflatedMethod)
        (a.bytes.extract start (start + r.compressedSize.toNat))

def recordsOf (a : Archive) (path : String) : List CentralRecord :=
  let name := Bytes.toList path.toUTF8
  match CentralRecord.walkFrom a.bytes a.directory.place.start with
  | none => []
  | some records => records.filter fun r => r.name == name && !r.isDirectory

/-- The content of the first file of a name in the order of the directory. The walk decides when it
finds several such files; else the index does. -/
def readFirst (a : Archive) (path : String) : Except ArchiveError (Option ByteArray) :=
  match a.recordsOf path with
  | first :: _ :: _ =>
    match a.readRecord first with
    | .error fault => .error (.unreadable (.named path) fault)
    | .ok content => .ok (some content)
  | _ => a.read path

end Archive

end ExtensionAudit
