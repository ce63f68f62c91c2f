import ExtensionAudit.Archive.Entry

namespace ExtensionAudit

/-- Where the records are, and how many are declared. -/
structure DirectoryPlace where
  /-- The number of bytes in front of the archive. -/
  archiveOffset : Nat
  start : Nat
  count : Nat
deriving DecidableEq, Repr

/-- The directory that the opener read: the declared records, each with the entry that it means. -/
structure Directory where
  place : DirectoryPlace
  records : List (CentralRecord × Entry)
deriving DecidableEq

namespace Directory

def numberAt (archive : ByteArray) (start length : Nat) : Nat :=
  Bytes.littleEndian (Bytes.window archive start length)

def hasSignature (archive : ByteArray) (signature : List UInt8) (start : Nat) : Bool :=
  Bytes.window archive start 4 == signature

def endSignature : List UInt8 := [0x50, 0x4B, 0x05, 0x06]

def wideEndSignature : List UInt8 := [0x50, 0x4B, 0x06, 0x06]

def locatorSignature : List UInt8 := [0x50, 0x4B, 0x06, 0x07]

/-- The first of `count` offsets from `start` on that holds. -/
def firstFrom? (holds : Nat → Bool) : Nat → Nat → Option Nat
  | 0, _ => none
  | count + 1, start => if holds start then some start else firstFrom? holds count (start + 1)

/-- The offset of the first record from `start` on, before `stop`. -/
def firstRecord? (archive : ByteArray) (start stop : Nat) : Option Nat :=
  firstFrom? (hasSignature archive CentralRecord.signature) (stop - start) start

def endSize : Nat := 22

def locatorSize : Nat := 20

/-- Whether an end record with its whole comment stands at an offset. -/
def isEndRecord (archive : ByteArray) (offset : Nat) : Bool :=
  hasSignature archive endSignature offset &&
    offset + endSize + numberAt archive (offset + 20) 2 ≤ archive.size

/-- Whether the end record leaves number or offset to a 64-bit one. -/
def isWide (archive : ByteArray) (offset : Nat) : Bool :=
  (numberAt archive (offset + 10) 2 == 0xFFFF || numberAt archive (offset + 16) 4 == 0xFFFFFFFF) &&
    locatorSize ≤ offset && hasSignature archive locatorSignature (offset - locatorSize)

/-- The place that an end record names. In an archive without entries nothing has to stand there;
else the first record at or behind the named offset begins the directory. -/
def place? (archive : ByteArray) (offset : Nat) : Option DirectoryPlace :=
  let count := numberAt archive (offset + 8) 2
  let named := numberAt archive (offset + 16) 4
  if numberAt archive (offset + 4) 2 ≠ numberAt archive (offset + 6) 2 then none
  else if numberAt archive (offset + 10) 2 = 0 then
    let archiveOffset := offset - named
    some ⟨archiveOffset, named + archiveOffset, count⟩
  else
    (firstRecord? archive named offset).map fun start => ⟨start - named, start, count⟩

/-- Whether the 64-bit end record at an offset fits the locator. -/
def fitsLocator (archive : ByteArray) (locator offset : Nat) : Bool :=
  let size := numberAt archive (offset + 4) 8
  hasSignature archive wideEndSignature offset && 44 ≤ size && size + 12 == locator - offset &&
    numberAt archive (offset + 20) 4 == numberAt archive (locator + 4) 4 &&
    46 * numberAt archive (offset + 32) 8 + numberAt archive (offset + 48) 8 ≤ offset

def widePlace? (archive : ByteArray) (offset : Nat) : Option DirectoryPlace :=
  let locator := offset - locatorSize
  let named := numberAt archive (locator + 8) 8
  if 1 < numberAt archive (locator + 16) 4 then none
  else
    match firstFrom? (fitsLocator archive locator) (locator - named) named with
    | none => none
    | some wide =>
      let archiveOffset := wide - named
      let count := numberAt archive (wide + 32) 8
      if count < numberAt archive (wide + 24) 8 then none
      else if numberAt archive (wide + 16) 4 ≠ numberAt archive (wide + 20) 4 then none
      else some ⟨archiveOffset, numberAt archive (wide + 48) 8 + archiveOffset, count⟩

/-- Reads the declared number of records, all of them whole, with their entries. -/
def readRecords? (archiveOffset : Nat) : Nat → List UInt8 → Option (List (CentralRecord × Entry))
  | 0, _ => some []
  | count + 1, bytes =>
    if CentralRecord.startsRecord bytes && CentralRecord.sizeAt bytes ≤ bytes.length then
      let record := CentralRecord.ofBytes bytes
      match Entry.ofRecord? archiveOffset record with
      | none => none
      | some entry =>
        (readRecords? archiveOffset count (bytes.drop (CentralRecord.sizeAt bytes))).map
          ((record, entry) :: ·)
    else none

def ofEndRecord? (archive : ByteArray) (offset : Nat) : Option Directory :=
  if isEndRecord archive offset then
    let place? := if isWide archive offset then widePlace? archive offset else place? archive offset
    match place? with
    | none => none
    | some place =>
      (readRecords? place.archiveOffset place.count (Bytes.suffix archive place.start)).map
        fun records => ⟨place, records⟩
  else none

/-- The directory of the last usable end record before an offset. -/
def lastBefore? (archive : ByteArray) : Nat → Option Directory
  | 0 => none
  | offset + 1 =>
    match ofEndRecord? archive offset with
    | some directory => some directory
    | none => lastBefore? archive offset

def ofArchive? (archive : ByteArray) : Option Directory :=
  lastBefore? archive archive.size

/-- Puts an entry in the place of the one of its name, or last. -/
def placeEntry (e : Entry) : List Entry → List Entry
  | [] => [e]
  | old :: entries => if old.name = e.name then e :: entries else old :: placeEntry e entries

/-- The entries by name: the first of a name sets the place, the last one the contents. -/
def entries (directory : Directory) : List Entry :=
  directory.records.foldl (fun index (_, e) => placeEntry e index) []

end Directory

end ExtensionAudit
