import ExtensionAudit.Proofs.Archive.Deflated
import ExtensionAudit.Proofs.Archive.Paths

namespace ExtensionAudit

-- Powers are those of the core library, whatever else is imported.
attribute [local instance (high)] instPowNat

/-- What compressed data decompress to, however much it is. Stored data are their own content. -/
inductive Decompresses : Bool → ByteArray → ByteArray → Prop
  | stored {data : ByteArray} : Decompresses false data data
  | deflated {data out : ByteArray} (deflates : Deflates out data) : Decompresses true data out

variable {deflated : Bool} {data out other : ByteArray}

theorem Decompresses.unique (one : Decompresses deflated data out)
    (two : Decompresses deflated data other) : out = other := by
  cases one with
  | stored =>
    cases two
    rfl
  | deflated first =>
    cases two with
    | deflated second => exact first.unique second

namespace Archive

variable {a : Archive} {e : Entry} {r : CentralRecord} {content : ByteArray}

inductive Request where
  | named (path : String)
  | firstNamed (path : String)
  | numbered (index : Nat)

/-- The content that a request is answered with. -/
def answer (a : Archive) : Request → Except ArchiveError (Option ByteArray)
  | .named path => a.read path
  | .firstNamed path => a.readFirst path
  | .numbered index => (a.readIndex index).map (Option.map Content.bytes)

/-- What is asked for: an entry of the index, or a record that is read past it. -/
inductive Target where
  | entry (e : Entry)
  | record (r : CentralRecord)

namespace Target

def isDirectory : Target → Bool
  | entry e => e.isDirectory
  | record r => r.isDirectory

def declaredSize : Target → Nat
  | entry e => e.uncompressedSize
  | record r => r.uncompressedSize.toNat

end Target

/-- The data of a record that is read past the index, and whether they are deflated. -/
def openRecord (a : Archive) (r : CentralRecord) : Except EntryFault (Bool × ByteArray) :=
  let offset := a.directory.place.archiveOffset + r.localOffset.toNat
  if r.isExtended then .error .extended
  else if a.bytes.size < offset + localSize then .error .lostHeader
  else if !hasLocalHeader a.bytes offset then .error (.noHeaderAt offset)
  else if r.method ≠ Entry.storedMethod ∧ r.method ≠ Entry.deflatedMethod then
    .error (.methodOf r.method.toNat)
  else
    let start := dataStart a.bytes offset
    .ok (r.method == Entry.deflatedMethod,
      a.bytes.extract start (start + r.compressedSize.toNat))

def opened (a : Archive) : Target → Except EntryFault (Bool × ByteArray)
  | .entry e => openEntry a.bytes e
  | .record r => a.openRecord r

/-- The stream of a file that can be opened: what its compressed data decompress to, as far as the
archive has them. -/
def Streams (a : Archive) (target : Target) (stream : ByteArray) : Prop :=
  ∃ deflated data, a.opened target = .ok (deflated, data) ∧ Decompresses deflated data stream

variable {target : Target} {request : Request} {stream : ByteArray}

theorem Streams.unique (one : a.Streams target stream) (two : a.Streams target content) :
    stream = content := by
  obtain ⟨deflated, data, opened, decompresses⟩ := one
  obtain ⟨_, _, openedToo, decompressesToo⟩ := two
  cases Except.ok.inj (opened.symm.trans openedToo)
  exact decompresses.unique decompressesToo

section Lone

variable {rawName : List UInt8} {declared : UInt32} {count : Nat}

end Lone

end Archive

end ExtensionAudit
