import ExtensionAudit.Archive.CentralRecord
import ExtensionAudit.Archive.Checksum
import ExtensionAudit.Text.CodePage437
import ExtensionAudit.Text.Utf8

namespace ExtensionAudit

-- Powers and sums are those of the core library, whatever else is imported.
attribute [local instance (high)] instPowNat Zero.ofOfNat0

/-- What a central record means. Extra fields replace sizes and offset by 64-bit ones, the name by
one in Unicode, and the compression method by that of an encrypted entry. -/
structure Entry where
  name : String
  encrypted : Bool
  method : UInt16
  checksum : UInt32
  compressedSize : Nat
  uncompressedSize : Nat
  headerOffset : Nat
deriving DecidableEq, Repr

namespace Entry

def isDirectory (e : Entry) : Bool :=
  match e.name.toList.getLast? with
  | some c => c == '/' || c == '\\'
  | none => false

/-- The method of a stored and of a deflated entry, and the mark of an encrypted one. -/
def storedMethod : UInt16 := 0

def deflatedMethod : UInt16 := 8

def sealedMethod : UInt16 := 99

/-- The value of a field that a 64-bit extension replaces. -/
def placeholder : Nat := 0xFFFFFFFF

/-- An entry while its extra fields are read. -/
structure Draft where
  rawName : List UInt8
  name : String
  comment : String
  isSealed : Bool
  method : UInt16
  compressedSize : Nat
  uncompressedSize : Nat
  headerOffset : Nat

def number (bytes : List UInt8) (start length : Nat) : Nat :=
  Bytes.littleEndian ((bytes.drop start).take length)

/-- The 64-bit sizes and offset. Those that the record left open are present in order; all three
are when the field has room for them. -/
def Draft.extend? (d : Draft) (length : Nat) (content : List UInt8) : Option Draft :=
  let all := decide (24 ≤ length)
  let takeIf (needed : Bool) (old start : Nat) : Nat × Nat :=
    if needed then (number content start 8, start + 8) else (old, start)
  let (uncompressedSize, start) :=
    takeIf (all || d.uncompressedSize == placeholder) d.uncompressedSize 0
  let (compressedSize, start) :=
    takeIf (all || d.compressedSize == placeholder) d.compressedSize start
  let (headerOffset, start) := takeIf (all || d.headerOffset == placeholder) d.headerOffset start
  if start ≤ length then some { d with compressedSize, uncompressedSize, headerOffset } else none

/-- A Unicode text for a raw one, which a checksum names. -/
def unicodeText? (content : List UInt8) (raw : List UInt8) : Option (List UInt8) :=
  if content.length < 5 then none
  else if Checksum.ofBytes (Bytes.ofList raw) == UInt32.ofNat (number content 1 4) then
    some (content.drop 5)
  else none

def Draft.rename? (d : Draft) (content : List UInt8) : Option Draft := do
  let rawName ← unicodeText? content d.rawName
  let name ← String.fromUTF8? (Bytes.ofList rawName)
  return { d with rawName, name }

def Draft.recomment? (d : Draft) (content : List UInt8) : Option Draft := do
  let raw ← unicodeText? content (Bytes.toList d.comment.toUTF8)
  let comment ← String.fromUTF8? (Bytes.ofList raw)
  return { d with comment }

/-- The sealing of an encrypted entry: version, maker, strength and the method beneath. -/
def Draft.seal? (d : Draft) (content : List UInt8) : Option Draft :=
  let version := number content 0 2
  let strength := number content 4 1
  if content.length = 7 ∧ (version = 1 ∨ version = 2) ∧ number content 2 2 = 0x4541 ∧
      1 ≤ strength ∧ strength ≤ 3 then
    some { d with isSealed := true, method := UInt16.ofNat (number content 5 2) }
  else none

/-- Whether the times of another file system have the one form they can have. -/
def validFileTimes (content : List UInt8) : Bool :=
  content.length == 32 && number content 4 2 == 1 && number content 6 2 == 24

/-- Whether a field of times has room for just the times that its flags announce, or for one. -/
def validTimes (content : List UInt8) : Bool :=
  match content with
  | [] => false
  | flags :: times =>
    let announced := ((List.range 8).map fun n => (flags.toNat >>> n) % 2).sum
    times.length == 4 || times.length == 4 * announced

/-- Takes up one extra field. Kinds that mean nothing here are passed over. -/
def Draft.field? (d : Draft) (kind length : Nat) (content : List UInt8) : Option Draft :=
  if content.length < length then none
  else if kind = 0x0001 then d.extend? length content
  else if kind = 0x000A then if validFileTimes content then some d else none
  else if kind = 0x5455 then if validTimes content then some d else none
  else if kind = 0x6375 then d.recomment? content
  else if kind = 0x7075 then d.rename? content
  else if kind = 0x9901 then d.seal? content
  else some d

/-- Takes up the extra fields one after the other. A single byte at the end is ignored. -/
def Draft.fields? (d : Draft) (extra : List UInt8) : Option Draft :=
  match extra with
  | [] => some d
  | [_] => some d
  | k0 :: k1 :: l0 :: l1 :: rest =>
    let length := Bytes.littleEndian [l0, l1]
    match d.field? (Bytes.littleEndian [k0, k1]) length (rest.take length) with
    | none => none
    | some d => d.fields? (rest.drop length)
  | _ => none
termination_by extra.length
decreasing_by simp only [List.length_drop, List.length_cons]; omega

/-- A text in Unicode or in the old code page. -/
def decodeText (unicode : Bool) (bytes : List UInt8) : String :=
  if unicode then Text.decodeLossy bytes else Text.decodeCodePage437 bytes

/-- The entry of a record, in an archive that begins `archiveOffset` bytes late. -/
def ofRecord? (archiveOffset : Nat) (r : CentralRecord) : Option Entry :=
  let flags := r.flags.toNat
  let unicode := (flags >>> 11) % 2 == 1
  let draft : Draft := {
    rawName := r.name
    name := decodeText unicode r.name
    comment := decodeText unicode r.comment
    isSealed := false
    method := r.method
    compressedSize := r.compressedSize.toNat
    uncompressedSize := r.uncompressedSize.toNat
    headerOffset := r.localOffset.toNat }
  match draft.fields? r.extra with
  | none => none
  | some draft =>
    let headerOffset := draft.headerOffset + archiveOffset
    if draft.method == sealedMethod && !draft.isSealed then none
    else if 2 ^ (64 : Nat) ≤ headerOffset then none
    else some {
      name := draft.name
      encrypted := flags % 2 == 1 || draft.isSealed
      method := draft.method
      checksum := r.checksum
      compressedSize := draft.compressedSize
      uncompressedSize := draft.uncompressedSize
      headerOffset }

end Entry

end ExtensionAudit
