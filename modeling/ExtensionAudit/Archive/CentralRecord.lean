import ExtensionAudit.Bytes

namespace ExtensionAudit

/-- A record of a central directory: 46 bytes of fixed fields, a name, extra fields and a comment.
-/
structure CentralRecord where
  versionMadeBy : UInt16
  versionNeeded : UInt16
  flags : UInt16
  method : UInt16
  time : UInt16
  date : UInt16
  checksum : UInt32
  compressedSize : UInt32
  uncompressedSize : UInt32
  disk : UInt16
  internalAttributes : UInt16
  externalAttributes : UInt32
  localOffset : UInt32
  name : List UInt8
  extra : List UInt8
  comment : List UInt8
deriving DecidableEq, Repr

namespace CentralRecord

def signature : List UInt8 := [0x50, 0x4B, 0x01, 0x02]

def fixedSize : Nat := 46

def word16 (bytes : List UInt8) (start : Nat) : UInt16 :=
  UInt16.ofNat (Bytes.littleEndian ((bytes.drop start).take 2))

def word32 (bytes : List UInt8) (start : Nat) : UInt32 :=
  UInt32.ofNat (Bytes.littleEndian ((bytes.drop start).take 4))

def startsRecord (bytes : List UInt8) : Bool :=
  fixedSize ≤ bytes.length && bytes.take 4 == signature

def nameLength (bytes : List UInt8) : Nat := (word16 bytes 28).toNat

def extraLength (bytes : List UInt8) : Nat := (word16 bytes 30).toNat

def commentLength (bytes : List UInt8) : Nat := (word16 bytes 32).toNat

def sizeAt (bytes : List UInt8) : Nat :=
  fixedSize + nameLength bytes + extraLength bytes + commentLength bytes

/-- The record at the start of the bytes; extra fields and comment end with the bytes. -/
def ofBytes (bytes : List UInt8) : CentralRecord :=
  let names := bytes.drop fixedSize
  let extras := names.drop (nameLength bytes)
  { versionMadeBy := word16 bytes 4
    versionNeeded := word16 bytes 6
    flags := word16 bytes 8
    method := word16 bytes 10
    time := word16 bytes 12
    date := word16 bytes 14
    checksum := word32 bytes 16
    compressedSize := word32 bytes 20
    uncompressedSize := word32 bytes 24
    disk := word16 bytes 34
    internalAttributes := word16 bytes 36
    externalAttributes := word32 bytes 38
    localOffset := word32 bytes 42
    name := names.take (nameLength bytes)
    extra := extras.take (extraLength bytes)
    comment := (extras.drop (extraLength bytes)).take (commentLength bytes) }

def bytes16 (n : UInt16) : List UInt8 := Bytes.littleEndianOf 2 n.toNat

def bytes32 (n : UInt32) : List UInt8 := Bytes.littleEndianOf 4 n.toNat

/-- The bytes of a record whose name, extra fields and comment are shorter than `2 ^ 16`. -/
def encode (r : CentralRecord) : List UInt8 :=
  signature ++ bytes16 r.versionMadeBy ++ bytes16 r.versionNeeded ++ bytes16 r.flags ++
    bytes16 r.method ++ bytes16 r.time ++ bytes16 r.date ++ bytes32 r.checksum ++
    bytes32 r.compressedSize ++ bytes32 r.uncompressedSize ++
    Bytes.littleEndianOf 2 r.name.length ++ Bytes.littleEndianOf 2 r.extra.length ++
    Bytes.littleEndianOf 2 r.comment.length ++ bytes16 r.disk ++ bytes16 r.internalAttributes ++
    bytes32 r.externalAttributes ++ bytes32 r.localOffset ++ r.name ++ r.extra ++ r.comment

def isDirectory (r : CentralRecord) : Bool :=
  r.name.getLast? == some '/'.toUInt8

/-- Whether a field is left to a 64-bit extension. -/
def isExtended (r : CentralRecord) : Bool :=
  r.compressedSize == 0xFFFFFFFF || r.uncompressedSize == 0xFFFFFFFF ||
    r.localOffset == 0xFFFFFFFF

theorem length_drop_sizeAt {bytes : List UInt8} (starts : startsRecord bytes = true) :
    (bytes.drop (sizeAt bytes)).length < bytes.length := by
  have room : fixedSize ≤ bytes.length :=
    of_decide_eq_true (Bool.and_eq_true_iff.mp starts).1
  have positive : 0 < sizeAt bytes := by simp only [sizeAt, fixedSize]; omega
  simp only [fixedSize] at room
  rw [List.length_drop]
  omega

/-- The records up to the first bytes that are none. A name that is cut off spoils the walk; extra
fields and comments may be cut off. -/
def walk (bytes : List UInt8) : Option (List CentralRecord) :=
  if _starts : startsRecord bytes then
    if bytes.length < fixedSize + nameLength bytes then none
    else (walk (bytes.drop (sizeAt bytes))).map (ofBytes bytes :: ·)
  else some []
termination_by bytes.length
decreasing_by exact length_drop_sizeAt _starts

def walkFrom (archive : ByteArray) (start : Nat) : Option (List CentralRecord) :=
  walk (Bytes.suffix archive start)

end CentralRecord

end ExtensionAudit
