import ExtensionAudit.Bytes

namespace ExtensionAudit.Checksum

/-- The generator polynomial, lowest power in the highest bit. -/
def polynomial : UInt32 := 0xEDB88320

/-- Divides by the polynomial for a number of bits. -/
def steps : Nat → UInt32 → UInt32
  | 0, rest => rest
  | count + 1, rest =>
    steps count (if rest &&& 1 == 1 then (rest >>> 1) ^^^ polynomial else rest >>> 1)

def table : Array UInt32 :=
  (Array.range 256).map fun b => steps 8 (UInt32.ofNat b)

def push (rest : UInt32) (b : UInt8) : UInt32 :=
  table.getD ((rest ^^^ b.toUInt32) &&& 0xFF).toNat 0 ^^^ (rest >>> 8)

/-- The cyclic redundancy check of 32 bits that archives use. -/
def ofBytes (bytes : ByteArray) : UInt32 :=
  bytes.foldl push 0xFFFFFFFF ^^^ 0xFFFFFFFF

/-- The table holds eight divisions for each low byte. -/
theorem push_eq (rest : UInt32) (b : UInt8) :
    push rest b = steps 8 ((rest ^^^ b.toUInt32) &&& 0xFF) ^^^ (rest >>> 8) := by
  have small : ((rest ^^^ b.toUInt32) &&& 0xFF).toNat < 256 := by
    rw [UInt32.toNat_and]
    exact Nat.and_lt_two_pow (n := 8) _ (by decide)
  rw [push, table, Array.getD_eq_getD_getElem?, Array.getElem?_map, Array.getElem?_range,
    if_pos small, Option.map_some, Option.getD_some, UInt32.ofNat_toNat]

theorem ofBytes_eq (bytes : ByteArray) :
    ofBytes bytes = (Bytes.toList bytes).foldl
      (fun rest b => steps 8 ((rest ^^^ b.toUInt32) &&& 0xFF) ^^^ (rest >>> 8)) 0xFFFFFFFF ^^^
        0xFFFFFFFF := by
  rw [ofBytes, Bytes.foldl_eq, funext fun rest => funext (push_eq rest)]

end ExtensionAudit.Checksum
