namespace ExtensionAudit.Text

/-- What a lead byte announces: how many bytes follow, the range of the first of them, and the bits
that the lead byte itself contributes. -/
structure Utf8Lead where
  following : Nat
  low : UInt8
  high : UInt8
  bits : Nat

def Utf8Lead.ofByte? (b : UInt8) : Option Utf8Lead :=
  let n := b.toNat
  if n < 0x80 then some ⟨0, 0, 0, n⟩
  else if n < 0xC2 then none
  else if n < 0xE0 then some ⟨1, 0x80, 0xBF, n - 0xC0⟩
  else if n = 0xE0 then some ⟨2, 0xA0, 0xBF, 0⟩
  else if n = 0xED then some ⟨2, 0x80, 0x9F, 0xD⟩
  else if n < 0xF0 then some ⟨2, 0x80, 0xBF, n - 0xE0⟩
  else if n = 0xF0 then some ⟨3, 0x90, 0xBF, 0⟩
  else if n < 0xF4 then some ⟨3, 0x80, 0xBF, n - 0xF0⟩
  else if n = 0xF4 then some ⟨3, 0x80, 0x8F, 4⟩
  else none

def replacement : Char := '\uFFFD'

/-- Reads the bytes that follow a lead byte; the first of them lies in a range of its own. -/
def readFollowing : Nat → UInt8 → UInt8 → Nat → List UInt8 → Char × List UInt8
  | 0, _, _, bits, rest => (Char.ofNat bits, rest)
  | _ + 1, _, _, _, [] => (replacement, [])
  | more + 1, low, high, bits, b :: rest =>
    if low ≤ b && b ≤ high then
      readFollowing more 0x80 0xBF (bits * 64 + (b.toNat - 0x80)) rest
    else (replacement, b :: rest)

theorem length_readFollowing (count : Nat) (low high : UInt8) (bits : Nat) (rest : List UInt8) :
    (readFollowing count low high bits rest).2.length ≤ rest.length := by
  fun_induction readFollowing count low high bits rest <;> simp_all
  omega

/-- Of a broken sequence the longest part that is well begun becomes one replacement character, and
decoding goes on with the byte after it. -/
def decodeLossyList : List UInt8 → List Char
  | [] => []
  | b :: rest =>
    match Utf8Lead.ofByte? b with
    | none => replacement :: decodeLossyList rest
    | some lead =>
      let next := readFollowing lead.following lead.low lead.high lead.bits rest
      next.1 :: decodeLossyList next.2
termination_by bytes => bytes.length
decreasing_by
  · simp
  · have := length_readFollowing lead.following lead.low lead.high lead.bits rest
    simp only [List.length_cons]
    omega

def decodeLossy (bytes : List UInt8) : String :=
  String.ofList (decodeLossyList bytes)

end ExtensionAudit.Text
