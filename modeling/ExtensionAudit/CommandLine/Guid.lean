import ExtensionAudit.Bytes

namespace ExtensionAudit.CommandLine

/-- Sixteen bytes in five groups of hexadecimal digits. Six of their bits say that all the others
are random. -/
def guidText (random : List UInt8) : String :=
  let marked := random.zipIdx.map fun (b, index) =>
    if index = 6 then b % 16 + 64 else if index = 8 then b % 64 + 128 else b
  let group (start count : Nat) := Bytes.hexText ((marked.drop start).take count)
  "-".intercalate [group 0 4, group 4 2, group 6 2, group 8 2, group 10 6]

end ExtensionAudit.CommandLine
