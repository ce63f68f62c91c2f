namespace ExtensionAudit.Inflate

inductive Fault where
  | broken
  | tooLong
deriving DecidableEq, Repr

/-- The bit at a position; bits are taken from the low end of each byte. -/
def bit? (data : ByteArray) (pos : Nat) : Option Nat :=
  if h : pos / 8 < data.size then some ((data[pos / 8].toNat >>> (pos % 8)) % 2) else none

/-- A number of `count` bits, the lowest first, and the position behind it. -/
def bits? (data : ByteArray) : Nat → Nat → Option (Nat × Nat)
  | 0, pos => some (0, pos)
  | count + 1, pos =>
    match bit? data pos with
    | none => none
    | some low =>
      match bits? data count (pos + 1) with
      | none => none
      | some (high, pos) => some (low + 2 * high, pos)

def longestWord : Nat := 15

/-- A canonical prefix code: how many words each length has, and the symbols in the order of their
words. -/
structure Code where
  counts : Array Nat
  symbols : Array Nat

/-- The words that remain free after the lengths from `length` on, of `free` words of the length
before; nothing when there are too many words. -/
def freeWords? (counts : Array Nat) : Nat → Nat → Nat → Option Nat
  | 0, _, free => some free
  | lengths + 1, length, free =>
    let taken := counts.getD length 0
    if taken ≤ 2 * free then freeWords? counts lengths (length + 1) (2 * free - taken) else none

def countLengths (lengths : List Nat) : Array Nat :=
  lengths.foldl (fun counts length => counts.modify length (· + 1))
    (Array.replicate (longestWord + 1) 0)

/-- The code in which symbol `i` has a word of `lengths[i]` bits, or none where that is zero. Every
word must be used, except that `lone` allows a code of at most one word. -/
def Code.ofLengths? (lone : Bool) (lengths : List Nat) : Option Code :=
  let counts := countLengths lengths
  let ordered := (List.range longestWord).flatMap fun n =>
    (lengths.zipIdx.filter fun (length, _) => length == n + 1).map (·.2)
  match freeWords? counts longestWord 1 1 with
  | none => none
  | some free =>
    let used := lengths.any (· != 0)
    let onlyShort := lengths.all (· ≤ 1)
    if free = 0 || !used || (lone && onlyShort) then some ⟨counts, ordered.toArray⟩ else none

/-- Reads a word bit by bit. `first` is the first word of the length read so far, and `index` the
place of its symbol. -/
def Code.decodeFrom? (code : Code) (data : ByteArray) :
    Nat → Nat → Nat → Nat → Nat → Nat → Option (Nat × Nat)
  | 0, _, _, _, _, _ => none
  | lengths + 1, length, word, first, index, pos =>
    match bit? data pos with
    | none => none
    | some b =>
      let word := word + b
      let count := code.counts.getD length 0
      if word < first + count then
        some (code.symbols.getD (index + (word - first)) 0, pos + 1)
      else
        code.decodeFrom? data lengths (length + 1) (2 * word) (2 * (first + count)) (index + count)
          (pos + 1)

def Code.decode? (code : Code) (data : ByteArray) (pos : Nat) : Option (Nat × Nat) :=
  code.decodeFrom? data longestWord 1 0 0 0 pos

/-- Least length and extra bits of the length symbols from 257 on. -/
def lengthSymbols : Array (Nat × Nat) :=
  #[(3, 0), (4, 0), (5, 0), (6, 0), (7, 0), (8, 0), (9, 0), (10, 0), (11, 1), (13, 1), (15, 1),
    (17, 1), (19, 2), (23, 2), (27, 2), (31, 2), (35, 3), (43, 3), (51, 3), (59, 3), (67, 4),
    (83, 4), (99, 4), (115, 4), (131, 5), (163, 5), (195, 5), (227, 5), (258, 0)]

/-- Least distance and extra bits of the distance symbols. -/
def distanceSymbols : Array (Nat × Nat) :=
  #[(1, 0), (2, 0), (3, 0), (4, 0), (5, 1), (7, 1), (9, 2), (13, 2), (17, 3), (25, 3), (33, 4),
    (49, 4), (65, 5), (97, 5), (129, 6), (193, 6), (257, 7), (385, 7), (513, 8), (769, 8),
    (1025, 9), (1537, 9), (2049, 10), (3073, 10), (4097, 11), (6145, 11), (8193, 12), (12289, 12),
    (16385, 13), (24577, 13)]

/-- The number that a symbol with extra bits stands for. -/
def extended? (symbols : Array (Nat × Nat)) (symbol : Nat) (data : ByteArray) (pos : Nat) :
    Option (Nat × Nat) :=
  match symbols[symbol]? with
  | none => none
  | some (least, extra) =>
    match bits? data extra pos with
    | none => none
    | some (more, pos) => some (least + more, pos)

/-- Appends the byte that stands `distance` before the end, `count` times. -/
def copy (distance : Nat) : Nat → ByteArray → ByteArray
  | 0, out => out
  | count + 1, out =>
    if h : out.size - distance < out.size then
      copy distance count (out.push out[out.size - distance])
    else out

/-- Reads the symbols of a block up to its end. Each step reads at least one bit. -/
def symbols (limit : Nat) (literals distances : Code) (data : ByteArray) :
    Nat → Nat → ByteArray → Except Fault (Nat × ByteArray)
  | 0, _, _ => .error .broken
  | fuel + 1, pos, out =>
    match literals.decode? data pos with
    | none => .error .broken
    | some (symbol, pos) =>
      if symbol < 256 then
        if limit ≤ out.size then .error .tooLong
        else symbols limit literals distances data fuel pos (out.push (UInt8.ofNat symbol))
      else if symbol = 256 then .ok (pos, out)
      else
        match extended? lengthSymbols (symbol - 257) data pos with
        | none => .error .broken
        | some (length, pos) =>
          match distances.decode? data pos with
          | none => .error .broken
          | some (symbol, pos) =>
            match extended? distanceSymbols symbol data pos with
            | none => .error .broken
            | some (distance, pos) =>
              if out.size < distance then .error .broken
              else if limit < out.size + length then .error .tooLong
              else symbols limit literals distances data fuel pos (copy distance length out)

def fixedLiteralLengths : List Nat :=
  List.replicate 144 8 ++ List.replicate 112 9 ++ List.replicate 24 7 ++ List.replicate 8 8

def fixedDistanceLengths : List Nat :=
  List.replicate 32 5

/-- The order in which the lengths of the code for code lengths are written. -/
def lengthOrder : List Nat :=
  [16, 17, 18, 0, 8, 7, 9, 6, 10, 5, 11, 4, 12, 3, 13, 2, 14, 1, 15]

def shortLengths? (data : ByteArray) : Nat → Nat → Option (List Nat × Nat)
  | 0, pos => some ([], pos)
  | count + 1, pos =>
    match bits? data 3 pos with
    | none => none
    | some (length, pos) =>
      (shortLengths? data count pos).map fun (more, pos) => (length :: more, pos)

/-- Reads code lengths until there are `total`; those read are in reverse order. Three symbols
repeat: the length before, or zero. -/
def codeLengths? (code : Code) (data : ByteArray) (total : Nat) :
    Nat → List Nat → Nat → Option (List Nat × Nat)
  | 0, _, _ => none
  | fuel + 1, lengths, pos =>
    if total ≤ lengths.length then
      if lengths.length = total then some (lengths.reverse, pos) else none
    else
      match code.decode? data pos with
      | none => none
      | some (symbol, pos) =>
        let again (length extra least : Nat) :=
          match bits? data extra pos with
          | none => none
          | some (more, pos) =>
            codeLengths? code data total fuel (List.replicate (least + more) length ++ lengths) pos
        if symbol < 16 then codeLengths? code data total fuel (symbol :: lengths) pos
        else if symbol = 16 then
          match lengths with
          | [] => none
          | length :: _ => again length 2 3
        else if symbol = 17 then again 0 3 3
        else again 0 7 11

/-- Reads the two codes at the start of a block that has codes of its own. -/
def readCodes? (data : ByteArray) (pos : Nat) : Option (Code × Code × Nat) := do
  let (literalCount, pos) ← bits? data 5 pos
  let (distanceCount, pos) ← bits? data 5 pos
  let (shortCount, pos) ← bits? data 4 pos
  let literalCount := literalCount + 257
  let distanceCount := distanceCount + 1
  if literalCount > 286 || distanceCount > 30 then none
  else
    let (short, pos) ← shortLengths? data (shortCount + 4) pos
    let placed := lengthOrder.zip short
    let code ← Code.ofLengths? false ((List.range 19).map fun n => (placed.lookup n).getD 0)
    let total := literalCount + distanceCount
    let (lengths, pos) ← codeLengths? code data total (total + 1) [] pos
    let (literalLengths, distanceLengths) := lengths.splitAt literalCount
    if literalLengths.getD 256 0 = 0 then none
    else
      let literals ← Code.ofLengths? true literalLengths
      let distances ← Code.ofLengths? true distanceLengths
      return (literals, distances, pos)

/-- Copies a stored block, whose bytes start at the next byte boundary. -/
def stored (limit : Nat) (data : ByteArray) (pos : Nat) (out : ByteArray) :
    Except Fault (Nat × ByteArray) :=
  let start := (pos + 7) / 8
  match bits? data 16 (8 * start), bits? data 16 (8 * start + 16) with
  | some (length, _), some (check, _) =>
    if length + check ≠ 0xFFFF then .error .broken
    else
      let found := data.extract (start + 4) (start + 4 + length)
      if limit < out.size + found.size then .error .tooLong
      else if found.size < length then .error .broken
      else .ok (8 * (start + 4 + length), out ++ found)
  | _, _ => .error .broken

/-- The fuel for the symbols of a block: one unit for each bit, and one for the end. -/
def symbolFuel (data : ByteArray) : Nat := 8 * data.size + 1

/-- Reads one block after its mark for the last block. -/
def block (limit : Nat) (data : ByteArray) (pos : Nat) (out : ByteArray) :
    Except Fault (Nat × ByteArray) :=
  match bits? data 2 pos with
  | some (0, pos) => stored limit data pos out
  | some (1, pos) =>
    match Code.ofLengths? false fixedLiteralLengths, Code.ofLengths? false fixedDistanceLengths with
    | some literals, some distances =>
      symbols limit literals distances data (symbolFuel data) pos out
    | _, _ => .error .broken
  | some (2, pos) =>
    match readCodes? data pos with
    | some (literals, distances, pos) =>
      symbols limit literals distances data (symbolFuel data) pos out
    | none => .error .broken
  | _ => .error .broken

/-- Reads blocks up to the last one, and ignores the bytes behind it. Data that end before their
last block does, also empty ones, are broken. -/
def blocks (limit : Nat) (data : ByteArray) : Nat → Nat → ByteArray → Except Fault ByteArray
  | 0, _, _ => .error .broken
  | fuel + 1, pos, out =>
    match bit? data pos with
    | none => .error .broken
    | some last =>
      match block limit data (pos + 1) out with
      | .error fault => .error fault
      | .ok (pos, out) => if last = 1 then .ok out else blocks limit data fuel pos out

end ExtensionAudit.Inflate

namespace ExtensionAudit

/-- The decompressed data, unless they have more than `limit` bytes. -/
def inflate (limit : Nat) (data : ByteArray) : Except Inflate.Fault ByteArray :=
  Inflate.blocks limit data (8 * data.size + 1) 0 ByteArray.empty

end ExtensionAudit
