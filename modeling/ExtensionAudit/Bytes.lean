namespace ExtensionAudit.Bytes

-- Powers are those of the core library, whatever else is imported.
attribute [local instance (high)] instPowNat

def toList (bytes : ByteArray) : List UInt8 :=
  bytes.data.toList

def ofList (bytes : List UInt8) : ByteArray :=
  ⟨bytes.toArray⟩

@[simp]
theorem toList_ofList (bytes : List UInt8) : toList (ofList bytes) = bytes := rfl

@[simp]
theorem ofList_toList (bytes : ByteArray) : ofList (toList bytes) = bytes := rfl

/-- At most `length` bytes from `start` on; fewer where the bytes end. -/
def window (bytes : ByteArray) (start length : Nat) : List UInt8 :=
  toList (bytes.extract start (start + length))

def suffix (bytes : ByteArray) (start : Nat) : List UInt8 :=
  toList (bytes.extract start bytes.size)

theorem length_toList (bytes : ByteArray) : (toList bytes).length = bytes.size := rfl

theorem toList_extract (bytes : ByteArray) (start stop : Nat) :
    toList (bytes.extract start stop) = ((toList bytes).drop start).take (stop - start) := by
  simp [toList, ByteArray.data_extract]

theorem window_eq (bytes : ByteArray) (start length : Nat) :
    window bytes start length = ((toList bytes).drop start).take length := by
  rw [window, toList_extract, Nat.add_sub_cancel_left]

theorem suffix_eq (bytes : ByteArray) (start : Nat) :
    suffix bytes start = (toList bytes).drop start := by
  have size : ((toList bytes).drop start).length = bytes.size - start := by
    rw [List.length_drop, length_toList]
  rw [suffix, toList_extract, List.take_of_length_le (Nat.le_of_eq size)]

theorem foldl_eq {β : Type} (f : β → UInt8 → β) (start : β) (bytes : ByteArray) :
    bytes.foldl f start = (toList bytes).foldl f start := by
  -- The loop counts down while the position goes up to the size.
  have run (count pos : Nat) (b : β) (inside : pos + count = bytes.size) :
      (ByteArray.foldlM.loop (m := Id) (fun b x => pure (f b x)) bytes bytes.size (Nat.le_refl _)
        count pos b).run = ((toList bytes).drop pos).foldl f b := by
    induction count generalizing pos b with
    | zero =>
      have done : (toList bytes).length ≤ pos := by rw [length_toList]; omega
      unfold ByteArray.foldlM.loop
      rw [dif_neg (by omega), List.drop_eq_nil_of_le done]
      rfl
    | succ count ih =>
      have here : pos < (toList bytes).length := by rw [length_toList]; omega
      unfold ByteArray.foldlM.loop
      rw [dif_pos (by omega), List.drop_eq_getElem_cons here, List.foldl_cons]
      exact ih (pos + 1) _ (by omega)
  unfold ByteArray.foldl ByteArray.foldlM
  rw [dif_pos (Nat.le_refl _)]
  exact run _ 0 start (by omega)

/-- The number whose digits to the base 256 are the bytes, the lowest first. -/
def littleEndian : List UInt8 → Nat
  | [] => 0
  | b :: rest => b.toNat + 256 * littleEndian rest

/-- The digits to the base 256 of a number, the lowest first. -/
def littleEndianOf : Nat → Nat → List UInt8
  | 0, _ => []
  | count + 1, n => UInt8.ofNat (n % 256) :: littleEndianOf count (n / 256)

theorem length_littleEndianOf (count n : Nat) : (littleEndianOf count n).length = count := by
  induction count generalizing n with
  | zero => rfl
  | succ count ih => simp [littleEndianOf, ih]

theorem littleEndian_littleEndianOf (count n : Nat) :
    littleEndian (littleEndianOf count n) = n % 256 ^ count := by
  induction count generalizing n with
  | zero => simp [littleEndianOf, littleEndian, Nat.mod_one]
  | succ count ih =>
    have digit : (UInt8.ofNat (n % 256)).toNat = n % 256 := by simp
    rw [littleEndianOf, littleEndian, ih, digit, Nat.pow_succ', Nat.mod_mul]

theorem littleEndian_lt (bytes : List UInt8) : littleEndian bytes < 256 ^ bytes.length := by
  induction bytes with
  | nil => simp [littleEndian]
  | cons b rest ih =>
    have := b.toNat_lt
    simp only [littleEndian, List.length_cons, Nat.pow_succ]
    omega

/-- Bytes are the digits of the number that is read from them. -/
theorem littleEndianOf_littleEndian (bytes : List UInt8) :
    littleEndianOf bytes.length (littleEndian bytes) = bytes := by
  induction bytes with
  | nil => rfl
  | cons b rest ih =>
    have digit : (b.toNat + 256 * littleEndian rest) % 256 = b.toNat := by
      have := b.toNat_lt
      omega
    have digits : (b.toNat + 256 * littleEndian rest) / 256 = littleEndian rest := by
      have := b.toNat_lt
      omega
    rw [List.length_cons, littleEndian, littleEndianOf, digit, digits, ih, UInt8.ofNat_toNat]

def hexChar (n : Nat) : Char :=
  if n < 10 then Char.ofNat ('0'.toNat + n) else Char.ofNat ('a'.toNat + (n - 10))

/-- Two hexadecimal digits for each byte. -/
def hexText (bytes : List UInt8) : String :=
  String.ofList (bytes.flatMap fun b => [hexChar (b.toNat / 16), hexChar (b.toNat % 16)])

end ExtensionAudit.Bytes
