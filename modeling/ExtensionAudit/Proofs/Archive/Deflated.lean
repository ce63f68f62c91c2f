import ExtensionAudit.Archive.Inflate

namespace ExtensionAudit.Inflate

variable {data : ByteArray} {literals distances : Code} {pos next : Nat}

theorem lt_of_bit? {b : Nat} (read : bit? data pos = some b) : pos < 8 * data.size := by
  unfold bit? at read
  split at read
  · omega
  · exact nomatch read

theorem eq_of_bits? {count n : Nat} (read : bits? data count pos = some (n, next)) :
    next = pos + count := by
  fun_induction bits? data count pos generalizing n next with
  | case1 pos => cases Option.some.inj read; rfl
  | case2 => exact nomatch read
  | case3 => exact nomatch read
  | case4 pos count low _ high stop later ih =>
    cases Option.some.inj read
    have := ih later
    omega

/-- A word takes at least one bit. -/
theorem progress_of_decodeFrom? {code : Code} {lengths length word first index symbol : Nat}
    (read : code.decodeFrom? data lengths length word first index pos = some (symbol, next)) :
    pos < 8 * data.size ∧ pos < next := by
  induction lengths generalizing length word first index pos with
  | zero => exact nomatch read
  | succ lengths ih =>
    unfold Code.decodeFrom? at read
    cases bit : bit? data pos with
    | none => simp [bit] at read
    | some b =>
      have inside := lt_of_bit? bit
      simp only [bit] at read
      split at read
      · cases Option.some.inj read
        exact ⟨inside, Nat.lt_succ_self _⟩
      · exact ⟨inside, Nat.lt_of_succ_lt (ih read).2⟩

theorem progress_of_decode? {code : Code} {symbol : Nat}
    (read : code.decode? data pos = some (symbol, next)) : pos < 8 * data.size ∧ pos < next :=
  progress_of_decodeFrom? read

theorem le_of_extended? {table : Array (Nat × Nat)} {symbol n : Nat}
    (read : extended? table symbol data pos = some (n, next)) :
    pos ≤ next ∧ ∃ extra ∈ table, extra.1 ≤ n := by
  unfold extended? at read
  split at read
  · exact nomatch read
  · rename_i least extra listed
    split at read
    · exact nomatch read
    · rename_i more stop bits
      cases Option.some.inj read
      have := eq_of_bits? bits
      exact ⟨by omega, (least, extra), Array.mem_of_getElem? listed, Nat.le_add_right _ _⟩

theorem le_of_shortLengths? {count : Nat} {lengths : List Nat}
    (read : shortLengths? data count pos = some (lengths, next)) : pos ≤ next := by
  induction count generalizing pos lengths next with
  | zero =>
    cases Option.some.inj read
    exact Nat.le_refl _
  | succ count ih =>
    unfold shortLengths? at read
    split at read
    · exact nomatch read
    · rename_i stop bits
      obtain ⟨⟨more, last⟩, later, same⟩ := Option.map_eq_some_iff.mp read
      cases same
      have := eq_of_bits? bits
      have := ih later
      omega

theorem le_of_codeLengths? {code : Code} {total fuel : Nat} {lengths read : List Nat}
    (found : codeLengths? code data total fuel read pos = some (lengths, next)) : pos ≤ next := by
  induction fuel generalizing read pos with
  | zero => cases found
  | succ fuel ih =>
    unfold codeLengths? at found
    split at found
    · split at found
      · cases Option.some.inj found
        exact Nat.le_refl _
      · cases found
    · split at found
      · cases found
      · rename_i symbol behind decoded
        have moved := (progress_of_decode? decoded).2
        -- Each kind of repetition reads the bits of its count and goes on behind them.
        have again {lengths' : List Nat} {extra more stop : Nat}
            (bits : bits? data extra behind = some (more, stop))
            (found : codeLengths? code data total fuel lengths' stop = some (lengths, next)) :
            pos ≤ next := by
          have := eq_of_bits? bits
          have := ih found
          omega
        dsimp only at found
        split at found
        · have := ih found
          omega
        · split at found
          · split at found
            · cases found
            · split at found
              · cases found
              · rename_i bits
                exact again bits found
          · split at found
            · split at found
              · cases found
              · rename_i bits
                exact again bits found
            · split at found
              · cases found
              · rename_i bits
                exact again bits found

theorem le_of_readCodes? (read : readCodes? data pos = some (literals, distances, next)) :
    pos ≤ next := by
  unfold readCodes? at read
  obtain ⟨⟨literalCount, behindLiterals⟩, literalBits, read⟩ := Option.bind_eq_some_iff.mp read
  obtain ⟨⟨distanceCount, behindDistances⟩, distanceBits, read⟩ := Option.bind_eq_some_iff.mp read
  obtain ⟨⟨shortCount, behindShort⟩, shortBits, read⟩ := Option.bind_eq_some_iff.mp read
  dsimp only at read
  split at read
  · exact nomatch read
  · obtain ⟨⟨short, behindTable⟩, table, read⟩ := Option.bind_eq_some_iff.mp read
    obtain ⟨code, _, read⟩ := Option.bind_eq_some_iff.mp read
    obtain ⟨⟨lengths, behindLengths⟩, all, read⟩ := Option.bind_eq_some_iff.mp read
    dsimp only at read
    split at read
    · exact nomatch read
    · obtain ⟨literals, _, read⟩ := Option.bind_eq_some_iff.mp read
      obtain ⟨distances, _, read⟩ := Option.bind_eq_some_iff.mp read
      cases Option.some.inj read
      have := eq_of_bits? literalBits
      have := eq_of_bits? distanceBits
      have := eq_of_bits? shortBits
      have := le_of_shortLengths? table
      have := le_of_codeLengths? all
      omega

/-- What a word of a block means: its end, a byte, or a copy of bytes that stand some distance
before the end of the output. -/
inductive Token where
  | stop
  | byte (b : UInt8)
  | copied (distance length : Nat)

def token? (literals distances : Code) (data : ByteArray) (pos : Nat) : Option (Token × Nat) :=
  match literals.decode? data pos with
  | none => none
  | some (symbol, pos) =>
    if symbol < 256 then some (.byte (UInt8.ofNat symbol), pos)
    else if symbol = 256 then some (.stop, pos)
    else
      match extended? lengthSymbols (symbol - 257) data pos with
      | none => none
      | some (length, pos) =>
        match distances.decode? data pos with
        | none => none
        | some (symbol, pos) =>
          (extended? distanceSymbols symbol data pos).map fun (distance, pos) =>
            (.copied distance length, pos)

-- Lean compares `symbol - 257` by counting down.
set_option maxRecDepth 20000 in
/-- The symbols of a block are read token by token. -/
theorem symbols_succ (limit : Nat) (literals distances : Code) (data : ByteArray)
    (fuel pos : Nat) (out : ByteArray) :
    symbols limit literals distances data (fuel + 1) pos out =
      match token? literals distances data pos with
      | none => .error .broken
      | some (.stop, next) => .ok (next, out)
      | some (.byte b, next) =>
        if limit ≤ out.size then .error .tooLong
        else symbols limit literals distances data fuel next (out.push b)
      | some (.copied distance length, next) =>
        if out.size < distance then .error .broken
        else if limit < out.size + length then .error .tooLong
        else symbols limit literals distances data fuel next (copy distance length out) := by
  -- Written out, since the equation of the definition is too deep for Lean to derive.
  have unfolded : symbols limit literals distances data (fuel + 1) pos out =
      match literals.decode? data pos with
      | none => .error .broken
      | some (symbol, pos) =>
        if symbol < 256 then
          if limit ≤ out.size then .error .tooLong
          else symbols limit literals distances data fuel pos (out.push (UInt8.ofNat symbol))
        else if symbol = 256 then .ok (pos, out)
        else
          match extended? lengthSymbols (symbol - 257) data pos with
          | none => .error .broken
          | some (length, pos) =>
            match distances.decode? data pos with
            | none => .error .broken
            | some (symbol, pos) =>
              match extended? distanceSymbols symbol data pos with
              | none => .error .broken
              | some (distance, pos) =>
                if out.size < distance then .error .broken
                else if limit < out.size + length then .error .tooLong
                else symbols limit literals distances data fuel pos (copy distance length out) :=
    rfl
  rw [unfolded, token?]
  cases literals.decode? data pos with
  | none => rfl
  | some decoded =>
    obtain ⟨symbol, behind⟩ := decoded
    dsimp only
    by_cases isByte : symbol < 256
    · rw [if_pos isByte, if_pos isByte]
    · rw [if_neg isByte, if_neg isByte]
      by_cases isStop : symbol = 256
      · rw [if_pos isStop, if_pos isStop]
      · rw [if_neg isStop, if_neg isStop]
        cases extended? lengthSymbols (symbol - 257) data behind with
        | none => rfl
        | some read =>
          dsimp only
          cases distances.decode? data read.2 with
          | none => rfl
          | some code =>
            dsimp only
            cases extended? distanceSymbols code.1 data code.2 <;> rfl

theorem progress_of_token? {token : Token}
    (read : token? literals distances data pos = some (token, next)) :
    pos < 8 * data.size ∧ pos < next := by
  unfold token? at read
  split at read
  · exact nomatch read
  · rename_i symbol behind decoded
    obtain ⟨inside, moved⟩ := progress_of_decode? decoded
    refine ⟨inside, ?_⟩
    split at read
    · cases Option.some.inj read
      exact moved
    · split at read
      · cases Option.some.inj read
        exact moved
      · split at read
        · exact nomatch read
        · rename_i length behindLength readLength
          split at read
          · exact nomatch read
          · rename_i code behindCode decodedCode
            obtain ⟨⟨distance, stop⟩, readDistance, same⟩ := Option.map_eq_some_iff.mp read
            cases same
            have := (le_of_extended? readLength).1
            have := (progress_of_decode? decodedCode).2
            have := (le_of_extended? readDistance).1
            omega

/-- No distance is zero. -/
theorem distance_pos {distance length : Nat}
    (read : token? literals distances data pos = some (.copied distance length, next)) :
    0 < distance := by
  unfold token? at read
  split at read
  · exact nomatch read
  · split at read
    · exact nomatch read
    · split at read
      · exact nomatch read
      · split at read
        · exact nomatch read
        · split at read
          · exact nomatch read
          · obtain ⟨⟨_, _⟩, readDistance, same⟩ := Option.map_eq_some_iff.mp read
            cases same
            obtain ⟨_, least, listed, below⟩ := le_of_extended? readDistance
            have positive : ∀ least ∈ distanceSymbols, 0 < least.1 := by decide
            exact Nat.lt_of_lt_of_le (positive least listed) below

theorem size_copy {distance length : Nat} {out : ByteArray} (positive : 0 < distance)
    (inside : distance ≤ out.size) : (copy distance length out).size = out.size + length := by
  induction length generalizing out with
  | zero => rfl
  | succ length ih =>
    unfold copy
    rw [dif_pos (by omega), ih (by rw [ByteArray.size_push]; omega), ByteArray.size_push]
    omega

/-- The tokens of a block, up to its end, take the output on. -/
inductive TokensAdd (literals distances : Code) (data : ByteArray) :
    Nat → ByteArray → Nat → ByteArray → Prop
  | stop {pos next : Nat} {out : ByteArray}
      (read : token? literals distances data pos = some (.stop, next)) :
      TokensAdd literals distances data pos out next out
  | byte {pos behind next : Nat} {b : UInt8} {out final : ByteArray}
      (read : token? literals distances data pos = some (.byte b, behind))
      (later : TokensAdd literals distances data behind (out.push b) next final) :
      TokensAdd literals distances data pos out next final
  | copied {pos behind next distance length : Nat} {out final : ByteArray}
      (read : token? literals distances data pos = some (.copied distance length, behind))
      (inside : distance ≤ out.size)
      (later : TokensAdd literals distances data behind (copy distance length out) next final) :
      TokensAdd literals distances data pos out next final

/-- A block, behind its mark for the last block, takes the output on. -/
inductive BlockAdds (data : ByteArray) : Nat → ByteArray → Nat → ByteArray → Prop
  | stored {pos behindKind start length check behindLength behindCheck : Nat} {out : ByteArray}
      (kind : bits? data 2 pos = some (0, behindKind)) (aligned : start = (behindKind + 7) / 8)
      (readLength : bits? data 16 (8 * start) = some (length, behindLength))
      (readCheck : bits? data 16 (8 * start + 16) = some (check, behindCheck))
      (complement : length + check = 0xFFFF)
      (whole : (data.extract (start + 4) (start + 4 + length)).size = length) :
      BlockAdds data pos out (8 * (start + 4 + length))
        (out ++ data.extract (start + 4) (start + 4 + length))
  | fixed {pos behindKind next : Nat} {literals distances : Code} {out final : ByteArray}
      (kind : bits? data 2 pos = some (1, behindKind))
      (literalCode : Code.ofLengths? false fixedLiteralLengths = some literals)
      (distanceCode : Code.ofLengths? false fixedDistanceLengths = some distances)
      (tokens : TokensAdd literals distances data behindKind out next final) :
      BlockAdds data pos out next final
  | own {pos behindKind behindCodes next : Nat} {literals distances : Code} {out final : ByteArray}
      (kind : bits? data 2 pos = some (2, behindKind))
      (codes : readCodes? data behindKind = some (literals, distances, behindCodes))
      (tokens : TokensAdd literals distances data behindCodes out next final) :
      BlockAdds data pos out next final

/-- The blocks from a position on, up to the last one, take the output on. -/
inductive BlocksAdd (data : ByteArray) : Nat → ByteArray → ByteArray → Prop
  | last {pos next : Nat} {out final : ByteArray} (mark : bit? data pos = some 1)
      (block : BlockAdds data (pos + 1) out next final) : BlocksAdd data pos out final
  | more {pos next mark : Nat} {out grown final : ByteArray} (read : bit? data pos = some mark)
      (notLast : mark ≠ 1) (block : BlockAdds data (pos + 1) out next grown)
      (later : BlocksAdd data next grown final) : BlocksAdd data pos out final

variable {limit : Nat} {out grown final : ByteArray}

theorem TokensAdd.size_le (adds : TokensAdd literals distances data pos out next final) :
    out.size ≤ final.size := by
  induction adds with
  | stop => exact Nat.le_refl _
  | byte _ _ ih =>
    rw [ByteArray.size_push] at ih
    omega
  | copied read inside _ ih =>
    rw [size_copy (distance_pos read) inside] at ih
    omega

theorem TokensAdd.progress (adds : TokensAdd literals distances data pos out next final) :
    pos < next := by
  induction adds with
  | stop read => exact (progress_of_token? read).2
  | byte read _ ih => exact Nat.lt_trans (progress_of_token? read).2 ih
  | copied read _ _ ih => exact Nat.lt_trans (progress_of_token? read).2 ih

theorem BlockAdds.size_le (adds : BlockAdds data pos out next final) : out.size ≤ final.size := by
  cases adds with
  | stored =>
    rw [ByteArray.size_append]
    exact Nat.le_add_right _ _
  | fixed _ _ _ tokens => exact tokens.size_le
  | own _ _ tokens => exact tokens.size_le

theorem BlockAdds.progress (adds : BlockAdds data pos out next final) : pos < next := by
  cases adds with
  | stored kind aligned =>
    have := eq_of_bits? kind
    omega
  | fixed kind _ _ tokens =>
    have := eq_of_bits? kind
    have := tokens.progress
    omega
  | own kind codes tokens =>
    have := eq_of_bits? kind
    have := le_of_readCodes? codes
    have := tokens.progress
    omega

theorem BlocksAdd.size_le (adds : BlocksAdd data pos out final) : out.size ≤ final.size := by
  induction adds with
  | last _ block => exact block.size_le
  | more _ _ block _ ih => exact Nat.le_trans block.size_le ih

/-- With a unit of fuel for each bit that is left, and one more, the tokens are read to the end of
the block, unless the output grows beyond the limit. -/
theorem TokensAdd.symbols_eq (adds : TokensAdd literals distances data pos out next final)
    {fuel : Nat} (enough : 8 * data.size - pos < fuel) (within : out.size ≤ limit) :
    symbols limit literals distances data fuel pos out =
      if limit < final.size then .error .tooLong else .ok (next, final) := by
  -- On the tokens. Output never shrinks, so one that is too long once ends too long.
  induction adds generalizing fuel with
  | stop read =>
    obtain ⟨fuel, rfl⟩ := Nat.exists_eq_add_one_of_ne_zero (Nat.ne_zero_of_lt enough)
    rw [symbols_succ, read, if_neg (Nat.not_lt.mpr within)]
  | @byte pos behind next b out final read later ih =>
    obtain ⟨fuel, rfl⟩ := Nat.exists_eq_add_one_of_ne_zero (Nat.ne_zero_of_lt enough)
    obtain ⟨inside, moved⟩ := progress_of_token? read
    have grows := later.size_le
    rw [ByteArray.size_push] at grows
    rw [symbols_succ, read]
    dsimp only
    by_cases full : limit ≤ out.size
    · rw [if_pos full, if_pos (by omega)]
    · rw [if_neg full, ih (by omega) (by rw [ByteArray.size_push]; omega)]
  | @copied pos behind next distance length out final read reach later ih =>
    obtain ⟨fuel, rfl⟩ := Nat.exists_eq_add_one_of_ne_zero (Nat.ne_zero_of_lt enough)
    obtain ⟨inside, moved⟩ := progress_of_token? read
    have size : (copy distance length out).size = out.size + length :=
      size_copy (distance_pos read) reach
    have grows := later.size_le
    rw [size] at grows
    rw [symbols_succ, read]
    dsimp only
    rw [if_neg (Nat.not_lt.mpr reach)]
    by_cases full : limit < out.size + length
    · rw [if_pos full, if_pos (by omega)]
    · rw [if_neg full, ih (by omega) (by rw [size]; omega)]

theorem BlockAdds.block_eq (adds : BlockAdds data pos out next final) (within : out.size ≤ limit) :
    block limit data pos out =
      if limit < final.size then .error .tooLong else .ok (next, final) := by
  have enough (pos : Nat) : 8 * data.size - pos < symbolFuel data :=
    Nat.lt_succ_of_le (Nat.sub_le _ _)
  cases adds with
  | stored kind aligned readLength readCheck complement whole =>
    subst aligned
    simp only [block, kind, Inflate.stored, readLength, readCheck, complement, ne_eq, not_true,
      if_false, ByteArray.size_append, whole, Nat.lt_irrefl]
  | fixed kind literalCode distanceCode tokens =>
    simp only [block, kind, literalCode, distanceCode]
    exact tokens.symbols_eq (enough _) within
  | own kind codes tokens =>
    simp only [block, kind, codes]
    exact tokens.symbols_eq (enough _) within

theorem BlocksAdd.blocks_eq (adds : BlocksAdd data pos out final) {fuel : Nat}
    (enough : 8 * data.size - pos < fuel) (within : out.size ≤ limit) :
    blocks limit data fuel pos out =
      if limit < final.size then .error .tooLong else .ok final := by
  induction adds generalizing fuel with
  | @last pos next out final mark adds =>
    obtain ⟨fuel, rfl⟩ := Nat.exists_eq_add_one_of_ne_zero (Nat.ne_zero_of_lt enough)
    rw [blocks, mark]
    dsimp only
    rw [adds.block_eq within]
    by_cases full : limit < final.size
    · rw [if_pos full, if_pos full]
    · rw [if_neg full, if_neg full]
      exact if_pos rfl
  | @more pos next mark out grown final read notLast adds later ih =>
    obtain ⟨fuel, rfl⟩ := Nat.exists_eq_add_one_of_ne_zero (Nat.ne_zero_of_lt enough)
    have inside := lt_of_bit? read
    have moved := adds.progress
    have grows := later.size_le
    rw [blocks, read]
    dsimp only
    rw [adds.block_eq within]
    by_cases full : limit < grown.size
    · rw [if_pos full, if_pos (Nat.lt_of_lt_of_le full grows)]
    · rw [if_neg full]
      dsimp only
      rw [if_neg notLast, ih (by omega) (Nat.le_of_not_lt full)]

end ExtensionAudit.Inflate

namespace ExtensionAudit

variable {data out other : ByteArray} {limit : Nat}

/-- The deflated data stand for the output, however long it is. -/
def Deflates (out data : ByteArray) : Prop :=
  Inflate.BlocksAdd data 0 ByteArray.empty out

/-- Of data that stand for an output, the output is given whole, unless it is longer than the
limit. -/
theorem Deflates.inflate_eq (deflates : Deflates out data) (limit : Nat) :
    inflate limit data = if limit < out.size then .error .tooLong else .ok out :=
  Inflate.BlocksAdd.blocks_eq deflates (by omega) (Nat.zero_le _)

/-- Data stand for one output at most. -/
theorem Deflates.unique (one : Deflates out data) (two : Deflates other data) : out = other := by
  have first := one.inflate_eq (max out.size other.size)
  have second := two.inflate_eq (max out.size other.size)
  rw [if_neg (by omega)] at first second
  exact Except.ok.inj (first.symm.trans second)

end ExtensionAudit
