import ExtensionAudit.Text.CaseTables
import ExtensionAudit.Text.CasedTables
import ExtensionAudit.Text.Blank

namespace ExtensionAudit.Text

def CaseRun.covers (run : CaseRun) (n : Nat) : Bool :=
  run.first ≤ n && n ≤ run.last && (n - run.first) % run.step == 0

/-- The other case of a code point: its expansion, its shift, or itself. -/
def otherCase (runs : List CaseRun) (expansions : List (Nat × List Nat)) (c : Char) : List Char :=
  match expansions.lookup c.toNat with
  | some codes => codes.map Char.ofNat
  | none =>
    match runs.find? (·.covers c.toNat) with
    | some run => [Char.ofNat (c.toNat + run.shift).toNat]
    | none => [c]

def lowerChar (c : Char) : List Char :=
  otherCase lowerRuns lowerExpansions c

def upperChar (c : Char) : List Char :=
  otherCase upperRuns upperExpansions c

/-- Whether the nearest character that is not passed over has case. -/
def nextIsCased (cs : List Char) : Bool :=
  match cs.dropWhile fun c => inRanges ignorableRanges c.toNat with
  | [] => false
  | c :: _ => inRanges casedRanges c.toNat

/-- Lower case of the characters that follow `before`, which is in reverse order. -/
def lowerAfter (before : List Char) : List Char → List Char
  | [] => []
  | c :: rest =>
    let lowered :=
      if c = 'Σ' then
        if nextIsCased before && !nextIsCased rest then ['ς'] else ['σ']
      else lowerChar c
    lowered ++ lowerAfter (c :: before) rest

def lower (cs : List Char) : List Char :=
  lowerAfter [] cs

def capitalize (word : List Char) : List Char :=
  match lower word with
  | [] => []
  | first :: rest => upperChar first ++ rest

/-- The tables of both cases leave the blanks out. -/
theorem otherCase_of_blank {c : Char} (blank : isBlank c = true) :
    lowerChar c = [c] ∧ upperChar c = [c] := by
  have apart : ∀ range ∈ blankRanges, ∀ n ∈ List.range' range.1 (range.2 + 1 - range.1),
      (lowerExpansions.lookup n = none ∧ lowerRuns.find? (·.covers n) = none) ∧
        upperExpansions.lookup n = none ∧ upperRuns.find? (·.covers n) = none := by
    decide +kernel
  obtain ⟨range, listed, lower, upper⟩ := inRanges_iff.mp blank
  have within : c.toNat ∈ List.range' range.1 (range.2 + 1 - range.1) :=
    List.mem_range'_1.mpr ⟨lower, by omega⟩
  obtain ⟨⟨expansion, run⟩, upExpansion, upRun⟩ := apart range listed c.toNat within
  constructor
  · rw [lowerChar, otherCase, expansion, run]
  · rw [upperChar, otherCase, upExpansion, upRun]

theorem mem_lower_of_blank {cs : List Char} {c : Char} (blank : isBlank c = true)
    (listed : c ∈ cs) : c ∈ lower cs := by
  have visible : isBlank 'Σ' = false := by decide
  suffices kept : ∀ before, c ∈ lowerAfter before cs from kept []
  induction cs with
  | nil => exact absurd listed List.not_mem_nil
  | cons first rest ih =>
    intro before
    rw [lowerAfter]
    rcases List.mem_cons.mp listed with rfl | later
    · have other : c ≠ 'Σ' := by
        rintro rfl
        rw [visible] at blank
        exact nomatch blank
      rw [if_neg other, (otherCase_of_blank blank).1]
      exact List.mem_cons_self
    · exact List.mem_append_right _ (ih later (first :: before))

theorem mem_capitalize_of_blank {word : List Char} {c : Char} (blank : isBlank c = true)
    (listed : c ∈ word) : c ∈ capitalize word := by
  have kept := mem_lower_of_blank blank listed
  rw [capitalize]
  split
  · rename_i empty
    rwa [empty] at kept
  · rename_i first rest shape
    rw [shape] at kept
    rcases List.mem_cons.mp kept with rfl | later
    · rw [(otherCase_of_blank blank).2]
      exact List.mem_cons_self
    · exact List.mem_append_right _ later

end ExtensionAudit.Text
