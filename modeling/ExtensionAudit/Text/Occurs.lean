namespace ExtensionAudit.Text

/-- Whether `needle` occurs in the text, at its start or further on. -/
def occursIn (needle : List Char) : List Char → Bool
  | [] => needle.isEmpty
  | c :: rest => needle.isPrefixOf (c :: rest) || occursIn needle rest

theorem occursIn_iff {needle hay : List Char} : occursIn needle hay = true ↔ needle <:+: hay := by
  induction hay with
  | nil => simp [occursIn]
  | cons c rest ih =>
    simp only [occursIn, Bool.or_eq_true, List.isPrefixOf_iff_prefix, ih, List.infix_cons_iff]

end ExtensionAudit.Text

namespace ExtensionAudit

def contains (text needle : String) : Bool :=
  Text.occursIn needle.toList text.toList

theorem contains_iff {text needle : String} :
    contains text needle = true ↔ needle.toList <:+: text.toList :=
  Text.occursIn_iff

end ExtensionAudit
