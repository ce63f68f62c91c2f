import ExtensionAudit.Json.Decode
import ExtensionAudit.Text.Blank

namespace ExtensionAudit

def isIdChar (c : Char) : Bool :=
  ('a' ≤ c && c ≤ 'z') || ('A' ≤ c && c ≤ 'Z') || ('0' ≤ c && c ≤ '9')

def idLength : Nat := 32

/-- An id of letters and digits of ASCII. -/
structure ExtensionId where
  text : String
  length_text : text.toList.length = idLength
  chars_text : text.toList.all isIdChar = true
deriving DecidableEq

namespace ExtensionId

def ofExact? (text : String) : Option ExtensionId :=
  if length : text.toList.length = idLength then
    if chars : text.toList.all isIdChar = true then some ⟨text, length, chars⟩ else none
  else none

/-- Reads an id with blanks around it; the failure is the text without them. -/
def ofText (text : String) : Except String ExtensionId :=
  let trimmed := String.ofList (Text.trim text.toList)
  match ofExact? trimmed with
  | some id => .ok id
  | none => .error trimmed

theorem ofExact?_text (id : ExtensionId) : ofExact? id.text = some id := by
  simp [ofExact?, id.length_text, id.chars_text]

instance : Json.Encode ExtensionId := ⟨fun id => .string id.text⟩

instance : Json.Decode ExtensionId where
  decode? tree := do (ofText (← Json.decode? tree)).toOption

end ExtensionId

end ExtensionAudit
