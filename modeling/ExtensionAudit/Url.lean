import ExtensionAudit.Text.Blank

namespace ExtensionAudit.Url

def schemes : List (List Char) :=
  ["https://".toList, "http://".toList, "ftp://".toList, "file://".toList]

/-- The longest text that precedes the last point of a literal. -/
def longestHost : Nat := 256

/-- The most letters and digits after the last point of a literal. -/
def longestEnding : Nat := 6

def isAlnum (c : Char) : Bool :=
  ('a' ≤ c && c ≤ 'z') || ('A' ≤ c && c ≤ 'Z') || ('0' ≤ c && c ≤ '9')

def isHostChar (c : Char) : Bool :=
  isAlnum c || ['-', '@', ':', '%', '.', '_', '+', '~', '#', '='].contains c

/-- A point and as many letters and digits as an ending can have, but at least one. -/
def ending? : List Char → Option (List Char)
  | '.' :: rest =>
    match (rest.take longestEnding).takeWhile isAlnum with
    | [] => none
    | letters => some ('.' :: letters)
  | _ => none

/-- At most `room` host characters and an ending; as many host characters as possible. -/
def tail? : Nat → List Char → Option (List Char)
  | 0, cs => ending? cs
  | room + 1, cs =>
    match cs with
    | [] => none
    | c :: rest =>
      if isHostChar c then
        match tail? room rest with
        | some more => some (c :: more)
        | none => ending? (c :: rest)
      else none

def host? : List Char → Option (List Char)
  | [] => none
  | c :: rest => if isHostChar c then (tail? (longestHost - 1) rest).map (c :: ·) else none

def wwwText : List Char := "www.".toList

/-- What follows the scheme; a leading `www.` is set apart where a host remains without it. -/
def address? (cs : List Char) : Option (List Char) :=
  if wwwText.isPrefixOf cs then
    match host? (cs.drop wwwText.length) with
    | some host => some (wwwText ++ host)
    | none => host? cs
  else host? cs

/-- A literal is a scheme, `://`, a host, a point and an ending. -/
def literal? (cs : List Char) : Option (List Char) := do
  let scheme ← schemes.find? (·.isPrefixOf cs)
  let address ← address? (cs.drop scheme.length)
  return scheme ++ address

/-- The literals of a text after those found so far, which are in reverse order. The search goes on
behind each literal. -/
def literalsAfter (found : List (List Char)) : List Char → List (List Char)
  | [] => found.reverse
  | c :: rest =>
    match literal? (c :: rest) with
    | some url => literalsAfter (url :: found) (rest.drop (url.length - 1))
    | none => literalsAfter found rest
termination_by cs => cs.length
decreasing_by all_goals simp only [List.length_drop, List.length_cons]; omega

/-- The literals of a text in order of appearance, with repetitions. -/
def literals (text : String) : List String :=
  (literalsAfter [] text.toList).map String.ofList

/-- What a redacted address begins with. -/
def redactedSchemes : List (List Char) :=
  ["https://".toList, "http://".toList]

def redactionMark : List Char := "[URL]".toList

def afterAddress? (cs : List Char) : Option (List Char) :=
  match redactedSchemes.find? (·.isPrefixOf cs) with
  | none => none
  | some scheme =>
    match cs.drop scheme.length with
    | [] => none
    | c :: rest => if Text.isBlank c then none else some (rest.dropWhile (!Text.isBlank ·))

theorem length_dropWhile_le {p : Char → Bool} (cs : List Char) :
    (cs.dropWhile p).length ≤ cs.length :=
  (List.dropWhile_sublist p).length_le

theorem length_of_afterAddress? {cs behind : List Char} (found : afterAddress? cs = some behind) :
    behind.length < cs.length := by
  unfold afterAddress? at found
  split at found
  · simp at found
  · rename_i scheme _
    split at found
    · simp at found
    · rename_i c rest dropped
      split at found
      · simp at found
      · have shorter := @length_dropWhile_le (fun c => !Text.isBlank c) rest
        have room := congrArg List.length dropped
        simp only [List.length_drop, List.length_cons] at room
        cases found
        omega

/-- Redacts the text behind the characters that are done, which are in reverse order. -/
def redactAfter (done : List Char) : List Char → List Char
  | [] => done.reverse
  | c :: rest =>
    match _found : afterAddress? (c :: rest) with
    | some behind => redactAfter (redactionMark.reverse ++ done) behind
    | none => redactAfter (c :: done) rest
termination_by cs => cs.length
decreasing_by
  · exact length_of_afterAddress? _found
  · simp

def redactChars (cs : List Char) : List Char :=
  redactAfter [] cs

def redact (text : String) : String :=
  String.ofList (redactChars text.toList)

end ExtensionAudit.Url
