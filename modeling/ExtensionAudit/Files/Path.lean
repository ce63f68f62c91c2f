import ExtensionAudit.Text.Split

namespace ExtensionAudit.Path

-- Sums are those of the core library, whatever else is imported.
attribute [local instance (high)] Zero.ofOfNat0

def parts (path : String) : List String :=
  (Text.split '/' path.toList).map String.ofList

/-- The names in a path. Empty parts and single points are passed over. -/
def names (path : String) : List String :=
  (parts path).filter fun part => part ≠ "" ∧ part ≠ "."

def fileName? (path : String) : Option String :=
  (names path).getLast?.filter (· ≠ "..")

def isAbsolute (path : String) : Bool :=
  path.toList.head? == some '/'

/-- Whether the last name, or what follows it, is a point: such a path leads only to what is
there. -/
def endsInPoint (path : String) : Bool :=
  ((parts path).filter (· ≠ "")).getLast? == some "."

/-- The path without its last name, and without empty parts and points. -/
def parent (path : String) : String :=
  (if isAbsolute path then "/" else "") ++ "/".intercalate (names path).dropLast

def size (text : String) : Nat :=
  (text.toList.map Char.utf8Size).sum

def longestPath : Nat := 4095

def longestName : Nat := 255

/-- Whether the path can be asked for at all. -/
def isAccepted (path : String) : Bool :=
  path ≠ "" && size path ≤ longestPath && !path.toList.contains '\x00'

/-- Whether a name can be put behind the path as it stands. -/
def endsOpen (path : String) : Bool :=
  path.toList.getLast? == none || path.toList.getLast? == some '/'

def inside (directory name : String) : String :=
  if endsOpen directory then directory ++ name else directory ++ "/" ++ name

/-- Whether a name has the ending and something in front of it. -/
def hasExtension (ending name : String) : Bool :=
  ending.toList.isSuffixOf name.toList && name ≠ ending

/-- The parts of a name in a directory are those of the directory and the name. -/
theorem parts_append {directory name : String} (plain : '/' ∉ name.toList) :
    parts (directory ++ "/" ++ name) = parts directory ++ [name] := by
  have shape : (directory ++ "/" ++ name).toList = directory.toList ++ '/' :: name.toList := by simp
  rw [parts, shape, Text.split_append, Text.split_of_not_mem plain]
  simp [parts]

end ExtensionAudit.Path
