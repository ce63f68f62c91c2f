namespace ExtensionAudit.Toml

/-- What brought a table about. -/
inductive Origin where
  /-- The header of a table inside it. -/
  | implied
  /-- A dotted key in front of a value. -/
  | dotted
  /-- Its own header. -/
  | declared
deriving DecidableEq, Repr

/-- What a key leads to. Of numbers that are no integers and of dates only the kind is kept, as no
setting takes one. -/
inductive Node where
  | string (text : String)
  | integer (n : Int)
  | boolean (value : Bool)
  | float
  | dateTime
  | array (items : List Node)
  | inline (members : List (String × Node))
  | table (origin : Origin) (members : List (String × Node))
  /-- An array of tables that headers make, one table for each header. -/
  | tables (elements : List (List (String × Node)))
deriving Repr

abbrev Members : Type := List (String × Node)

def replace (key : String) (node : Node) (members : Members) : Members :=
  members.map fun (name, old) => if name = key then (name, node) else (name, old)

/-- Changes the table at the end of a path of headers. Tables that are missing on the way are
implied; an array of tables stands for its last table. -/
def within? (change : Members → Option Members) : List String → Members → Option Members
  | [], members => change members
  | step :: path, members =>
    match members.lookup step with
    | none => (within? change path []).map fun sub => members ++ [(step, .table .implied sub)]
    | some (.table origin sub) =>
      (within? change path sub).map fun sub => replace step (.table origin sub) members
    | some (.tables elements) =>
      match elements.getLast? with
      | none => none
      | some last => (within? change path last).map fun last =>
          replace step (.tables (elements.dropLast ++ [last])) members
    | some _ => none

/-- Gives a table its header. It may be there already if it was only implied. -/
def declareLast? (key : String) (members : Members) : Option Members :=
  match members.lookup key with
  | none => some (members ++ [(key, .table .declared [])])
  | some (.table .implied sub) => some (replace key (.table .declared sub) members)
  | some _ => none

def appendLast? (key : String) (members : Members) : Option Members :=
  match members.lookup key with
  | none => some (members ++ [(key, .tables [[]])])
  | some (.tables elements) => some (replace key (.tables (elements ++ [[]])) members)
  | some _ => none

/-- Puts in a node under a key that is not there yet. A table that is reached by a dotted key must
have been made by one; `fits` tells whether the table at hand was. -/
def insert? (key : String) (node : Node) (fits : Bool) : List String → Members → Option Members
  | [], members =>
    if fits && (members.lookup key).isNone then some (members ++ [(key, node)]) else none
  | step :: path, members =>
    match members.lookup step with
    | none => (insert? key node true path []).map fun sub => members ++ [(step, .table .dotted sub)]
    | some (.table .declared _) => none
    | some (.table origin sub) =>
      (insert? key node (origin == .dotted) path sub).map fun sub =>
        replace step (.table origin sub) members
    | some (.tables elements) =>
      match elements.getLast? with
      | none => none
      | some last => (insert? key node false path last).map fun last =>
          replace step (.tables (elements.dropLast ++ [last])) members
    | some _ => none

/-- A line of a document. Paths are split at their last key. -/
inductive Statement where
  | header (path : List String) (key : String)
  | element (path : List String) (key : String)
  | pair (path : List String) (key : String) (node : Node)

structure Document where
  current : List String := []
  root : Members := []

def Document.add? (d : Document) : Statement → Option Document
  | .header path key =>
    (within? (declareLast? key) path d.root).map fun root => ⟨path ++ [key], root⟩
  | .element path key =>
    (within? (appendLast? key) path d.root).map fun root => ⟨path ++ [key], root⟩
  | .pair path key node =>
    (within? (insert? key node true path) d.current d.root).map fun root => { d with root }

def Document.ofStatements? (statements : List Statement) : Option Members :=
  (statements.foldlM Document.add? {}).map (·.root)

def inlineMembers? (pairs : List (List String × String × Node)) : Option Members :=
  pairs.foldlM (fun members (path, key, node) => insert? key node true path members) []

end ExtensionAudit.Toml
