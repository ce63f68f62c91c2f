namespace ExtensionAudit.Text

def blanks (count : Nat) : String :=
  String.ofList (List.replicate count ' ')

def padEnd (width : Nat) (text : String) : String :=
  text ++ blanks (width - text.length)

def padStart (width : Nat) (text : String) : String :=
  blanks (width - text.length) ++ text

def ofLines (lines : List String) : String :=
  String.join (lines.map (· ++ "\n"))

end ExtensionAudit.Text
