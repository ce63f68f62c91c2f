namespace ExtensionAudit.Tool

def name : String := "crxaudit"

def version : String := "0.1.0"

end ExtensionAudit.Tool
