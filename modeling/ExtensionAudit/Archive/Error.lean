namespace ExtensionAudit

def largestEntry : Nat := 67108864

inductive EntryRef where
  | named (path : String)
  | numbered (index : Nat)
deriving DecidableEq, Repr

inductive EntryFault where
  | absent
  | encrypted
  /-- Its compression is neither none nor deflate. -/
  | foreignMethod
  /-- Its offset leads to no local header. -/
  | lostHeader
  | brokenData
  | wrongChecksum
  | declaredSize (bytes : Nat)
  | actualSize
  /-- Read past the index: the offset leads to another thing than a local header. -/
  | noHeaderAt (offset : Nat)
  /-- Read past the index: the record leaves a field to a 64-bit extension. -/
  | extended
  /-- Read past the index: its compression is neither none nor deflate. -/
  | methodOf (method : Nat)
deriving DecidableEq, Repr

def EntryFault.reason? : EntryFault → Option String
  | declaredSize bytes => some ("entry declares " ++ Nat.repr bytes ++ " bytes, limit is " ++
      Nat.repr largestEntry)
  | actualSize => some ("entry exceeds " ++ Nat.repr largestEntry ++ " bytes")
  | noHeaderAt offset => some ("no local header at offset " ++ Nat.repr offset)
  | extended => some "ZIP64 record cannot be read directly"
  | methodOf method => some ("compression method " ++ Nat.repr method ++ " not supported")
  | _ => none

inductive ArchiveError where
  | headerTruncated (size : Nat)
  | headerPastEnd (headerSize size : Nat)
  | notAnArchive
  | unreadable (entry : EntryRef) (fault : EntryFault)
deriving DecidableEq, Repr

def EntryRef.text : EntryRef → String
  | named path => "'" ++ path ++ "'"
  | numbered index => "#" ++ Nat.repr index

def ArchiveError.message : ArchiveError → String
  | headerTruncated size =>
    "Corrupt archive: CRX header truncated: " ++ Nat.repr size ++ " bytes, need at least 12"
  | headerPastEnd headerSize size =>
    "Corrupt archive: CRX header size " ++ Nat.repr headerSize ++ " points past end of input (" ++
      Nat.repr size ++ " bytes)"
  | notAnArchive => "Corrupt archive: failed to open ZIP archive"
  | unreadable entry fault =>
    let told := match fault.reason? with
      | some reason => ": " ++ reason
      | none => ""
    "Corrupt archive: failed to read ZIP entry " ++ entry.text ++ told

end ExtensionAudit
