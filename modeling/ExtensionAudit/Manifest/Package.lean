import ExtensionAudit.Archive.Basic
import ExtensionAudit.Manifest.Authored
import ExtensionAudit.Url

namespace ExtensionAudit

/-- The URLs in a file; a file that is no text has none. -/
def Content.urls (content : Content) : List String :=
  match String.fromUTF8? content.bytes with
  | some text => Url.literals text
  | none => []

namespace Archive

/-- The URLs in the entry of an index; an entry that cannot be read has none. -/
def urlsAt (a : Archive) (index : Nat) : List String :=
  match a.readIndex index with
  | .ok (some content) => content.urls
  | _ => []

def urls (a : Archive) : TextSet :=
  .ofList ((List.range a.size).flatMap a.urlsAt)

end Archive

inductive PackageError where
  | archive (fault : ArchiveError)
  | manifest (fault : ManifestError)
deriving DecidableEq, Repr

def PackageError.message : PackageError → String
  | archive fault => fault.message
  | manifest fault => fault.message

namespace Manifest

def path : String := "manifest.json"

/-- The manifest of an opened package, with the URLs of the package. -/
def ofArchive (a : Archive) : Except PackageError Manifest :=
  match a.readFirst path with
  | .error fault => .error (.archive fault)
  | .ok none => .error (.manifest .missing)
  | .ok (some bytes) =>
    match ofBytes bytes with
    | .error fault => .error (.manifest fault)
    | .ok manifest => .ok { manifest with embeddedUrls := a.urls }

def ofPackage (raw : ByteArray) : Except PackageError Manifest :=
  match Archive.ofPackage raw with
  | .error fault => .error (.archive fault)
  | .ok a => ofArchive a

end Manifest

end ExtensionAudit
