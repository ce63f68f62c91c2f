import ExtensionAudit.Proofs.Store.Encodings
import ExtensionAudit.Proofs.Time.Text
import ExtensionAudit.Store.Directory

namespace ExtensionAudit

open Json

instance : Faithful Timestamp where
  whole t := .string t.text
  decoded t := by
    simp only [encode, Value.toSyntax, decode?, Option.bind_eq_bind, Option.bind_some,
      Timestamp.ofText?_text]

instance : Parts Record where
  parts r := [("extension_id", some (encode r.id)), ("extension_name", r.name.map encode),
    ("extension_image", r.image.map encode), ("manifest", some (encode r.manifest)),
    ("extension_details", some (encode r.details)),
    ("security_findings", some (encode r.assessment)), ("risk", some (encode r.risk)),
    ("sha256", some (encode r.digest)), ("created_at", some (encode r.createdAt)),
    ("updated_at", some (encode r.updatedAt))]
  encode_eq r := by
    simp only [encode, member_eq_present, memberIfSome_eq_present, present_append,
      List.cons_append, List.nil_append]
  distinct _ := by simp
  each_whole _ := by simp [Faithful.whole]

instance : Faithful Record where
  whole := Parts.whole
  decoded r := by
    have given : Fields.ofSyntax? Record.fields (encode r).toSyntax = some (Parts.fields r) :=
      Parts.ofSyntax?_encode r
    have id : (Parts.fields r).required "extension_id" = some r.id :=
      Parts.required_fields r (by simp [Parts.parts])
    have name : (Parts.fields r).optional "extension_name" = some r.name :=
      Parts.optional_fields r (by simp [Parts.parts])
    have image : (Parts.fields r).optional "extension_image" = some r.image :=
      Parts.optional_fields r (by simp [Parts.parts])
    have manifest : (Parts.fields r).required "manifest" = some r.manifest :=
      Parts.required_fields r (by simp [Parts.parts])
    have details : (Parts.fields r).orElse "extension_details" ({} : StoreDetails) =
        some r.details :=
      Parts.orElse_fields r _ (by simp [Parts.parts])
    have assessment : (Parts.fields r).required "security_findings" = some r.assessment :=
      Parts.required_fields r (by simp [Parts.parts])
    have risk : (Parts.fields r).required "risk" = some r.risk :=
      Parts.required_fields r (by simp [Parts.parts])
    have digest : (Parts.fields r).required "sha256" = some r.digest :=
      Parts.required_fields r (by simp [Parts.parts])
    have createdAt : (Parts.fields r).required "created_at" = some r.createdAt :=
      Parts.required_fields r (by simp [Parts.parts])
    have updatedAt : (Parts.fields r).required "updated_at" = some r.updatedAt :=
      Parts.required_fields r (by simp [Parts.parts])
    simp only [decode?]
    rw [bind_of_eq_some given, bind_of_eq_some id, bind_of_eq_some name, bind_of_eq_some image,
      bind_of_eq_some manifest, bind_of_eq_some details, bind_of_eq_some assessment,
      bind_of_eq_some risk, bind_of_eq_some digest, bind_of_eq_some createdAt,
      bind_of_eq_some updatedAt]
    rfl

namespace Record

theorem ofText?_text (record : Record) : ofText? record.text = some record := by
  have whole : (encode record).Whole := Faithful.whole record
  rw [ofText?, text, Syntax.ofText?_prettyText whole, Option.bind_some]
  exact Faithful.decoded record

/-- Every record is read back from its text, and from the bytes of its text: no field of it, and of
the manifest, the page, the findings and the risk in it, is lost or changed. -/
theorem text_roundTrip (record : Record) :
    ofText? record.text = some record ∧
      (String.fromUTF8? record.text.toUTF8).bind ofText? = some record := by
  refine ⟨ofText?_text record, ?_⟩
  rw [Files.fromUTF8?_toUTF8, Option.bind_some, ofText?_text]

end Record

end ExtensionAudit
