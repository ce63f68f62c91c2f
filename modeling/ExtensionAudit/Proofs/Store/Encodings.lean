import ExtensionAudit.Proofs.Json.Typed
import ExtensionAudit.Store.Record

namespace ExtensionAudit

open Json

instance : Faithful Severity where
  whole s := .string s.name
  decoded s := Severity.ofName?_name s

instance : Parts Finding where
  parts f := [("rule_id", some (encode f.ruleId)), ("severity", some (encode f.severity)),
    ("title", some (encode f.title)), ("description", some (encode f.description))]
  encode_eq _ := rfl
  distinct _ := by simp
  each_whole _ := by simp [Faithful.whole]

instance : Faithful Finding where
  whole := Parts.whole
  decoded f := by
    have given : Fields.ofSyntax? Finding.fields (encode f).toSyntax = some (Parts.fields f) :=
      Parts.ofSyntax?_encode f
    have ruleId : (Parts.fields f).required "rule_id" = some f.ruleId :=
      Parts.required_fields f (by simp [Parts.parts])
    have severity : (Parts.fields f).required "severity" = some f.severity :=
      Parts.required_fields f (by simp [Parts.parts])
    have title : (Parts.fields f).required "title" = some f.title :=
      Parts.required_fields f (by simp [Parts.parts])
    have description : (Parts.fields f).required "description" = some f.description :=
      Parts.required_fields f (by simp [Parts.parts])
    simp only [decode?]
    rw [bind_of_eq_some given, bind_of_eq_some ruleId, bind_of_eq_some severity,
      bind_of_eq_some title, bind_of_eq_some description]
    rfl

instance : Parts Verdict where
  parts v := [("severity", some (encode v.severity)), ("high", some (encode v.high)),
    ("medium", some (encode v.medium)), ("total", some (encode v.total))]
  encode_eq _ := rfl
  distinct _ := by simp
  each_whole _ := by simp [Faithful.whole]

instance : Faithful Verdict where
  whole := Parts.whole
  decoded v := by
    have given : Fields.ofSyntax? Verdict.fields (encode v).toSyntax = some (Parts.fields v) :=
      Parts.ofSyntax?_encode v
    have severity : (Parts.fields v).required "severity" = some v.severity :=
      Parts.required_fields v (by simp [Parts.parts])
    have high : (Parts.fields v).required "high" = some v.high :=
      Parts.required_fields v (by simp [Parts.parts])
    have medium : (Parts.fields v).required "medium" = some v.medium :=
      Parts.required_fields v (by simp [Parts.parts])
    have total : (Parts.fields v).required "total" = some v.total :=
      Parts.required_fields v (by simp [Parts.parts])
    simp only [decode?]
    rw [bind_of_eq_some given, bind_of_eq_some severity, bind_of_eq_some high,
      bind_of_eq_some medium, bind_of_eq_some total]
    rfl

instance : Parts Assessment where
  parts a := [("verdict", some (encode a.verdict)), ("findings", some (encode a.findings))]
  encode_eq _ := rfl
  distinct _ := by simp
  each_whole _ := by simp [Faithful.whole]

instance : Faithful Assessment where
  whole := Parts.whole
  decoded a := by
    have given : Fields.ofSyntax? ["verdict", "findings"] (encode a).toSyntax =
        some (Parts.fields a) :=
      Parts.ofSyntax?_encode a
    have verdict : (Parts.fields a).required "verdict" = some a.verdict :=
      Parts.required_fields a (by simp [Parts.parts])
    have findings : (Parts.fields a).required "findings" = some a.findings :=
      Parts.required_fields a (by simp [Parts.parts])
    simp only [decode?]
    rw [bind_of_eq_some given, bind_of_eq_some verdict, bind_of_eq_some findings]
    rfl

instance : Parts Risk where
  parts r := [("verdict", some (encode r.verdict)), ("advisory_level", r.advised.map encode)]
  encode_eq r := by
    simp only [encode, member_eq_present, memberIfSome_eq_present, present_append,
      List.cons_append, List.nil_append]
  distinct _ := by simp
  each_whole _ := by simp [Faithful.whole]

instance : Faithful Risk where
  whole := Parts.whole
  decoded r := by
    have given : Fields.ofSyntax? ["verdict", "advisory_level"] (encode r).toSyntax =
        some (Parts.fields r) :=
      Parts.ofSyntax?_encode r
    have verdict : (Parts.fields r).required "verdict" = some r.verdict :=
      Parts.required_fields r (by simp [Parts.parts])
    have advised : (Parts.fields r).optional "advisory_level" = some r.advised :=
      Parts.optional_fields r (by simp [Parts.parts])
    simp only [decode?]
    rw [bind_of_eq_some given, bind_of_eq_some verdict, bind_of_eq_some advised]
    rfl

instance : Parts StoreDetails where
  parts d := [("name", d.name.map encode), ("image", d.image.map encode),
    ("author", d.author.map encode), ("rating", d.rating.map encode),
    ("rating_count", d.ratingCount.map encode), ("last_updated", d.lastUpdated.map encode),
    ("size", d.size.map encode), ("users", d.users.map encode),
    ("developer_info", d.developerInfo.map encode)]
  encode_eq d := by
    simp only [encode, memberIfSome_eq_present, present_append, List.cons_append, List.nil_append]
  distinct _ := by simp
  each_whole _ := by simp [Faithful.whole]

instance : Faithful StoreDetails where
  whole := Parts.whole
  decoded d := by
    have given : Fields.ofSyntax? StoreDetails.fields (encode d).toSyntax =
        some (Parts.fields d) :=
      Parts.ofSyntax?_encode d
    have name : (Parts.fields d).optional "name" = some d.name :=
      Parts.optional_fields d (by simp [Parts.parts])
    have image : (Parts.fields d).optional "image" = some d.image :=
      Parts.optional_fields d (by simp [Parts.parts])
    have author : (Parts.fields d).optional "author" = some d.author :=
      Parts.optional_fields d (by simp [Parts.parts])
    have rating : (Parts.fields d).optional "rating" = some d.rating :=
      Parts.optional_fields d (by simp [Parts.parts])
    have ratingCount : (Parts.fields d).optional "rating_count" = some d.ratingCount :=
      Parts.optional_fields d (by simp [Parts.parts])
    have lastUpdated : (Parts.fields d).optional "last_updated" = some d.lastUpdated :=
      Parts.optional_fields d (by simp [Parts.parts])
    have size : (Parts.fields d).optional "size" = some d.size :=
      Parts.optional_fields d (by simp [Parts.parts])
    have users : (Parts.fields d).optional "users" = some d.users :=
      Parts.optional_fields d (by simp [Parts.parts])
    have developerInfo : (Parts.fields d).optional "developer_info" = some d.developerInfo :=
      Parts.optional_fields d (by simp [Parts.parts])
    simp only [decode?]
    rw [bind_of_eq_some given, bind_of_eq_some name, bind_of_eq_some image, bind_of_eq_some author,
      bind_of_eq_some rating, bind_of_eq_some ratingCount, bind_of_eq_some lastUpdated,
      bind_of_eq_some size, bind_of_eq_some users, bind_of_eq_some developerInfo]
    rfl

instance : Parts ContentScript where
  parts s := [("matches", some (encode s.patterns)), ("js", some (encode s.scripts))]
  encode_eq _ := rfl
  distinct _ := by simp
  each_whole _ := by simp [Faithful.whole]

instance : Faithful ContentScript where
  whole := Parts.whole
  decoded s := by
    have given : Fields.ofSyntax? ["matches", "js"] (encode s).toSyntax = some (Parts.fields s) :=
      Parts.ofSyntax?_encode s
    have patterns : (Parts.fields s).orElse "matches" [] = some s.patterns :=
      Parts.orElse_fields s [] (by simp [Parts.parts])
    have scripts : (Parts.fields s).orElse "js" [] = some s.scripts :=
      Parts.orElse_fields s [] (by simp [Parts.parts])
    simp only [decode?]
    rw [bind_of_eq_some given, bind_of_eq_some patterns, bind_of_eq_some scripts]
    rfl

instance : Parts Background where
  parts b := [("service_worker", b.serviceWorker.map encode), ("scripts", some (encode b.scripts))]
  encode_eq b := by
    simp only [encode, member_eq_present, memberIfSome_eq_present, present_append,
      List.cons_append, List.nil_append]
  distinct _ := by simp
  each_whole _ := by simp [Faithful.whole]

instance : Faithful Background where
  whole := Parts.whole
  decoded b := by
    have given : Fields.ofSyntax? ["service_worker", "scripts"] (encode b).toSyntax =
        some (Parts.fields b) :=
      Parts.ofSyntax?_encode b
    have serviceWorker : (Parts.fields b).optional "service_worker" = some b.serviceWorker :=
      Parts.optional_fields b (by simp [Parts.parts])
    have scripts : (Parts.fields b).orElse "scripts" [] = some b.scripts :=
      Parts.orElse_fields b [] (by simp [Parts.parts])
    simp only [decode?]
    rw [bind_of_eq_some given, bind_of_eq_some serviceWorker, bind_of_eq_some scripts]
    rfl

instance : Parts Manifest where
  parts m := [("manifest_version", some (encode m.formatVersion)),
    ("declared_version", m.declaredVersion.map encode), ("name", m.name.map encode),
    ("version", m.version.map encode), ("description", m.description.map encode),
    ("permissions", some (encode m.permissions)),
    ("optional_permissions", some (encode m.optionalPermissions)),
    ("host_permissions", some (encode m.hostPermissions)),
    ("content_scripts", some (encode m.contentScripts)),
    ("content_security_policy", some (encode m.contentSecurityPolicy)),
    ("embedded_urls", some (encode m.embeddedUrls)), ("background", m.background.map encode),
    ("web_accessible_resources", some (encode m.webAccessibleResources))]
  encode_eq m := by
    simp only [encode, member_eq_present, memberIfSome_eq_present, present_append,
      List.cons_append, List.nil_append]
  distinct _ := by simp
  each_whole _ := by simp [Faithful.whole]

instance : Faithful Manifest where
  whole := Parts.whole
  decoded m := by
    have given : Fields.ofSyntax? Manifest.fields (encode m).toSyntax = some (Parts.fields m) :=
      Parts.ofSyntax?_encode m
    have formatVersion : (Parts.fields m).orElse "manifest_version" 0 = some m.formatVersion :=
      Parts.orElse_fields m 0 (by simp [Parts.parts])
    have declaredVersion : (Parts.fields m).optional "declared_version" = some m.declaredVersion :=
      Parts.optional_fields m (by simp [Parts.parts])
    have name : (Parts.fields m).optional "name" = some m.name :=
      Parts.optional_fields m (by simp [Parts.parts])
    have version : (Parts.fields m).optional "version" = some m.version :=
      Parts.optional_fields m (by simp [Parts.parts])
    have description : (Parts.fields m).optional "description" = some m.description :=
      Parts.optional_fields m (by simp [Parts.parts])
    have permissions : (Parts.fields m).orElse "permissions" [] = some m.permissions :=
      Parts.orElse_fields m [] (by simp [Parts.parts])
    have optionalPermissions :
        (Parts.fields m).orElse "optional_permissions" [] = some m.optionalPermissions :=
      Parts.orElse_fields m [] (by simp [Parts.parts])
    have hostPermissions :
        (Parts.fields m).orElse "host_permissions" [] = some m.hostPermissions :=
      Parts.orElse_fields m [] (by simp [Parts.parts])
    -- Content scripts are always written; without any, the member is null.
    have contentScripts : (Parts.fields m).optional "content_scripts" = some m.contentScripts :=
      Parts.orElse_fields m none (by simp [Parts.parts])
    have contentSecurityPolicy :
        (Parts.fields m).orElse "content_security_policy" [] = some m.contentSecurityPolicy :=
      Parts.orElse_fields m [] (by simp [Parts.parts])
    have embeddedUrls :
        (Parts.fields m).orElse "embedded_urls" TextSet.empty = some m.embeddedUrls :=
      Parts.orElse_fields m TextSet.empty (by simp [Parts.parts])
    have background : (Parts.fields m).optional "background" = some m.background :=
      Parts.optional_fields m (by simp [Parts.parts])
    have webAccessibleResources :
        (Parts.fields m).orElse "web_accessible_resources" [] = some m.webAccessibleResources :=
      Parts.orElse_fields m [] (by simp [Parts.parts])
    simp only [decode?]
    rw [bind_of_eq_some given, bind_of_eq_some formatVersion, bind_of_eq_some declaredVersion,
      bind_of_eq_some name, bind_of_eq_some version, bind_of_eq_some description,
      bind_of_eq_some permissions, bind_of_eq_some optionalPermissions,
      bind_of_eq_some hostPermissions, bind_of_eq_some contentScripts,
      bind_of_eq_some contentSecurityPolicy, bind_of_eq_some embeddedUrls,
      bind_of_eq_some background, bind_of_eq_some webAccessibleResources]
    rfl

theorem isBlank_of_isIdChar {c : Char} (idChar : isIdChar c) : Text.isBlank c = false := by
  have ranges : 97 ≤ c.toNat ∧ c.toNat ≤ 122 ∨ 65 ≤ c.toNat ∧ c.toNat ≤ 90 ∨
      48 ≤ c.toNat ∧ c.toNat ≤ 57 := by
    simpa [isIdChar, Char.le_def, UInt32.le_iff_toNat_le, or_assoc] using idChar
  exact Text.isBlank_of_visible (by omega) (by omega)

instance : Faithful ExtensionId where
  whole id := .string id.text
  decoded id := by
    have visible : ∀ c ∈ id.text.toList, Text.isBlank c = false := fun c member =>
      isBlank_of_isIdChar (List.all_eq_true.mp id.chars_text c member)
    have read : ExtensionId.ofText id.text = .ok id := by
      simp only [ExtensionId.ofText, Text.trim_of_no_blank visible, String.ofList_toList,
        ExtensionId.ofExact?_text]
    simp only [encode, Value.toSyntax, decode?, Option.bind_eq_bind, Option.bind_some, read]
    rfl

end ExtensionAudit
