import ExtensionAudit.Manifest.Authored
import ExtensionAudit.Proofs.Json.Tokens
import ExtensionAudit.Proofs.Rule.Reported

namespace ExtensionAudit

open Json (Value)

namespace Manifest

variable {word : List Char}

theorem infix_compactText_iff (quoted : IsQuotedWord word) (value : Value) :
    word <:+: value.compactText.toList ↔ value.Mentions word := by
  rw [Value.compactText, String.toList_ofList, Value.infix_compact_iff quoted]

theorem infix_directive_iff (quoted : IsQuotedWord word) (name : String) (value : Value) :
    word <:+: (directive name value).toList ↔ word <:+: name.toList ∨ value.Mentions word := by
  have joint (text : String) : word <:+: (name ++ ": " ++ text).toList ↔
      word <:+: name.toList ∨ word <:+: text.toList := by
    have shape : (name ++ ": " ++ text).toList = name.toList ++ ':' :: ([' '] ++ text.toList) := by
      simp
    rw [shape, infix_append_cons_iff (quoted.not_mem (by decide)) quoted.ne_nil,
      quoted.infix_append_iff (by decide)]
  cases value with
  | string text => rw [directive, joint, Value.mentions_string_iff]
  | _ => rw [directive, joint, infix_compactText_iff quoted]; simp

/-- The directives of a policy mention what the policy mentions. -/
theorem exists_directive_iff (quoted : IsQuotedWord word) (value : Value) :
    (∃ line ∈ directivesOf (some value), word <:+: line.toList) ↔ value.Mentions word := by
  have silent {bare : Value} (none : ∀ text, ¬ bare.Holds text)
      (shape : directivesOf (some bare) = []) :
      (∃ line ∈ directivesOf (some bare), word <:+: line.toList) ↔ bare.Mentions word := by
    simp [shape, Value.not_mentions none]
  have single {whole : Value} {line : String} (shape : directivesOf (some whole) = [line]) :
      (∃ line ∈ directivesOf (some whole), word <:+: line.toList) ↔ word <:+: line.toList := by
    simp [shape]
  cases value with
  | null =>
    have bare : ∀ text, ¬ Value.null.Holds text := by rintro text ⟨⟩
    exact silent bare rfl
  | bool value =>
    cases value with
    | false =>
      have bare : ∀ text, ¬ (Value.bool false).Holds text := by rintro text ⟨⟩
      exact silent bare rfl
    | true => rw [single rfl, infix_compactText_iff quoted]
  | number value => rw [single rfl, infix_compactText_iff quoted]
  | string text => rw [single rfl, Value.mentions_string_iff]
  | array items => rw [single rfl, infix_compactText_iff quoted]
  | object members =>
    rw [Value.mentions_object_iff]
    simp only [directivesOf, List.mem_map, exists_exists_and_eq_and, infix_directive_iff quoted]

end Manifest

namespace Rule

theorem isQuotedWord_unsafeEval : IsQuotedWord unsafeEval.toList := by
  simp [IsQuotedWord, unsafeEval]

theorem isQuotedWord_wasmUnsafeEval : IsQuotedWord wasmUnsafeEval.toList := by
  simp [IsQuotedWord, wasmUnsafeEval]

variable {root : List (String × Value)} {value : Value}

/-- A directive of the manifest contains a quoted word exactly if its authored policy mentions it.
-/
theorem any_contains_iff (declared : root.lookup "content_security_policy" = some value)
    {word : String} (quoted : IsQuotedWord word.toList) :
    (Manifest.ofMembers root).contentSecurityPolicy.any (contains · word) = true ↔
      value.Mentions word.toList := by
  rw [← Manifest.exists_directive_iff quoted, Manifest.ofMembers, declared, List.any_eq_true]
  simp only [contains_iff]

/-- No nesting hides a word that the rule looks for, and none is made up. The rule has a finding
exactly if a string or a key somewhere in the authored policy contains one of the two words; there
is one finding at most, and it is about WebAssembly exactly if one of them contains that word. -/
theorem reported_iff_mentions (declared : root.lookup "content_security_policy" = some value)
    (details : Option StoreDetails) :
    ((evaluate ⟨.ofMembers root, details⟩).filter (·.ruleId = "CRX-007") ≠ [] ↔
        value.Mentions unsafeEval.toList ∨ value.Mentions wasmUnsafeEval.toList) ∧
      ((evaluate ⟨.ofMembers root, details⟩).filter (·.ruleId = "CRX-007")).length ≤ 1 ∧
      ∀ f ∈ (evaluate ⟨.ofMembers root, details⟩).filter (·.ruleId = "CRX-007"),
        f.title = "Unsafe WebAssembly Execution" ↔ value.Mentions wasmUnsafeEval.toList := by
  have listed : contentSecurityPolicy ∈ battery := by simp [battery]
  have own : (evaluate ⟨.ofMembers root, details⟩).filter (·.ruleId = "CRX-007") =
      contentSecurityPolicy.findings ⟨.ofMembers root, details⟩ :=
    filter_evaluate listed
  have wasm := any_contains_iff declared isQuotedWord_wasmUnsafeEval
  have eval := any_contains_iff declared isQuotedWord_unsafeEval
  rw [own]
  simp only [contentSecurityPolicy, ← wasm, ← eval]
  by_cases mentionsWasm :
      (Manifest.ofMembers root).contentSecurityPolicy.any (contains · wasmUnsafeEval) = true
  · simp [mentionsWasm]
  · by_cases mentionsEval :
        (Manifest.ofMembers root).contentSecurityPolicy.any (contains · unsafeEval) = true
    · simp [mentionsWasm, mentionsEval]
    · simp [mentionsWasm, mentionsEval]

/-- A policy with a word in a key below an array, and another one in a string. -/
def nestedPolicy : Value :=
  .object [
    ("sandbox", .array [.number (.int 1), .object [("script-src 'wasm-unsafe-eval'", .null)]]),
    ("extension_pages", .string "script-src \"'unsafe-eval'\"")]

/-- The rule finds the word for WebAssembly in the nested key and reports it, not the other one. -/
theorem nestedPolicy_reported :
    [("content_security_policy", nestedPolicy)].lookup "content_security_policy" =
        some nestedPolicy ∧
      nestedPolicy.Mentions wasmUnsafeEval.toList ∧
      (evaluate ⟨.ofMembers [("content_security_policy", nestedPolicy)], none⟩).filter
        (·.ruleId = "CRX-007") ≠ [] ∧
      ∀ f ∈ (evaluate ⟨.ofMembers [("content_security_policy", nestedPolicy)], none⟩).filter
        (·.ruleId = "CRX-007"), f.title = "Unsafe WebAssembly Execution" := by
  have mentions : nestedPolicy.Mentions wasmUnsafeEval.toList := by
    refine ⟨"script-src 'wasm-unsafe-eval'", ?_, by decide⟩
    refine .member List.mem_cons_self (.item (List.mem_cons_of_mem _ List.mem_cons_self) ?_)
    exact .key List.mem_cons_self
  have declared : [("content_security_policy", nestedPolicy)].lookup "content_security_policy" =
      some nestedPolicy := rfl
  obtain ⟨found, -, titles⟩ := reported_iff_mentions declared none
  exact ⟨declared, mentions, found.mpr (Or.inr mentions), fun f reported =>
    (titles f reported).mpr mentions⟩

end Rule

end ExtensionAudit
