import ExtensionAudit.Proofs.Report.Notes
import ExtensionAudit.Proofs.Url.Redaction

namespace ExtensionAudit

open Text (LeftmostLongest isBlank replaceSpans)
open Url (HasAddress IsRun hasAddress_append_cons_iff not_hasAddress_redactChars)

theorem Url.HasAddress.slash_mem {cs : List Char} (has : HasAddress cs) : '/' ∈ cs := by
  obtain ⟨scheme, known, c, -, occurs⟩ := has
  have slash : ∀ scheme ∈ redactedSchemes, '/' ∈ scheme := by decide
  exact occurs.subset (List.mem_append_left [c] (slash scheme known))

theorem Url.isBlank_newline : isBlank '\n' = true := by
  decide

/-- Parts that are set apart by empty lines hold what addresses they hold alone. -/
theorem Url.hasAddress_intercalate_iff (parts : List String) :
    HasAddress ("\n\n".intercalate parts).toList ↔ ∃ part ∈ parts, HasAddress part.toList := by
  have apart (before after : List Char) :
      HasAddress (before ++ ("\n\n".toList ++ after)) ↔ HasAddress before ∨ HasAddress after := by
    rw [show "\n\n".toList ++ after = '\n' :: ([] ++ '\n' :: after) from rfl,
      hasAddress_append_cons_iff isBlank_newline, hasAddress_append_cons_iff isBlank_newline,
      or_iff_right (fun has : HasAddress [] => absurd has.slash_mem List.not_mem_nil)]
  induction parts with
  | nil => simpa using fun has : HasAddress [] => absurd has.slash_mem List.not_mem_nil
  | cons part parts ih =>
    cases parts with
    | nil => simp
    | cons next parts =>
      rw [String.intercalate_cons_cons, String.toList_append, String.toList_append,
        List.append_assoc, List.exists_mem_cons_iff]
      exact (apart _ _).trans (or_congr_right ih)

theorem Rule.slash_not_mem_title {target : Target} {f : Finding} (reported : f ∈ evaluate target) :
    '/' ∉ f.title.toList :=
  not_mem_title reported (by decide)

theorem Severity.slash_not_mem_name (s : Severity) : '/' ∉ s.name.toList := by
  cases s <;> decide

theorem Verdict.slash_not_mem_title (v : Verdict) : '/' ∉ v.title.toList := by
  have listed : v.title.toList = "Overall Risk: ".toList ++ v.severity.name.toList :=
    String.toList_append
  rw [listed, List.mem_append, not_or]
  exact ⟨by simp, v.severity.slash_not_mem_name⟩

/-- A policy changes no title, and the verdict's own finding goes before those of the rules. -/
theorem Report.slash_not_mem_title {policy : Policy} {target : Target} {f : Finding}
    (shown : f ∈ (assess policy target).flat) : '/' ∉ f.title.toList := by
  rcases List.mem_cons.mp shown with rfl | counts
  · exact Verdict.slash_not_mem_title _
  · obtain ⟨reported, kept, rfl⟩ := List.mem_map.mp counts
    rw [Policy.title_regrade]
    exact Rule.slash_not_mem_title (List.mem_filter.mp kept).1

namespace Advice

/-- The part of a prompt behind the heading of the findings. -/
def findingsText (a : Assessment) : String :=
  "\n\n".intercalate (a.flat.map promptFinding) ++ "\n"

/-- What stands before the findings does not depend on them. -/
theorem exists_prompt_eq (m : Manifest) (details : Option StoreDetails) :
    ∃ opening, ∀ a, prompt m details a = opening ++ "Security Findings:\n" ++ findingsText a :=
  ⟨_, fun _ => String.append_assoc⟩

theorem not_hasAddress_promptFinding {f : Finding} (plain : '/' ∉ f.title.toList) :
    ¬ HasAddress (promptFinding f).toList := by
  have head : ¬ HasAddress (f.severity.name ++ ": " ++ f.title).toList := by
    intro has
    have slash := has.slash_mem
    rw [String.toList_append, String.toList_append, List.mem_append, List.mem_append] at slash
    rcases slash with (inName | inColon) | inTitle
    · exact f.severity.slash_not_mem_name inName
    · exact absurd inColon (by decide)
    · exact plain inTitle
  have shape : (promptFinding f).toList =
      (f.severity.name ++ ": " ++ f.title).toList ++
        '\n' :: Url.redactChars f.description.toList := by
    rw [promptFinding, Url.redact, String.toList_append, String.toList_append, String.toList_ofList,
      List.append_assoc]
    simp
  rw [shape]
  intro has
  exact ((hasAddress_append_cons_iff Url.isBlank_newline _ _).mp has).elim head
    (not_hasAddress_redactChars _)

theorem not_hasAddress_findingsText (policy : Policy) (target : Target) :
    ¬ HasAddress (findingsText (Report.assess policy target)).toList := by
  intro has
  rw [findingsText, String.toList_append] at has
  rcases (hasAddress_append_cons_iff Url.isBlank_newline _ []).mp has with has | has
  · obtain ⟨part, listed, has⟩ := (Url.hasAddress_intercalate_iff _).mp has
    obtain ⟨f, shown, rfl⟩ := List.mem_map.mp listed
    exact not_hasAddress_promptFinding (Report.slash_not_mem_title shown) has
  · exact absurd has.slash_mem List.not_mem_nil

end Advice

/-- Redaction puts a mark in place of the leftmost addresses, each up to the next blank, and no
address is left, neither in a redacted text nor in what a prompt says about the findings. -/
theorem redaction_leaves_no_address :
    (∀ text, ¬ HasAddress (Url.redact text).toList ∧
      Url.redact (Url.redact text) = Url.redact text ∧
      (∃ spans, LeftmostLongest IsRun text.toList 0 spans ∧
        (∀ span ∈ spans, ∀ c ∈ text.toList[span.stop]?, isBlank c = true) ∧
        (Url.redact text).toList = replaceSpans Url.redactionMark text.toList 0 spans) ∧
      ∀ url ∈ Url.literals (Url.redact text),
        "ftp://".toList <+: url.toList ∨ "file://".toList <+: url.toList) ∧
    ∀ m details, ∃ opening,
      (∀ a, Advice.prompt m details a =
        opening ++ "Security Findings:\n" ++ Advice.findingsText a) ∧
      ∀ policy, ¬ HasAddress (Advice.findingsText (Report.assess policy ⟨m, details⟩)).toList := by
  refine ⟨fun text => ⟨Url.not_hasAddress_redact text, Url.redact_redact text, ?_,
    fun url listed => Url.scheme_of_mem_literals_redact listed⟩, fun m details => ?_⟩
  · obtain ⟨spans, found, replaced⟩ := Url.redact_eq_replaceSpans text
    exact ⟨spans, found, fun span listed c next => Url.isBlank_of_stop found listed next, replaced⟩
  · obtain ⟨opening, parted⟩ := Advice.exists_prompt_eq m details
    exact ⟨opening, parted, fun policy => Advice.not_hasAddress_findingsText policy ⟨m, details⟩⟩

end ExtensionAudit
