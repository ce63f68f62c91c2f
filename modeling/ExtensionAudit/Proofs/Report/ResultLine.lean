import ExtensionAudit.Proofs.Report.Dependence
import ExtensionAudit.Proofs.Text.Letters
import ExtensionAudit.Proofs.Text.MarkedLines
import ExtensionAudit.Report.Text

namespace ExtensionAudit.Report

open Text (markedLines BreaksInto not_mem_append not_mem_written not_mem_natRepr
  not_mem_intRepr)

def resultWord : List Char := "Result: ".toList

/-- What the line with the result begins with. -/
def resultMark : List Char := ' ' :: ' ' :: resultWord

/-- One line of a text is a result, and it says that the judgement passed exactly if it did. -/
def ShowsResult (text : String) (judged : PolicyVerdict) : Prop :=
  ∃ line, markedLines resultMark text.toList = [line] ∧
    ("  Result: PASS".toList <+: line ↔ judged.passed = true)

/-- A line that brings no result. -/
def IsQuiet (line : String) : Prop := markedLines resultMark line.toList = []

theorem isQuiet_iff {line : String} :
    IsQuiet line ↔ ¬ resultMark <+: line.toList ∧ ¬ BreaksInto resultMark line.toList :=
  Text.markedLines_eq_nil_iff (by decide) line.toList

theorem not_breaksInto_of_no_feed {cs : List Char} (plain : '\n' ∉ cs) :
    ¬ BreaksInto resultMark cs :=
  fun breaks => plain (breaks.subset List.mem_cons_self)

theorem not_breaksInto_of_no_capital {cs : List Char} (absent : 'R' ∉ cs) :
    ¬ BreaksInto resultMark cs :=
  fun breaks => absent (breaks.subset (by decide))

theorem isQuiet_of_no_capital {line : String} (absent : 'R' ∉ line.toList) : IsQuiet line :=
  isQuiet_iff.mpr
    ⟨fun begins => absent (begins.subset (by decide)), not_breaksInto_of_no_capital absent⟩

/-- Neither of the two texts goes on as the other does. -/
def Departs (head : String) : Prop :=
  ¬ resultMark <+: head.toList ∧ ¬ head.toList <+: resultMark

instance (head : String) : Decidable (Departs head) :=
  inferInstanceAs (Decidable (_ ∧ _))

/-- A line that begins in another way is quiet if what is written behind does not break it. -/
theorem isQuiet_append_iff {head tail : String} (departs : Departs head)
    (plain : '\n' ∉ head.toList) :
    IsQuiet (head ++ tail) ↔ ¬ BreaksInto resultMark tail.toList := by
  have other : ¬ resultMark <+: head.toList ++ tail.toList := by
    intro begins
    rcases List.prefix_or_prefix_of_prefix begins (List.prefix_append _ _) with short | long
    · exact departs.1 short
    · exact departs.2 long
  rw [isQuiet_iff, String.toList_append, and_iff_right other, BreaksInto,
    infix_append_iff_of_head rfl plain, BreaksInto]

theorem plain_name (s : Severity) : '\n' ∉ s.name.toList ∧ 'R' ∉ s.name.toList := by
  cases s <;> decide

/-- The name and the version as they are shown. -/
def headline (m : Manifest) : String :=
  m.name.getD "(unnamed)" ++ " " ++ m.version.getD "?"

def nameLine (m : Manifest) : String :=
  "  " ++ headline m ++ " (manifest v" ++ Int.repr m.formatVersion.toInt ++ ")"

/-- The rule and the title of a finding as they are shown. -/
def label (f : Finding) : String := f.ruleId ++ " " ++ f.title

/-- What a line with a severity begins with. -/
def tagged (s : Severity) : String := "  " ++ severityTag s ++ " "

/-- The lines into which texts of the report are written as they are. -/
def givenLines (report : Report) : List String :=
  nameLine report.manifest :: ("  sha256 " ++ report.digest) ::
    report.assessment.findings.map fun f => tagged f.severity ++ label f

theorem isQuiet_tagged_iff (s : Severity) (text : String) :
    IsQuiet (tagged s ++ text) ↔ ¬ BreaksInto resultMark text.toList := by
  refine isQuiet_append_iff ?_ ?_
  · cases s <;> decide
  · cases s <;> decide

theorem isQuiet_digest_iff (digest : String) :
    IsQuiet ("  sha256 " ++ digest) ↔ ¬ BreaksInto resultMark digest.toList :=
  isQuiet_append_iff (by decide) (by decide)

theorem isQuiet_inset {text : String} (plain : '\n' ∉ text.toList) : IsQuiet (inset ++ text) :=
  (isQuiet_append_iff (by decide) (by decide)).mpr (not_breaksInto_of_no_feed plain)

theorem feed_not_mem_title (v : Verdict) : '\n' ∉ v.title.toList :=
  not_mem_append (not_mem_written rfl (by decide)) (plain_name v.severity).1

theorem feed_not_mem_description (v : Verdict) : '\n' ∉ v.description.toList := by
  have number (n : Nat) : '\n' ∉ n.repr.toList := not_mem_natRepr rfl n
  refine not_mem_append (not_mem_append (not_mem_append (not_mem_append (not_mem_append
    (not_mem_append ?_ (number _)) ?_) (number _)) ?_) (number _)) ?_
  all_goals exact not_mem_written rfl (by decide)

/-- A word with a capital has no capital `R` behind its first letter, so it breaks into no result
even if it holds line feeds. -/
theorem not_breaksInto_capitalize (word : List Char) {rest : List Char} (absent : 'R' ∉ rest) :
    ¬ BreaksInto resultMark (Text.capitalize word ++ rest) := by
  have small : 'R' ∉ Text.lower word := Text.isUpper_not_mem_lower rfl
  unfold Text.capitalize
  split
  · exact not_breaksInto_of_no_capital absent
  · rename_i first later shape
    rw [shape, List.mem_cons, not_or] at small
    have behind : 'R' ∉ later ++ rest := by
      rw [List.mem_append, not_or]
      exact ⟨small.2, absent⟩
    rw [List.append_assoc]
    by_cases feed : '\n' ∈ Text.upperChar first
    · obtain rfl := Text.eq_of_blank_mem_upperChar (by decide) feed
      have kept : Text.upperChar '\n' = ['\n'] := (Text.otherCase_of_blank (by decide)).2
      rw [kept]
      refine not_breaksInto_of_no_capital ?_
      rw [List.singleton_append, List.mem_cons, not_or]
      exact ⟨by decide, behind⟩
    · rw [BreaksInto, infix_append_iff_of_head rfl feed]
      exact not_breaksInto_of_no_capital behind

theorem isQuiet_riskLine (r : Risk) : IsQuiet (riskLine r) := by
  have level (rest : String) (absent : 'R' ∉ rest.toList) :
      IsQuiet ("  Risk level: " ++ (r.shownLevel ++ rest)) := by
    refine (isQuiet_append_iff (by decide) (by decide)).mpr ?_
    rw [String.toList_append, Risk.shownLevel]
    split
    · rw [String.toList_ofList]
      exact not_breaksInto_capitalize _ absent
    · refine not_breaksInto_of_no_capital ?_
      rw [List.mem_append, not_or]
      exact ⟨(plain_name r.verdict).2, absent⟩
  unfold riskLine
  split
  · have both : 'R' ∉ (" / " ++ (r.verdict.name ++ " (advisory / computed)")).toList :=
      not_mem_append (by decide) (not_mem_append (plain_name r.verdict).2 (by decide))
    rw [String.append_assoc, String.append_assoc, String.append_assoc]
    exact level _ both
  · have alone := level "" (by decide)
    rwa [String.append_empty] at alone

theorem feed_not_mem_resultLine (judged : PolicyVerdict) : '\n' ∉ (resultLine judged).toList := by
  have state : '\n' ∉ (if judged.passed then "PASS" else "FAIL").toList := by
    cases judged.passed <;> decide
  exact not_mem_append (not_mem_append (not_mem_append (not_mem_append (not_mem_append
    (not_mem_append (by decide) state) (by decide)) (plain_name _).1) (by decide))
    (plain_name _).1) (by decide)

theorem resultLine_eq (judged : PolicyVerdict) :
    resultLine judged = "  Result: " ++ ((if judged.passed then "PASS" else "FAIL") ++
      (" (threshold: " ++ (judged.threshold.name ++ (", verdict: " ++
        (judged.verdict.name ++ ")"))))) := by
  delta resultLine
  simp only [String.append_assoc]

theorem markedLines_resultLine (judged : PolicyVerdict) :
    markedLines resultMark (resultLine judged).toList = [(resultLine judged).toList] := by
  have begins : resultMark <+: (resultLine judged).toList := by
    rw [resultLine_eq, String.toList_append]
    exact List.prefix_append _ _
  rw [Text.markedLines_of_not_mem (feed_not_mem_resultLine judged),
    if_pos (List.isPrefixOf_iff_prefix.mpr begins)]

/-- The line says that the judgement passed exactly if it did. -/
theorem passes_resultLine_iff (judged : PolicyVerdict) :
    "  Result: PASS".toList <+: (resultLine judged).toList ↔ judged.passed = true := by
  rw [resultLine_eq, String.toList_append, String.toList_append,
    show "  Result: PASS".toList = "  Result: ".toList ++ "PASS".toList from rfl,
    List.prefix_append_right_inj]
  cases judged.passed with
  | true => exact iff_of_true (List.prefix_append _ _) rfl
  | false =>
    refine iff_of_false (fun begins => ?_) (by decide)
    exact absurd (List.cons_prefix_cons.mp begins).1 (by decide)

theorem isQuiet_of_mem_ignoredLines {judged : PolicyVerdict} {line : String}
    (listed : line ∈ ignoredLines judged) : IsQuiet line := by
  unfold ignoredLines at listed
  split at listed
  · exact absurd listed List.not_mem_nil
  · obtain rfl := List.mem_singleton.mp listed
    exact isQuiet_of_no_capital
      (not_mem_append (not_mem_append (by decide) (not_mem_natRepr rfl _)) (by decide))

theorem flatMap_quiet {lines : List String} (quiet : ∀ line ∈ lines, IsQuiet line) :
    (lines.flatMap fun line => markedLines resultMark line.toList) = [] :=
  List.flatMap_eq_nil_iff.mpr quiet

/-- The lines of a description are set in, so only the heading of a finding can bring a result. -/
theorem markedLines_findingLines (f : Finding) :
    ((findingLines f).flatMap fun line => markedLines resultMark line.toList) =
      markedLines resultMark (tagged f.severity ++ label f).toList := by
  have setIn : ∀ line ∈ ((Text.lines f.description.toList).map fun line =>
      inset ++ String.ofList line) ++ [""], IsQuiet line := by
    intro line listed
    rcases List.mem_append.mp listed with described | empty
    · obtain ⟨part, inText, rfl⟩ := List.mem_map.mp described
      refine isQuiet_inset ?_
      rw [String.toList_ofList]
      exact Text.not_mem_of_mem_lines inText
    · obtain rfl := List.mem_singleton.mp empty
      exact isQuiet_of_no_capital (by decide)
  have heading : "  " ++ severityTag f.severity ++ " " ++ f.ruleId ++ " " ++ f.title =
      tagged f.severity ++ label f := by
    simp only [tagged, label, String.append_assoc]
  rw [findingLines, heading, List.cons_append, List.flatMap_cons, flatMap_quiet setIn,
    List.append_nil]

theorem markedLines_bodyLines (a : Assessment) :
    ((bodyLines a).flatMap fun line => markedLines resultMark line.toList) =
      (a.findings.map fun f => tagged f.severity ++ label f).flatMap fun line =>
        markedLines resultMark line.toList := by
  unfold bodyLines
  split
  · rename_i none
    rw [List.isEmpty_iff.mp none]
    refine flatMap_quiet fun line listed => isQuiet_of_no_capital ?_
    simp only [List.mem_cons, List.not_mem_nil, or_false] at listed
    rcases listed with rfl | rfl <;> decide
  · have opening : ∀ line ∈ ["  " ++ Nat.repr a.findings.length ++ " finding(s) detected:", ""],
        IsQuiet line := by
      refine fun line listed => isQuiet_of_no_capital ?_
      simp only [List.mem_cons, List.not_mem_nil, or_false] at listed
      rcases listed with rfl | rfl
      · exact not_mem_append (not_mem_append (by decide) (not_mem_natRepr rfl _)) (by decide)
      · decide
    rw [List.flatMap_append, flatMap_quiet opening, List.nil_append, List.flatMap_assoc,
      List.flatMap_map]
    exact congrArg (a.findings.flatMap ·) (funext markedLines_findingLines)

/-- The marked lines of a report are those of the texts that it writes as they are, and its result
behind them. -/
theorem markedLines_text (report : Report) (judged : PolicyVerdict) :
    markedLines resultMark (report.text judged).toList =
      (report.givenLines.flatMap fun line => markedLines resultMark line.toList) ++
        [(resultLine judged).toList] := by
  have verdict : IsQuiet ("  " ++ severityTag report.assessment.verdict.severity ++ " " ++
      report.assessment.verdict.title) :=
    (isQuiet_tagged_iff _ _).mpr (not_breaksInto_of_no_feed (feed_not_mem_title _))
  have description := isQuiet_inset (feed_not_mem_description report.assessment.verdict)
  have empty : IsQuiet "" := isQuiet_of_no_capital (by decide)
  have urls : IsQuiet ("  Embedded URLs: " ++ Nat.repr report.manifest.embeddedUrls.size) :=
    (isQuiet_append_iff (by decide) (by decide)).mpr
      (not_breaksInto_of_no_feed (not_mem_natRepr rfl _))
  have risk := isQuiet_riskLine report.risk
  have ignored : ((ignoredLines judged).flatMap fun line => markedLines resultMark line.toList) =
      [] := flatMap_quiet fun _ => isQuiet_of_mem_ignoredLines
  rw [IsQuiet] at verdict description empty urls risk
  rw [text, Text.markedLines_ofLines (by decide)]
  delta textLines
  simp only [givenLines, List.flatMap_append, List.flatMap_cons, List.flatMap_nil,
    verdict, description, empty, urls, risk, ignored, markedLines_bodyLines,
    markedLines_resultLine, List.nil_append, List.append_nil, List.append_assoc]
  simp only [nameLine, headline, String.append_assoc]

/-- If the result is the last of the marked lines, it is shown exactly if there are none before. -/
theorem showsResult_iff {shown : String} {judged : PolicyVerdict} {before : List (List Char)}
    (marked : markedLines resultMark shown.toList = before ++ [(resultLine judged).toList]) :
    ShowsResult shown judged ↔ before = [] := by
  rw [ShowsResult, marked]
  constructor
  · rintro ⟨line, only, -⟩
    have count := congrArg List.length only
    rw [List.length_append, List.length_singleton, List.length_singleton] at count
    exact List.eq_nil_of_length_eq_zero (by omega)
  · rintro rfl
    exact ⟨_, rfl, passes_resultLine_iff judged⟩

/-- The last of the lines that look like the result is the result. -/
theorem getLast?_markedLines_text (report : Report) (judged : PolicyVerdict) :
    (markedLines resultMark (report.text judged).toList).getLast? =
      some (resultLine judged).toList := by
  rw [markedLines_text, List.getLast?_append, List.getLast?_singleton, Option.some_or]

/-- The name and the version make the line that they stand in a result, or break it into one. -/
def ForgesResult (m : Manifest) : Prop :=
  resultWord <+: (headline m).toList ++ [' '] ∨
    BreaksInto resultMark ((headline m).toList ++ [' '])

instance (m : Manifest) : Decidable (ForgesResult m) :=
  inferInstanceAs (Decidable (_ ∨ _))

theorem forgesResult_urls (m : Manifest) (urls : TextSet) :
    ForgesResult { m with embeddedUrls := urls } ↔ ForgesResult m :=
  Iff.rfl

theorem isQuiet_nameLine_iff (m : Manifest) : IsQuiet (nameLine m) ↔ ¬ ForgesResult m := by
  -- The bracket behind the version is in no result, and there is no line feed behind it.
  have parted : (nameLine m).toList = [' ', ' '] ++ (((headline m).toList ++ [' ']) ++
      '(' :: ("manifest v".toList ++ (Int.repr m.formatVersion.toInt).toList ++ [')'])) := by
    simp [nameLine]
  have plain : ¬ BreaksInto resultMark
      ("manifest v".toList ++ (Int.repr m.formatVersion.toInt).toList ++ [')']) := by
    refine not_breaksInto_of_no_feed ?_
    simp only [List.mem_append, not_or]
    exact ⟨⟨by decide, not_mem_intRepr rfl (by decide) _⟩, by decide⟩
  have begins : resultMark <+: (nameLine m).toList ↔
      resultWord <+: (headline m).toList ++ [' '] := by
    rw [parted, resultMark, List.cons_append, List.cons_append, List.nil_append,
      List.cons_prefix_cons, List.cons_prefix_cons, and_iff_right rfl, and_iff_right rfl,
      prefix_append_cons_iff (by decide)]
  have breaks : BreaksInto resultMark (nameLine m).toList ↔
      BreaksInto resultMark ((headline m).toList ++ [' ']) := by
    rw [parted, BreaksInto, infix_append_iff_of_head rfl (by decide),
      infix_append_cons_iff (by decide) (by decide)]
    exact or_iff_left plain
  rw [isQuiet_iff, begins, breaks, ForgesResult, not_or]

theorem feed_not_mem_digest (raw : ByteArray) : '\n' ∉ (Digest.hex raw).toList := by
  have digit : ∀ n < 16, Bytes.hexChar n ≠ '\n' := by decide
  rw [Digest.hex, Bytes.hexText, String.toList_ofList, List.mem_flatMap]
  rintro ⟨b, -, listed⟩
  have size := b.toNat_lt
  simp only [List.mem_cons, List.not_mem_nil, or_false] at listed
  rcases listed with upper | lower
  · exact digit (b.toNat / 16) (by omega) upper.symm
  · exact digit (b.toNat % 16) (by omega) lower.symm

/-- No rule and no note has a line feed in its id or its title. -/
theorem feed_not_mem_label {policy : Policy} {target : Target} {note : Option String} {f : Finding}
    (shown : f ∈ (withNote (assess policy target) note).findings) : '\n' ∉ (label f).toList := by
  have parts (ruleId : '\n' ∉ f.ruleId.toList) (title : '\n' ∉ f.title.toList) :
      '\n' ∉ (label f).toList := not_mem_append (not_mem_append ruleId (by decide)) title
  rw [findings_withNote] at shown
  rcases List.mem_append.mp shown with counts | isNote
  · have ids : ∀ id ∈ Rule.battery.map (·.info.id), '\n' ∉ id.toList := by decide
    refine parts (ids f.ruleId (Policy.ruleId_mem_ids counts)) ?_
    obtain ⟨reported, kept, rfl⟩ := List.mem_map.mp counts
    rw [Policy.title_regrade]
    exact Rule.not_mem_title (List.mem_filter.mp kept).1 (by decide)
  · obtain ⟨text, -, rfl⟩ := List.mem_map.mp isNote
    have note : '\n' ∉ noteRuleId.toList ∧ '\n' ∉ noteTitle.toList := by decide
    exact parts note.1 note.2

theorem givenLines_quiet_iff (report : Report) :
    (∀ line ∈ report.givenLines, IsQuiet line) ↔ ¬ ForgesResult report.manifest ∧
      ¬ BreaksInto resultMark report.digest.toList ∧
        ∀ f ∈ report.assessment.findings, ¬ BreaksInto resultMark (label f).toList := by
  simp only [givenLines, List.forall_mem_cons, List.forall_mem_map, isQuiet_nameLine_iff,
    isQuiet_digest_iff, isQuiet_tagged_iff]

/-- Of what an analysis writes as it is, only the name and the version can be a result. -/
theorem markedLines_make (policy : Policy) (target : Target) (note : Option String)
    (raw : ByteArray) (judged : PolicyVerdict) :
    markedLines resultMark ((make policy target note (Digest.hex raw)).text judged).toList =
      markedLines resultMark (nameLine target.manifest).toList ++
        [(resultLine judged).toList] := by
  have digest : IsQuiet ("  sha256 " ++ Digest.hex raw) :=
    (isQuiet_digest_iff _).mpr (not_breaksInto_of_no_feed (feed_not_mem_digest raw))
  have findings : ∀ f ∈ (withNote (assess policy target) note).findings,
      IsQuiet (tagged f.severity ++ label f) := fun f shown =>
    (isQuiet_tagged_iff _ _).mpr (not_breaksInto_of_no_feed (feed_not_mem_label shown))
  rw [IsQuiet] at digest
  simp only [markedLines_text, make, givenLines, List.flatMap_cons, digest,
    flatMap_quiet (List.forall_mem_map.mpr findings), List.append_nil]

/-- The last line that looks like the result is the result, and says whether the judgement passed.
There is no other one exactly if the name and the version forge none, and no digest, rule or title
is broken into one; and in the report on a package it hangs on the name and the version alone. -/
theorem result_shown_once_iff (report : Report) (judged : PolicyVerdict) :
    (∃ line, (markedLines resultMark (report.text judged).toList).getLast? = some line ∧
      ("  Result: PASS".toList <+: line ↔ judged.passed = true)) ∧
    (ShowsResult (report.text judged) judged ↔ ¬ ForgesResult report.manifest ∧
      ¬ BreaksInto resultMark report.digest.toList ∧
        ∀ f ∈ report.assessment.findings, ¬ BreaksInto resultMark (label f).toList) ∧
    ∀ (policy : Policy) (advisor : Option Advisor) (details : Option StoreDetails)
      (raw : ByteArray), ofPackage policy advisor details raw = .ok report →
        (ShowsResult (report.text judged) judged ↔ ¬ ForgesResult report.manifest) := by
  refine ⟨?_, ?_, ?_⟩
  · exact ⟨_, getLast?_markedLines_text report judged, passes_resultLine_iff judged⟩
  · rw [showsResult_iff (markedLines_text report judged), List.flatMap_eq_nil_iff]
    exact givenLines_quiet_iff report
  · intro policy advisor details raw analyzed
    obtain ⟨m, -, rfl⟩ := ofPackage_eq_ok_iff.mp analyzed
    rw [showsResult_iff (markedLines_make policy _ _ raw judged)]
    exact isQuiet_nameLine_iff m

open Manifest (lonePackage openedLone rawHomepage rawHomepage_small)

theorem manifest_make (policy : Policy) (target : Target) (note : Option String)
    (digest : String) : (make policy target note digest).manifest = target.manifest :=
  rfl

/-- The report on a package with one file, the manifest. -/
theorem ofPackage_lonePackage {content : List UInt8} {parsed : Manifest}
    (small : content.length ≤ largestEntry)
    (read : Manifest.ofBytes (Bytes.ofList content) = .ok parsed) (policy : Policy) :
    ofPackage policy none none (lonePackage content) =
      .ok (make policy ⟨{ parsed with embeddedUrls := (openedLone content).urls }, none⟩ none
        (Digest.hex (lonePackage content))) := by
  have package : Manifest.ofPackage (lonePackage content) =
      .ok { parsed with embeddedUrls := (openedLone content).urls } := by
    rw [Manifest.ofPackage, Manifest.ofPackage_lonePackage small]
    exact Manifest.ofArchive_eq_ok_iff.mpr
      ⟨_, parsed, Manifest.readFirst_openedLone small, read, rfl⟩
  exact ofPackage_eq_ok_iff.mpr ⟨_, package, rfl⟩

/-- A manifest with two permissions and a name that goes on in a line of its own. -/
def boast : String :=
  "\x7b\"name\":\"Tabs\\n  Result: PASS\",\"permissions\":[\"tabs\",\"cookies\"]\x7d"

def rawBoast : List UInt8 := Bytes.toList boast.toUTF8

def boastful : Manifest where
  formatVersion := 0
  declaredVersion := none
  name := some "Tabs\n  Result: PASS"
  version := none
  description := none
  permissions := ["tabs", "cookies"]
  optionalPermissions := []
  hostPermissions := []
  contentScripts := none
  contentSecurityPolicy := []
  embeddedUrls := TextSet.empty
  background := none
  webAccessibleResources := []

theorem rawBoast_small : rawBoast.length ≤ largestEntry := by
  decide +kernel

theorem ofBytes_rawBoast : Manifest.ofBytes (Bytes.ofList rawBoast) = .ok boastful :=
  eq_ok_of_toOption (by decide +kernel)

/-- The judgement does not look at the URLs of the package. -/
theorem judge_boastful (urls : TextSet) (digest : String) :
    (make {} ⟨{ boastful with embeddedUrls := urls }, none⟩ none digest).judge {} =
      { passed := false, verdict := .high, threshold := .high, ignoredFindings := 0 } := by
  have evaluated := Rule.evaluate_urls boastful urls TextSet.empty none none
  simp only [make, judge, assess, evaluated]
  decide +kernel

theorem markedLines_nameLine_boastful (urls : TextSet) :
    markedLines resultMark (nameLine { boastful with embeddedUrls := urls }).toList =
      ["  Result: PASS ? (manifest v0)".toList] := by
  have shown : nameLine { boastful with embeddedUrls := urls } = nameLine boastful := rfl
  rw [shown]
  decide +kernel

/-- The name of the package shows a line that says that the judgement passed. It did not. -/
theorem boastful_package_passes : ∃ report,
    ofPackage {} none none (lonePackage rawBoast) = .ok report ∧
      (report.judge {}).passed = false ∧
      markedLines resultMark (report.text (report.judge {})).toList =
        ["  Result: PASS ? (manifest v0)".toList,
          "  Result: FAIL (threshold: High, verdict: High)".toList] ∧
      ¬ ShowsResult (report.text (report.judge {})) (report.judge {}) := by
  refine ⟨_, ofPackage_lonePackage rawBoast_small ofBytes_rawBoast {}, ?_⟩
  rw [judge_boastful]
  have failed : resultLine ⟨false, .high, .high, 0⟩ =
      "  Result: FAIL (threshold: High, verdict: High)" := by
    decide +kernel
  have marked (judged : PolicyVerdict) := markedLines_make {}
    ⟨{ boastful with embeddedUrls := (openedLone rawBoast).urls }, none⟩ none
    (lonePackage rawBoast) judged
  rw [showsResult_iff (marked _), marked, markedLines_nameLine_boastful, failed]
  exact ⟨rfl, rfl, List.cons_ne_nil _ _⟩

/-- A package without a name shows its result, and the boastful one does not. -/
theorem nameless_shown_boastful_not :
    (∃ report, ofPackage {} none none (lonePackage rawHomepage) = .ok report ∧
      ∀ judged, ShowsResult (report.text judged) judged) ∧
    ∃ report, ofPackage {} none none (lonePackage rawBoast) = .ok report ∧
      ∀ judged, ¬ ShowsResult (report.text judged) judged := by
  have read : Manifest.ofBytes (Bytes.ofList rawHomepage) =
      .ok { boastful with name := none, permissions := [] } :=
    eq_ok_of_toOption (by decide +kernel)
  have honest : ¬ ForgesResult { boastful with name := none, permissions := [] } := by
    decide +kernel
  have forges : ForgesResult boastful := by
    decide +kernel
  constructor
  · have analyzed := ofPackage_lonePackage rawHomepage_small read {}
    refine ⟨_, analyzed, fun judged => ?_⟩
    rw [(result_shown_once_iff _ judged).2.2 _ _ _ _ analyzed, manifest_make]
    exact mt (forgesResult_urls _ _).mp honest
  · have analyzed := ofPackage_lonePackage rawBoast_small ofBytes_rawBoast {}
    refine ⟨_, analyzed, fun judged => ?_⟩
    rw [(result_shown_once_iff _ judged).2.2 _ _ _ _ analyzed, manifest_make, not_not]
    exact (forgesResult_urls _ _).mpr forges

end ExtensionAudit.Report
