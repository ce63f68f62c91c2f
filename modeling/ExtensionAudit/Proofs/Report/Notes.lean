import ExtensionAudit.Proofs.Rule.Reported
import ExtensionAudit.Proofs.Text.Written
import ExtensionAudit.Report

namespace ExtensionAudit

/-- The titles of the rules that report at most one finding. -/
def Rule.fixedTitles : List String :=
  ["Dangerous Permission Combination: webRequest + webRequestBlocking", "Broad Host Permissions",
    "Access to Sensitive Domains", "Broad Content Script Injection", "Older Manifest Version",
    "Unsafe WebAssembly Execution", "Unsafe JavaScript Evaluation"]

theorem Rule.title_permissionFinding? {permission : String} {f : Finding}
    (found : permissionFinding? permission = some f) :
    (∃ entry ∈ highRiskPermissions, f.title = "High-Risk Permission: " ++ entry.1) ∨
      ∃ entry ∈ mediumRiskPermissions, f.title = "Medium-Risk Permission: " ++ entry.1 := by
  by_cases high : permission ∈ highRiskNames
  · obtain ⟨entry, listed, rfl⟩ := List.mem_map.mp high
    exact Or.inl ⟨entry, listed, ((isPermissionFinding found).high high).2⟩
  · obtain ⟨medium, -, title⟩ := (isPermissionFinding found).medium high
    obtain ⟨entry, listed, rfl⟩ := List.mem_map.mp medium
    exact Or.inr ⟨entry, listed, title⟩

/-- A title is that of a permission in one of the tables, or one of the fixed titles. -/
theorem Rule.title_cases {target : Target} {f : Finding} (reported : f ∈ evaluate target) :
    (∃ entry ∈ highRiskPermissions, f.title = "High-Risk Permission: " ++ entry.1) ∨
      (∃ entry ∈ mediumRiskPermissions, f.title = "Medium-Risk Permission: " ++ entry.1) ∨
        f.title ∈ fixedTitles := by
  obtain ⟨rule, listed, found⟩ := List.mem_flatMap.mp reported
  simp only [battery, List.mem_cons, List.not_mem_nil, or_false] at listed
  rcases listed with rfl | rfl | rfl | rfl | rfl | rfl | rfl
  · obtain ⟨permission, -, found⟩ := List.mem_filterMap.mp found
    exact (title_permissionFinding? found).imp_right Or.inl
  -- Each of the others reports its one finding under its condition, or nothing.
  all_goals
    simp only [blockingRequests, broadHosts, sensitiveDomains, broadContentScripts, olderFormat,
      contentSecurityPolicy] at found
    repeat' split at found
    all_goals
      first
      | exact absurd found List.not_mem_nil
      | obtain rfl := List.mem_singleton.mp found
        exact Or.inr (Or.inr (by simp [fixedTitles]))

/-- The texts that titles are put together from. -/
def Rule.titleTexts : List String :=
  "High-Risk Permission: " :: "Medium-Risk Permission: " ::
    (highRiskNames ++ mediumRiskNames ++ fixedTitles)

theorem Rule.exists_texts_of_title {target : Target} {f : Finding}
    (reported : f ∈ evaluate target) :
    f.title ∈ titleTexts ∨
      ∃ opening ∈ titleTexts, ∃ name ∈ titleTexts, f.title = opening ++ name := by
  rcases title_cases reported with ⟨entry, listed, title⟩ | ⟨entry, listed, title⟩ | fixed
  · have named : entry.1 ∈ highRiskNames := List.mem_map_of_mem listed
    exact Or.inr ⟨_, by simp [titleTexts], _, by simp [titleTexts, named], title⟩
  · have named : entry.1 ∈ mediumRiskNames := List.mem_map_of_mem listed
    exact Or.inr ⟨_, by simp [titleTexts], _, by simp [titleTexts, named], title⟩
  · exact Or.inl (by simp [titleTexts, fixed])

/-- The signs of titles, beside letters and digits. -/
def Rule.titleSigns : List Char := [' ', ':', '-', '+', '<', '>', '_']

def Rule.isTitleChar (c : Char) : Bool := c.isAlphanum || titleSigns.contains c

theorem Rule.isTitleChar_of_mem_texts {text : String} (used : text ∈ titleTexts) :
    ∀ c ∈ text.toList, isTitleChar c = true := by
  simp only [titleTexts, highRiskNames, highRiskPermissions, mediumRiskNames,
    mediumRiskPermissions, fixedTitles, List.map_cons, List.map_nil, List.cons_append,
    List.nil_append, List.mem_cons, List.not_mem_nil, or_false] at used
  repeat
    rcases used with rfl | used
    · exact Text.forall_mem_written rfl (by decide)

/-- A character of another kind is in no title. -/
theorem Rule.not_mem_title {target : Target} {f : Finding} (reported : f ∈ evaluate target)
    {c : Char} (other : isTitleChar c = false) : c ∉ f.title.toList := by
  have absent : ∀ text ∈ titleTexts, c ∉ text.toList := by
    intro text used listed
    rw [isTitleChar_of_mem_texts used c listed] at other
    exact nomatch other
  rcases exists_texts_of_title reported with whole | ⟨opening, first, name, second, title⟩
  · exact absent f.title whole
  · rw [title]
    exact Text.not_mem_append (absent opening first) (absent name second)

theorem Rule.title_ne_noteTitle {target : Target} {f : Finding} (reported : f ∈ evaluate target) :
    f.title ≠ noteTitle := by
  intro same
  rcases title_cases reported with ⟨entry, -, title⟩ | ⟨entry, -, title⟩ | fixed
  · have chars := congrArg String.toList (title.symm.trans same)
    simp [noteTitle] at chars
  · have chars := congrArg String.toList (title.symm.trans same)
    simp [noteTitle] at chars
  · rw [same] at fixed
    exact absurd fixed (by decide)

theorem Policy.title_regrade (policy : Policy) (f : Finding) :
    (policy.regrade f).title = f.title := by
  unfold regrade
  split <;> rfl

theorem Policy.title_ne_noteTitle {policy : Policy} {target : Target} {f : Finding}
    (counts : f ∈ policy.apply (Rule.evaluate target)) : f.title ≠ noteTitle := by
  obtain ⟨reported, kept, rfl⟩ := List.mem_map.mp counts
  rw [title_regrade]
  exact Rule.title_ne_noteTitle (List.mem_filter.mp kept).1

/-- No finding of a rule is taken for a note, even where a policy has made it a remark. -/
theorem Policy.find?_note_eq_none (policy : Policy) (target : Target) :
    (policy.apply (Rule.evaluate target)).find?
      (fun f => f.severity == .info && f.title == noteTitle) = none := by
  refine List.find?_eq_none.mpr fun f counts remark => ?_
  simp only [Bool.and_eq_true, beq_iff_eq] at remark
  exact title_ne_noteTitle counts remark.2

/-- No rule looks at the page in the store. -/
theorem Rule.evaluate_details (m : Manifest) (page other : Option StoreDetails) :
    evaluate ⟨m, page⟩ = evaluate ⟨m, other⟩ :=
  rfl

/-- A report that is made from the same manifest, note and digest does not depend on the page. -/
theorem Report.make_details (policy : Policy) (m : Manifest) (page other : Option StoreDetails)
    (note : Option String) (digest : String) :
    make policy ⟨m, page⟩ note digest = make policy ⟨m, other⟩ note digest := by
  simp only [make, assess, Rule.evaluate_details m page other]

end ExtensionAudit
