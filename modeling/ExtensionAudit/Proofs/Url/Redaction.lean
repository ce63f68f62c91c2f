import ExtensionAudit.Proofs.Text.Words
import ExtensionAudit.Proofs.Url.Literals

namespace ExtensionAudit.Url

open Text (IsLongestWord LeftmostLongest Span isBlank replaceSpans spansFrom)

/-- A scheme and what stands behind it up to a blank, at least one character. -/
def IsRun (run : List Char) : Prop :=
  ∃ scheme ∈ redactedSchemes, ∃ more, more ≠ [] ∧ (∀ c ∈ more, isBlank c = false) ∧
    run = scheme ++ more

/-- Somewhere in the text a scheme stands in front of a character that is no blank. -/
def HasAddress (cs : List Char) : Prop :=
  ∃ scheme ∈ redactedSchemes, ∃ c, isBlank c = false ∧ scheme ++ [c] <:+: cs

variable {cs behind run rest : List Char}

theorem isBlank_of_mem_scheme {scheme : List Char} (known : scheme ∈ redactedSchemes) {c : Char}
    (listed : c ∈ scheme) : isBlank c = false := by
  have visible : ∀ scheme ∈ redactedSchemes, scheme.all (!isBlank ·) = true := by decide
  simpa using List.all_eq_true.mp (visible scheme known) c listed

theorem redactedSchemes_subset : redactedSchemes ⊆ schemes := by
  intro scheme known
  have all : ∀ scheme ∈ redactedSchemes, scheme ∈ schemes := by decide
  exact all scheme known

theorem not_isRun_nil : ¬ IsRun [] := by
  rintro ⟨scheme, -, more, filled, -, shape⟩
  exact filled (List.append_eq_nil_iff.mp shape.symm).2

theorem isBlank_of_mem_run (isRun : IsRun run) {c : Char} (listed : c ∈ run) :
    isBlank c = false := by
  obtain ⟨scheme, known, more, -, visible, rfl⟩ := isRun
  rcases List.mem_append.mp listed with inScheme | later
  · exact isBlank_of_mem_scheme known inScheme
  · exact visible c later

/-- What stands behind an address that is found: the address is a run, and a blank follows, if
anything does. -/
theorem exists_run_of_afterAddress? (found : afterAddress? cs = some behind) :
    ∃ run, IsRun run ∧ cs = run ++ behind ∧ ∀ c ∈ behind.head?, isBlank c = true := by
  unfold afterAddress? at found
  split at found
  · exact nomatch found
  · rename_i scheme listed
    have known := List.mem_of_find?_eq_some listed
    have leads : scheme <+: cs :=
      List.isPrefixOf_iff_prefix.mp (by simpa using List.find?_some listed)
    obtain ⟨after, rfl⟩ := leads
    rw [List.drop_left] at found
    split at found
    · exact nomatch found
    · rename_i c rest
      split at found
      · exact nomatch found
      · rename_i visible
        obtain rfl := Option.some.inj found
        refine ⟨scheme ++ c :: rest.takeWhile (!isBlank ·), ⟨scheme, known, _, by simp, ?_, rfl⟩, ?_,
          fun d ends => ?_⟩
        · rintro d (_ | ⟨_, taken⟩)
          · exact Bool.eq_false_iff.mpr visible
          · simpa using List.mem_takeWhile_imp taken
        · rw [List.append_assoc, List.cons_append, List.takeWhile_append_dropWhile]
        · have blank := List.head?_dropWhile_not (!isBlank ·) rest
          rw [ends] at blank
          simpa using blank

theorem not_isRun_of_afterAddress? (none : afterAddress? cs = none) (starts : run <+: cs) :
    ¬ IsRun run := by
  rintro ⟨scheme, known, more, filled, visible, rfl⟩
  obtain ⟨c, more, rfl⟩ := List.exists_cons_of_ne_nil filled
  have leads : scheme <+: cs := (List.prefix_append _ _).trans starts
  unfold afterAddress? at none
  split at none
  · rename_i unknown
    exact List.find?_eq_none.mp unknown scheme known (List.isPrefixOf_iff_prefix.mpr leads)
  · rename_i other listed
    have nextLeads : other <+: cs :=
      List.isPrefixOf_iff_prefix.mp (by simpa using List.find?_some listed)
    obtain rfl := scheme_unique (redactedSchemes_subset (List.mem_of_find?_eq_some listed))
      (redactedSchemes_subset known) nextLeads leads
    obtain ⟨after, rfl⟩ := leads
    obtain ⟨rest, rfl⟩ := (List.prefix_append_right_inj _).mp starts
    rw [List.drop_left, List.cons_append] at none
    simp [visible c List.mem_cons_self] at none

/-- The run at the start of a text. -/
def run? (cs : List Char) : Option (List Char) :=
  (afterAddress? cs).map fun behind => cs.take (cs.length - behind.length)

theorem run?_eq_some (found : afterAddress? (run ++ behind) = some behind) :
    run? (run ++ behind) = some run := by
  rw [run?, found, Option.map_some, List.length_append, Nat.add_sub_cancel, List.take_left]

/-- A longer run would go over the blank. -/
theorem length_le_of_isRun {other : List Char} (ends : ∀ c ∈ behind.head?, isBlank c = true)
    (isOther : IsRun other) (starts : other <+: run ++ behind) : other.length ≤ run.length := by
  by_contra longer
  have within := List.prefix_of_prefix_length_le (List.prefix_append run behind) starts (by omega)
  obtain ⟨more, rfl⟩ := within
  rw [List.prefix_append_right_inj] at starts
  cases more with
  | nil => simp at longer
  | cons c more =>
    obtain ⟨tail, rfl⟩ := starts
    have blank := ends c rfl
    rw [isBlank_of_mem_run isOther (by simp)] at blank
    exact nomatch blank

theorem isLongestWord_run? (cs : List Char) : IsLongestWord IsRun cs (run? cs) := by
  cases found : afterAddress? cs with
  | none =>
    rw [run?, found]
    exact fun other starts => not_isRun_of_afterAddress? found starts
  | some behind =>
    obtain ⟨run, isRun, rfl, ends⟩ := exists_run_of_afterAddress? found
    rw [run?_eq_some found]
    exact ⟨List.prefix_append _ _, isRun, fun other starts isOther =>
      length_le_of_isRun ends isOther starts⟩

theorem HasAddress.of_isRun (isRun : IsRun run) (starts : run <+: cs) : HasAddress cs := by
  obtain ⟨scheme, known, more, filled, visible, rfl⟩ := isRun
  obtain ⟨c, more, rfl⟩ := List.exists_cons_of_ne_nil filled
  refine ⟨scheme, known, c, visible c List.mem_cons_self, ?_⟩
  exact (List.IsPrefix.trans ⟨more, by simp⟩ starts).isInfix

/-- Redaction goes on behind an address that is found, and behind a character where none is. -/
@[elab_as_elim]
theorem redaction_induction {motive : List Char → Prop} (nil : motive [])
    (found : ∀ c rest behind, afterAddress? (c :: rest) = some behind → motive behind →
      motive (c :: rest))
    (skip : ∀ c rest, afterAddress? (c :: rest) = none → motive rest → motive (c :: rest))
    (cs : List Char) : motive cs := by
  match cs with
  | [] => exact nil
  | c :: rest =>
    cases here : afterAddress? (c :: rest) with
    | some behind =>
      have shorter := length_of_afterAddress? here
      exact found c rest behind here (redaction_induction nil found skip behind)
    | none => exact skip c rest here (redaction_induction nil found skip rest)
termination_by cs.length
decreasing_by
  · exact Nat.lt_succ_self _
  · exact shorter

theorem redactAfter_eq_append (done cs : List Char) :
    redactAfter done cs = done.reverse ++ redactChars cs := by
  induction cs using redaction_induction generalizing done with
  | nil => rw [redactChars, redactAfter, redactAfter, List.reverse_nil, List.append_nil]
  | found c rest behind here ih =>
    have step : ∀ done, redactAfter done (c :: rest) =
        redactAfter (redactionMark.reverse ++ done) behind := by
      intro done
      rw [redactAfter]
      split <;> simp_all
    rw [redactChars, step, step, ih, ih (redactionMark.reverse ++ [])]
    simp
  | skip c rest here ih =>
    have step : ∀ done, redactAfter done (c :: rest) = redactAfter (c :: done) rest := by
      intro done
      rw [redactAfter]
      split <;> simp_all
    rw [redactChars, step, step, ih, ih [c]]
    simp

theorem redactChars_nil : redactChars [] = [] := by
  rw [redactChars, redactAfter, List.reverse_nil]

theorem redactChars_of_some {c : Char} (found : afterAddress? (c :: rest) = some behind) :
    redactChars (c :: rest) = redactionMark ++ redactChars behind := by
  have mark := redactAfter_eq_append (redactionMark.reverse ++ []) behind
  rw [redactChars, redactAfter]
  split <;> simp_all

theorem redactChars_of_none {c : Char} (none : afterAddress? (c :: rest) = none) :
    redactChars (c :: rest) = c :: redactChars rest := by
  have kept := redactAfter_eq_append [c] rest
  rw [redactChars, redactAfter]
  split <;> simp_all

/-- Redaction puts a mark in place of each run that is found. -/
theorem redactChars_drop (text : List Char) (place : Nat) :
    redactChars (text.drop place) =
      replaceSpans redactionMark text place (spansFrom run? place (text.drop place)) := by
  -- Both go through the text alike: behind an address, or behind one character.
  by_cases more : place < text.length
  · have parted := List.drop_eq_getElem_cons more
    cases here : afterAddress? (text.drop place) with
    | some behind =>
      obtain ⟨run, isRun, shape, -⟩ := exists_run_of_afterAddress? here
      have found : run? (text.drop place) = some run := by
        rw [shape] at here ⊢
        exact run?_eq_some here
      have size : run.length ≠ 0 := by
        intro empty
        rw [List.length_eq_zero_iff.mp empty] at isRun
        exact not_isRun_nil isRun
      have rest : text.drop (place + run.length) = behind := by
        rw [← List.drop_drop, shape, List.drop_left]
      rw [parted] at here found ⊢
      rw [redactChars_of_some here, spansFrom, found]
      simp only [List.drop_drop]
      rw [Nat.add_assoc, Nat.add_sub_of_le (Nat.one_le_iff_ne_zero.mpr size), replaceSpans,
        ← redactChars_drop, rest, List.extract_eq_take_drop, Nat.sub_self, List.take_zero,
        List.nil_append]
    | none =>
      have behind :=
        Text.leftmostLongest_spansFrom not_isRun_nil isLongestWord_run? text (place + 1) more
      have found : run? (text.drop place) = none := by rw [run?, here, Option.map_none]
      rw [parted] at here found ⊢
      rw [redactChars_of_none here, spansFrom, found]
      simp only
      rw [Text.replaceSpans_of_skip _ more fun span listed => (behind.inside span listed).1,
        ← redactChars_drop]
  · rw [List.drop_of_length_le (Nat.not_lt.mp more), redactChars_nil, spansFrom, replaceSpans,
      List.drop_of_length_le (Nat.not_lt.mp more)]
termination_by text.length - place
decreasing_by all_goals omega

/-- Up to its first mark a redacted text is the text itself, and in place of the mark stands a
character there that is no blank. -/
theorem exists_prefix_of_redactChars {word : List Char} {c : Char} (noMark : '[' ∉ word)
    (visible : isBlank c = false) (starts : word ++ [c] <+: redactChars cs) :
    ∃ d, isBlank d = false ∧ word ++ [d] <+: cs := by
  -- The word has no bracket, so it ends before the first mark, among characters that stay.
  induction cs using redaction_induction generalizing word with
  | nil =>
    rw [redactChars_nil] at starts
    exact absurd (List.prefix_nil.mp starts) (by simp)
  | found first rest behind here _ =>
    rw [redactChars_of_some here] at starts
    cases word with
    | nil =>
      obtain ⟨run, isRun, shape, -⟩ := exists_run_of_afterAddress? here
      cases run with
      | nil => exact absurd isRun not_isRun_nil
      | cons d run =>
        refine ⟨d, isBlank_of_mem_run isRun List.mem_cons_self, ?_⟩
        rw [shape]
        exact ⟨run ++ behind, rfl⟩
    | cons a word =>
      obtain ⟨rfl, -⟩ := List.cons_prefix_cons.mp starts
      exact absurd List.mem_cons_self noMark
  | skip first rest here ih =>
    rw [redactChars_of_none here] at starts
    cases word with
    | nil =>
      obtain ⟨rfl, -⟩ := List.cons_prefix_cons.mp starts
      exact ⟨c, visible, List.prefix_append [c] rest⟩
    | cons a word =>
      obtain ⟨rfl, further⟩ := List.cons_prefix_cons.mp starts
      obtain ⟨d, dVisible, within⟩ :=
        ih (fun later => noMark (List.mem_cons_of_mem _ later)) further
      exact ⟨d, dVisible, List.cons_prefix_cons.mpr ⟨rfl, within⟩⟩

theorem not_hasAddress_redactChars (cs : List Char) : ¬ HasAddress (redactChars cs) := by
  rintro ⟨scheme, known, c, visible, occurs⟩
  have begins : (scheme ++ [c]).head? = some 'h' := by
    have heads : ∀ scheme ∈ redactedSchemes, scheme.head? = some 'h' := by decide
    rw [List.head?_append, heads scheme known]
    rfl
  induction cs using redaction_induction with
  | nil =>
    rw [redactChars_nil] at occurs
    exact absurd (List.infix_nil.mp occurs) (by simp)
  | found first rest behind here ih =>
    rw [redactChars_of_some here, infix_append_iff_of_head begins (by decide)] at occurs
    exact ih occurs
  | skip first rest here ih =>
    have noMark : '[' ∉ scheme := by
      have none : ∀ scheme ∈ redactedSchemes, '[' ∉ scheme := by decide
      exact none scheme known
    rw [redactChars_of_none here, List.infix_cons_iff, ← redactChars_of_none here] at occurs
    rcases occurs with starts | later
    · obtain ⟨d, dVisible, within⟩ := exists_prefix_of_redactChars noMark visible starts
      exact not_isRun_of_afterAddress? here within
        ⟨scheme, known, [d], by simp, by simpa using dVisible, rfl⟩
    · exact ih later

theorem redactChars_of_not_hasAddress (clean : ¬ HasAddress cs) : redactChars cs = cs := by
  induction cs using redaction_induction with
  | nil => exact redactChars_nil
  | found first rest behind here _ =>
    obtain ⟨run, isRun, shape, -⟩ := exists_run_of_afterAddress? here
    rw [shape] at clean
    exact absurd (HasAddress.of_isRun isRun (List.prefix_append _ _)) clean
  | skip first rest here ih =>
    rw [redactChars_of_none here, ih]
    rintro ⟨scheme, known, c, visible, occurs⟩
    exact clean ⟨scheme, known, c, visible, List.infix_cons occurs⟩

/-- An address does not go over a blank. -/
theorem hasAddress_append_cons_iff {blank : Char} (isBlankChar : isBlank blank = true)
    (before after : List Char) :
    HasAddress (before ++ blank :: after) ↔ HasAddress before ∨ HasAddress after := by
  have apart : ∀ scheme ∈ redactedSchemes, ∀ c, isBlank c = false →
      (scheme ++ [c] <:+: before ++ blank :: after ↔
        scheme ++ [c] <:+: before ∨ scheme ++ [c] <:+: after) := by
    intro scheme known c visible
    refine infix_append_cons_iff (fun listed => ?_) (by simp) before after
    have isRun : IsRun (scheme ++ [c]) := ⟨scheme, known, [c], by simp, by simpa using visible, rfl⟩
    rw [isBlank_of_mem_run isRun listed] at isBlankChar
    exact nomatch isBlankChar
  constructor
  · rintro ⟨scheme, known, c, visible, occurs⟩
    rcases (apart scheme known c visible).mp occurs with early | late
    · exact Or.inl ⟨scheme, known, c, visible, early⟩
    · exact Or.inr ⟨scheme, known, c, visible, late⟩
  · rintro (⟨scheme, known, c, visible, early⟩ | ⟨scheme, known, c, visible, late⟩)
    · exact ⟨scheme, known, c, visible, (apart scheme known c visible).mpr (Or.inl early)⟩
    · exact ⟨scheme, known, c, visible, (apart scheme known c visible).mpr (Or.inr late)⟩

/-- A longest run goes up to a blank, or to the end of the text. -/
theorem isBlank_of_stop {text : List Char} {place : Nat} {spans : List Span} {span : Span}
    (found : LeftmostLongest IsRun text place spans) (listed : span ∈ spans) {c : Char}
    (next : text[span.stop]? = some c) : isBlank c = true := by
  by_contra visible
  obtain ⟨inText, -⟩ := List.getElem?_eq_some_iff.mp next
  obtain ⟨scheme, known, more, filled, shown, shape⟩ := found.words span listed
  obtain ⟨-, ordered, -⟩ := found.inside span listed
  have longer : text.extract span.start (span.stop + 1) = scheme ++ (more ++ [c]) := by
    have size : span.stop + 1 - span.start = span.stop - span.start + 1 := by omega
    have place : span.start + (span.stop - span.start) = span.stop := by omega
    rw [Span.of, List.extract_eq_take_drop] at shape
    rw [List.extract_eq_take_drop, size, List.take_add_one, shape, List.getElem?_drop, place, next,
      Option.toList_some, List.append_assoc]
  have isRun : IsRun (text.extract span.start (span.stop + 1)) := by
    refine ⟨scheme, known, more ++ [c], by simp, fun d listed => ?_, longer⟩
    rcases List.mem_append.mp listed with early | last
    · exact shown d early
    · rw [List.mem_singleton.mp last]
      exact Bool.eq_false_iff.mpr visible
  have bound := found.longest span listed (span.stop + 1) inText isRun
  omega

theorem redact_eq_replaceSpans (text : String) :
    ∃ spans, LeftmostLongest IsRun text.toList 0 spans ∧
      (redact text).toList = replaceSpans redactionMark text.toList 0 spans := by
  have found := Text.leftmostLongest_spansFrom not_isRun_nil isLongestWord_run? text.toList 0
    (Nat.zero_le _)
  have replaced := redactChars_drop text.toList 0
  rw [List.drop_zero] at found replaced
  exact ⟨_, found, by rw [redact, String.toList_ofList, replaced]⟩

theorem not_hasAddress_redact (text : String) : ¬ HasAddress (redact text).toList := by
  rw [redact, String.toList_ofList]
  exact not_hasAddress_redactChars _

theorem redact_redact (text : String) : redact (redact text) = redact text := by
  rw [redact.eq_def (redact text), redactChars_of_not_hasAddress (not_hasAddress_redact text),
    String.ofList_toList]

theorem isBlank_of_isHostChar {c : Char} (hostChar : isHostChar c = true) : isBlank c = false := by
  have signs : ['-', '@', ':', '%', '.', '_', '+', '~', '#', '='].all (!isBlank ·) = true := by
    decide
  rw [isHostChar, Bool.or_eq_true] at hostChar
  rcases hostChar with alnum | sign
  · simp only [isAlnum, Bool.or_eq_true, Bool.and_eq_true, decide_eq_true_eq, Char.le_def,
      UInt32.le_iff_toNat_le, Char.reduceVal, UInt32.reduceToNat] at alnum
    refine Text.isBlank_of_visible ?_ ?_ <;> rw [Char.toNat] <;> omega
  · simpa using List.all_eq_true.mp signs c (List.contains_iff_mem.mp sign)

/-- A literal with one of the redacted schemes is an address. -/
theorem HasAddress.of_isLiteral {url : List Char} (isLiteral : IsLiteral url) :
    HasAddress url ∨ "ftp://".toList <+: url ∨ "file://".toList <+: url := by
  obtain ⟨scheme, known, leave, listed, host, letters, isHost, -, rfl⟩ := isLiteral
  have redacted : scheme ∈ redactedSchemes →
      HasAddress (scheme ++ (leave ++ (host ++ '.' :: letters))) := by
    intro known
    have visible : ∀ c ∈ leave ++ host, isBlank c = false := by
      intro c within
      have leaves : ∀ leave ∈ [[], wwwText], leave.all (!isBlank ·) = true := by decide
      rcases List.mem_append.mp within with inLeave | inHost
      · simpa using List.all_eq_true.mp (leaves leave listed) c inLeave
      · exact isBlank_of_isHostChar (isHost.chars c inHost)
    have isRun : IsRun (scheme ++ (leave ++ host)) :=
      ⟨scheme, known, leave ++ host, by simp [isHost.filled], visible, rfl⟩
    exact HasAddress.of_isRun isRun ⟨'.' :: letters, by simp⟩
  simp only [schemes, List.mem_cons, List.not_mem_nil, or_false] at known
  rcases known with rfl | rfl | rfl | rfl
  · exact Or.inl (redacted (by decide))
  · exact Or.inl (redacted (by decide))
  · exact Or.inr (Or.inl (List.prefix_append _ _))
  · exact Or.inr (Or.inr (List.prefix_append _ _))

theorem scheme_of_mem_literals_redact {text url : String} (listed : url ∈ literals (redact text)) :
    "ftp://".toList <+: url.toList ∨ "file://".toList <+: url.toList := by
  obtain ⟨isLiteral, occurs⟩ := isLiteral_of_mem_literals listed
  refine (HasAddress.of_isLiteral isLiteral).resolve_left ?_
  rintro ⟨scheme, known, c, visible, within⟩
  exact not_hasAddress_redact text ⟨scheme, known, c, visible, within.trans occurs⟩

end ExtensionAudit.Url
