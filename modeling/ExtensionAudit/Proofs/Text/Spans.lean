import Mathlib.Data.List.Basic

namespace ExtensionAudit.Text

/-- The part of a text from one place up to another. -/
structure Span where
  start : Nat
  stop : Nat
deriving DecidableEq

def Span.of (span : Span) (text : List Char) : List Char :=
  text.extract span.start span.stop

/-- The spans are the words of a text from a place on. They are in order and do not overlap, each is
the longest word that begins where it begins, and no word begins outside of them. -/
structure LeftmostLongest (word : List Char → Prop) (text : List Char) (place : Nat)
    (spans : List Span) : Prop where
  inside : ∀ span ∈ spans, place ≤ span.start ∧ span.start ≤ span.stop ∧ span.stop ≤ text.length
  apart : spans.Pairwise fun span later => span.stop ≤ later.start
  words : ∀ span ∈ spans, word (span.of text)
  longest : ∀ span ∈ spans, ∀ stop ≤ text.length, word (text.extract span.start stop) →
    stop ≤ span.stop
  leftmost : ∀ start stop, place ≤ start → stop ≤ text.length → word (text.extract start stop) →
    ∃ span ∈ spans, span.start ≤ start ∧ start < span.stop

variable {word : List Char → Prop} {text : List Char} {place : Nat} {first next : Span}
  {spans others : List Span}

namespace LeftmostLongest

theorem tail (found : LeftmostLongest word text place (first :: spans)) :
    LeftmostLongest word text first.stop spans where
  inside span listed :=
    ⟨(List.pairwise_cons.mp found.apart).1 span listed,
      (found.inside span (List.mem_cons_of_mem _ listed)).2⟩
  apart := (List.pairwise_cons.mp found.apart).2
  words span listed := found.words span (List.mem_cons_of_mem _ listed)
  longest span listed := found.longest span (List.mem_cons_of_mem _ listed)
  leftmost start stop behind fits isWord := by
    obtain ⟨lower, filled, -⟩ := found.inside first List.mem_cons_self
    obtain ⟨span, listed, before, inSpan⟩ := found.leftmost start stop (by omega) fits isWord
    rcases List.mem_cons.mp listed with rfl | later
    · omega
    · exact ⟨span, later, before, inSpan⟩

/-- No word begins before the first one. -/
theorem first_le (found : LeftmostLongest word text place (first :: spans)) {start stop : Nat}
    (behind : place ≤ start) (fits : stop ≤ text.length) (isWord : word (text.extract start stop)) :
    first.start ≤ start := by
  obtain ⟨-, filled, -⟩ := found.inside first List.mem_cons_self
  obtain ⟨span, listed, before, -⟩ := found.leftmost start stop behind fits isWord
  rcases List.mem_cons.mp listed with rfl | later
  · exact before
  · have apart := (List.pairwise_cons.mp found.apart).1 span later
    omega

/-- The first words of two lists begin at the same place and end at the same place. -/
theorem first_eq (found : LeftmostLongest word text place (first :: spans))
    (other : LeftmostLongest word text place (next :: others)) : first = next := by
  obtain ⟨lower, -, upper⟩ := found.inside first List.mem_cons_self
  obtain ⟨lowerNext, -, upperNext⟩ := other.inside next List.mem_cons_self
  have isWord := found.words first List.mem_cons_self
  have isWordNext := other.words next List.mem_cons_self
  have start : first.start = next.start :=
    Nat.le_antisymm (found.first_le lowerNext upperNext isWordNext)
      (other.first_le lower upper isWord)
  rw [Span.of, start] at isWord
  rw [Span.of, ← start] at isWordNext
  have stop : first.stop = next.stop :=
    Nat.le_antisymm (other.longest next List.mem_cons_self first.stop upper isWord)
      (found.longest first List.mem_cons_self next.stop upperNext isWordNext)
  cases first
  cases next
  simp_all

theorem unique (found : LeftmostLongest word text place spans)
    (other : LeftmostLongest word text place others) : spans = others := by
  have covered : ∀ {place : Nat} {span : Span} {spans : List Span},
      LeftmostLongest word text place [] → ¬ LeftmostLongest word text place (span :: spans) := by
    intro place span spans none some
    obtain ⟨lower, -, upper⟩ := some.inside span List.mem_cons_self
    obtain ⟨_, listed, -⟩ :=
      none.leftmost span.start span.stop lower upper (some.words span List.mem_cons_self)
    exact absurd listed List.not_mem_nil
  induction spans generalizing place others with
  | nil =>
    cases others with
    | nil => rfl
    | cons next others => exact absurd other (covered found)
  | cons first spans ih =>
    cases others with
    | nil => exact absurd found (covered other)
    | cons next others =>
      obtain rfl := found.first_eq other
      rw [ih found.tail other.tail]

end LeftmostLongest

/-- The answer is the longest word at the start of the text; there is no answer only if no word is
there. -/
def IsLongestWord (word : List Char → Prop) (cs : List Char) : Option (List Char) → Prop
  | some found => found <+: cs ∧ word found ∧
      ∀ other, other <+: cs → word other → other.length ≤ found.length
  | none => ∀ other, other <+: cs → ¬ word other

/-- Languages with the same words at the start of the text have the same longest word there. -/
theorem IsLongestWord.congr {same : List Char → Prop} {cs : List Char} {answer : Option (List Char)}
    (longest : IsLongestWord word cs answer)
    (agree : ∀ other, other <+: cs → (same other ↔ word other)) : IsLongestWord same cs answer := by
  cases answer with
  | none => exact fun other starts isWord => longest other starts ((agree other starts).mp isWord)
  | some found =>
    obtain ⟨starts, isWord, most⟩ := longest
    exact ⟨starts, (agree found starts).mpr isWord,
      fun other begins isOther => most other begins ((agree other begins).mp isOther)⟩

/-- The spans that a finder finds in the text from a place on. Behind a span the search goes on at
its end. -/
def spansFrom (find : List Char → Option (List Char)) (place : Nat) : List Char → List Span
  | [] => []
  | c :: rest =>
    match find (c :: rest) with
    | some found =>
      ⟨place, place + found.length⟩ ::
        spansFrom find (place + found.length) (rest.drop (found.length - 1))
    | none => spansFrom find (place + 1) rest
termination_by cs => cs.length
decreasing_by all_goals simp only [List.length_drop, List.length_cons]; omega

theorem extract_prefix_drop (text : List Char) (start stop : Nat) :
    text.extract start stop <+: text.drop start := by
  rw [List.extract_eq_take_drop]
  exact List.take_prefix _ _

theorem extract_of_prefix_drop {found : List Char} (starts : found <+: text.drop place) :
    text.extract place (place + found.length) = found := by
  rw [List.extract_eq_take_drop, Nat.add_sub_cancel_left]
  exact (List.prefix_iff_eq_take.mp starts).symm

/-- The place at which the search begins is passed, if no word begins there. -/
theorem LeftmostLongest.of_skip (found : LeftmostLongest word text (place + 1) spans)
    (none : ∀ other, other <+: text.drop place → ¬ word other) :
    LeftmostLongest word text place spans where
  inside span listed := by
    have inside := found.inside span listed
    omega
  apart := found.apart
  words := found.words
  longest := found.longest
  leftmost start stop behind fits isWord := by
    rcases Nat.lt_or_eq_of_le behind with later | rfl
    · exact found.leftmost start stop later fits isWord
    · exact absurd isWord (none _ (extract_prefix_drop text place stop))

/-- A longest word at the place goes before the words behind it. -/
theorem LeftmostLongest.cons {here : List Char}
    (found : LeftmostLongest word text (place + here.length) spans)
    (starts : here <+: text.drop place) (inText : place ≤ text.length) (isWord : word here)
    (longest : ∀ other, other <+: text.drop place → word other → other.length ≤ here.length) :
    LeftmostLongest word text place (⟨place, place + here.length⟩ :: spans) where
  inside span listed := by
    rcases List.mem_cons.mp listed with rfl | later
    · have length := starts.length_le
      rw [List.length_drop] at length
      simp only
      omega
    · have inside := found.inside span later
      omega
  apart := List.pairwise_cons.mpr ⟨fun span later => (found.inside span later).1, found.apart⟩
  words span listed := by
    rcases List.mem_cons.mp listed with rfl | later
    · rwa [Span.of, extract_of_prefix_drop starts]
    · exact found.words span later
  longest span listed stop fits isWord := by
    rcases List.mem_cons.mp listed with rfl | later
    · have length := longest _ (extract_prefix_drop text place stop) isWord
      rw [List.extract_eq_take_drop, List.length_take, List.length_drop] at length
      simp only
      omega
    · exact found.longest span later stop fits isWord
  leftmost start stop behind fits isWord := by
    by_cases inFirst : start < place + here.length
    · exact ⟨_, List.mem_cons_self, behind, inFirst⟩
    · obtain ⟨span, later, before, inSpan⟩ :=
        found.leftmost start stop (Nat.not_lt.mp inFirst) fits isWord
      exact ⟨span, List.mem_cons_of_mem _ later, before, inSpan⟩

/-- A finder of longest words finds the leftmost longest words of the text. -/
theorem leftmostLongest_spansFrom {find : List Char → Option (List Char)}
    (filled : ¬ word []) (finds : ∀ cs, IsLongestWord word cs (find cs)) (text : List Char)
    (place : Nat) (inText : place ≤ text.length) :
    LeftmostLongest word text place (spansFrom find place (text.drop place)) := by
  -- The recursion is that of the finder: it goes on behind one character, or behind a word.
  rcases Nat.lt_or_eq_of_le inText with more | rfl
  · have parted := List.drop_eq_getElem_cons more
    have here := finds (text.drop place)
    rw [parted] at here ⊢
    rw [spansFrom]
    cases answer : find (text[place] :: text.drop (place + 1)) with
    | none =>
      rw [answer, ← parted] at here
      exact (leftmostLongest_spansFrom filled finds text (place + 1) more).of_skip here
    | some found =>
      rw [answer, ← parted] at here
      obtain ⟨starts, isWord, longest⟩ := here
      have size : found.length ≠ 0 := by
        intro empty
        rw [List.length_eq_zero_iff.mp empty] at isWord
        exact filled isWord
      have length := starts.length_le
      rw [List.length_drop] at length
      have behind : (text.drop (place + 1)).drop (found.length - 1) =
          text.drop (place + found.length) := by
        rw [List.drop_drop]
        congr 1
        omega
      simp only
      rw [behind]
      have rest := leftmostLongest_spansFrom filled finds text (place + found.length) (by omega)
      exact rest.cons starts inText isWord longest
  · rw [List.drop_length, spansFrom]
    refine ⟨by simp, List.Pairwise.nil, by simp, by simp, fun start stop behind fits isWord => ?_⟩
    have empty : text.extract start stop = [] := by
      rw [List.extract_eq_take_drop, List.drop_of_length_le behind, List.take_nil]
    rw [empty] at isWord
    exact absurd isWord filled
termination_by text.length - place

/-- The text from a place on, with the mark in place of each span. -/
def replaceSpans (mark text : List Char) (place : Nat) : List Span → List Char
  | [] => text.drop place
  | span :: spans =>
    text.extract place span.start ++ (mark ++ replaceSpans mark text span.stop spans)

/-- The character at the place stays, if no span begins there. -/
theorem replaceSpans_of_skip (mark : List Char) (more : place < text.length)
    (behind : ∀ span ∈ spans, place + 1 ≤ span.start) :
    replaceSpans mark text place spans =
      text[place] :: replaceSpans mark text (place + 1) spans := by
  cases spans with
  | nil => exact List.drop_eq_getElem_cons more
  | cons span spans =>
    have start := behind span List.mem_cons_self
    have size : span.start - place = span.start - (place + 1) + 1 := by omega
    rw [replaceSpans, replaceSpans, List.extract_eq_take_drop, List.extract_eq_take_drop,
      List.drop_eq_getElem_cons more, size, List.take_succ_cons, List.cons_append]

end ExtensionAudit.Text
