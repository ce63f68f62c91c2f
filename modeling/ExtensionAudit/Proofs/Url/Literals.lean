import ExtensionAudit.Proofs.Text.Spans
import ExtensionAudit.Url
import Mathlib.Data.List.TakeWhile

namespace ExtensionAudit.Url

open Text (IsLongestWord LeftmostLongest Span spansFrom)

structure IsHost (host : List Char) : Prop where
  filled : host ≠ []
  short : host.length ≤ longestHost
  chars : ∀ c ∈ host, isHostChar c = true

/-- What stands behind the last point. -/
structure IsEnding (letters : List Char) : Prop where
  filled : letters ≠ []
  short : letters.length ≤ longestEnding
  chars : ∀ c ∈ letters, isAlnum c = true

def IsLiteral (url : List Char) : Prop :=
  ∃ scheme ∈ schemes, ∃ leave ∈ [[], wwwText], ∃ host letters,
    IsHost host ∧ IsEnding letters ∧ url = scheme ++ (leave ++ (host ++ '.' :: letters))

/-- A point and an ending. -/
def IsPointed (cs : List Char) : Prop :=
  ∃ letters, IsEnding letters ∧ cs = '.' :: letters

/-- A point and an ending behind as many host characters as there is room for. -/
def IsTail (room : Nat) (cs : List Char) : Prop :=
  ∃ host letters, host.length ≤ room ∧ (∀ c ∈ host, isHostChar c = true) ∧ IsEnding letters ∧
    cs = host ++ '.' :: letters

/-- A host, a point and an ending. -/
def IsSite (cs : List Char) : Prop :=
  ∃ host letters, IsHost host ∧ IsEnding letters ∧ cs = host ++ '.' :: letters

/-- What stands behind a scheme. -/
def IsAddress (cs : List Char) : Prop :=
  ∃ leave ∈ [[], wwwText], ∃ site, IsSite site ∧ cs = leave ++ site

theorem not_isAlnum_point : isAlnum '.' = false := by decide

theorem isHostChar_point : isHostChar '.' = true := by decide

variable {cs host letters other rest : List Char}

/-- No point stands in an ending: a point inside of a word is at the last one or before it. -/
theorem length_le_of_point (word : host ++ '.' :: letters <+: cs) (ending : IsEnding letters)
    (point : other ++ '.' :: rest <+: cs)
    (inWord : other.length < (host ++ '.' :: letters).length) :
    other.length ≤ host.length := by
  by_contra behind
  have begins : other ++ ['.'] <+: cs := List.IsPrefix.trans ⟨rest, by simp⟩ point
  have shorter : other ++ ['.'] <+: host ++ '.' :: letters := by
    refine List.prefix_of_prefix_length_le begins word ?_
    rw [List.length_append, List.length_singleton]
    exact inWord
  obtain ⟨more, parted⟩ := shorter
  rw [List.append_assoc] at parted
  rcases List.append_eq_append_iff.mp parted with ⟨between, rfl, -⟩ | ⟨between, rfl, shape⟩
  · rw [List.length_append] at behind
    omega
  · cases between with
    | nil => simp at behind
    | cons point between =>
      obtain ⟨-, rfl⟩ := List.cons.inj shape
      have alnum := ending.chars '.' (by simp)
      rw [not_isAlnum_point] at alnum
      exact nomatch alnum

/-- An ending at the start of a text is no longer than the letters that are taken. -/
theorem length_le_taken (starts : letters <+: rest) (ending : IsEnding letters) :
    letters.length ≤ ((rest.take longestEnding).takeWhile isAlnum).length := by
  obtain ⟨more, rfl⟩ := starts
  rw [List.take_append, List.take_of_length_le ending.short,
    List.takeWhile_append_of_pos ending.chars, List.length_append]
  exact Nat.le_add_right _ _

theorem isLongestWord_ending? (cs : List Char) : IsLongestWord IsPointed cs (ending? cs) := by
  unfold ending?
  split
  · rename_i rest
    split
    · rename_i none
      rintro other starts ⟨letters, ending, rfl⟩
      have taken := length_le_taken (List.cons_prefix_cons.mp starts).2 ending
      rw [none] at taken
      exact ending.filled (List.length_eq_zero_iff.mp (Nat.le_zero.mp taken))
    · rename_i taken filled
      have ending : IsEnding ((rest.take longestEnding).takeWhile isAlnum) := {
        filled
        short := Nat.le_trans (List.takeWhile_prefix _).length_le (List.length_take_le _ _)
        chars := fun c listed => List.mem_takeWhile_imp listed }
      have within := (List.takeWhile_prefix isAlnum).trans (List.take_prefix longestEnding rest)
      refine ⟨List.cons_prefix_cons.mpr ⟨rfl, within⟩, ⟨_, ending, rfl⟩, ?_⟩
      rintro other starts ⟨letters, ending, rfl⟩
      have taken := length_le_taken (List.cons_prefix_cons.mp starts).2 ending
      exact Nat.succ_le_succ taken
  · rename_i noPoint
    rintro other ⟨more, rfl⟩ ⟨letters, -, rfl⟩
    exact noPoint _ rfl

theorem isTail_zero : IsTail 0 = IsPointed := by
  funext cs
  refine propext ⟨?_, ?_⟩
  · rintro ⟨host, letters, empty, -, ending, rfl⟩
    obtain rfl := List.length_eq_zero_iff.mp (Nat.le_zero.mp empty)
    exact ⟨letters, ending, rfl⟩
  · rintro ⟨letters, ending, rfl⟩
    exact ⟨[], letters, Nat.le_refl 0, by simp, ending, rfl⟩

/-- A tail begins with its point or with a host character in front of a shorter tail. -/
theorem isTail_succ_iff {room : Nat} {c : Char} :
    IsTail (room + 1) (c :: rest) ↔
      IsPointed (c :: rest) ∨ isHostChar c = true ∧ IsTail room rest := by
  constructor
  · rintro ⟨host, letters, fits, chars, ending, shape⟩
    cases host with
    | nil => exact Or.inl ⟨letters, ending, shape⟩
    | cons first host =>
      obtain ⟨rfl, rfl⟩ := List.cons.inj shape
      refine Or.inr ⟨chars _ List.mem_cons_self, host, letters, Nat.le_of_succ_le_succ fits, ?_,
        ending, rfl⟩
      exact fun c listed => chars c (List.mem_cons_of_mem _ listed)
  · rintro (⟨letters, ending, shape⟩ | ⟨first, host, letters, fits, chars, ending, rfl⟩)
    · exact ⟨[], letters, Nat.zero_le _, by simp, ending, shape⟩
    · refine ⟨c :: host, letters, Nat.succ_le_succ fits, ?_, ending, rfl⟩
      rintro d (_ | ⟨_, listed⟩)
      · exact first
      · exact chars d listed

theorem not_isTail_nil {room : Nat} : ¬ IsTail room [] := by
  rintro ⟨host, letters, -, -, -, shape⟩
  exact absurd shape (by simp)

/-- The pointed word at the place is shorter than a tail that goes on behind its first character. -/
theorem length_le_of_isPointed {room : Nat} {c : Char} {more : List Char} (tail : IsTail room more)
    (within : more <+: rest) (pointed : IsPointed other) (starts : other <+: c :: rest) :
    other.length ≤ (c :: more).length := by
  obtain ⟨host, last, -, -, -, rfl⟩ := tail
  obtain ⟨letters, ending, rfl⟩ := pointed
  by_contra longer
  have point : (c :: host) ++ '.' :: last <+: c :: rest := List.cons_prefix_cons.mpr ⟨rfl, within⟩
  have inWord : (c :: host).length < ([] ++ '.' :: letters).length := by
    simp only [List.length_cons, List.length_append, List.nil_append] at longer ⊢
    omega
  have early : (c :: host).length ≤ ([] : List Char).length :=
    length_le_of_point starts ending point inWord
  simp at early

theorem isLongestWord_tail? (room : Nat) (cs : List Char) :
    IsLongestWord (IsTail room) cs (tail? room cs) := by
  induction room generalizing cs with
  | zero =>
    rw [isTail_zero, tail?]
    exact isLongestWord_ending? cs
  | succ room ih =>
    cases cs with
    | nil =>
      intro other empty
      rw [List.prefix_nil.mp empty]
      exact not_isTail_nil
    | cons c rest =>
      have later := ih rest
      rw [tail?]
      split
      · rename_i first
        cases found : tail? room rest with
        | none =>
          -- No tail goes on behind the character, so only a point can stand here.
          rw [found] at later
          refine (isLongestWord_ending? (c :: rest)).congr fun other starts => ?_
          rcases List.prefix_cons_iff.mp starts with rfl | ⟨o, rfl, within⟩
          · exact iff_of_false not_isTail_nil fun ⟨_, _, shape⟩ => nomatch shape
          · rw [isTail_succ_iff]
            exact or_iff_left fun ⟨_, tail⟩ => later o within tail
        | some more =>
          rw [found] at later
          obtain ⟨within, tail, most⟩ := later
          refine ⟨List.cons_prefix_cons.mpr ⟨rfl, within⟩,
            isTail_succ_iff.mpr (Or.inr ⟨first, tail⟩), fun other starts isTail => ?_⟩
          rcases List.prefix_cons_iff.mp starts with rfl | ⟨o, rfl, begins⟩
          · exact absurd isTail not_isTail_nil
          · rcases isTail_succ_iff.mp isTail with pointed | ⟨-, shorter⟩
            · exact length_le_of_isPointed tail within pointed starts
            · exact Nat.succ_le_succ (most o begins shorter)
      · rename_i first
        intro other starts isTail
        rcases List.prefix_cons_iff.mp starts with rfl | ⟨o, rfl, begins⟩
        · exact not_isTail_nil isTail
        · rcases isTail_succ_iff.mp isTail with ⟨letters, -, shape⟩ | ⟨hostChar, -⟩
          · rw [(List.cons.inj shape).1] at first
            exact first isHostChar_point
          · exact first hostChar

theorem isSite_cons_iff {c : Char} :
    IsSite (c :: rest) ↔ isHostChar c = true ∧ IsTail (longestHost - 1) rest := by
  constructor
  · rintro ⟨host, letters, isHost, ending, shape⟩
    cases host with
    | nil => exact absurd rfl isHost.filled
    | cons first host =>
      obtain ⟨rfl, rfl⟩ := List.cons.inj shape
      exact ⟨isHost.chars _ List.mem_cons_self, host, letters, Nat.le_sub_one_of_lt isHost.short,
        fun c listed => isHost.chars c (List.mem_cons_of_mem _ listed), ending, rfl⟩
  · rintro ⟨first, host, letters, fits, chars, ending, rfl⟩
    refine ⟨c :: host, letters, ⟨by simp, ?_, ?_⟩, ending, rfl⟩
    · exact Nat.add_le_of_le_sub (by decide) fits
    · rintro d (_ | ⟨_, listed⟩)
      · exact first
      · exact chars d listed

theorem not_isSite_nil : ¬ IsSite [] := by
  rintro ⟨host, letters, -, -, shape⟩
  exact absurd shape (by simp)

theorem isLongestWord_host? (cs : List Char) : IsLongestWord IsSite cs (host? cs) := by
  cases cs with
  | nil =>
    intro other empty
    rw [List.prefix_nil.mp empty]
    exact not_isSite_nil
  | cons c rest =>
    have later := isLongestWord_tail? (longestHost - 1) rest
    have sites : ∀ other, other <+: c :: rest → IsSite other →
        isHostChar c = true ∧ ∃ o, other = c :: o ∧ o <+: rest ∧ IsTail (longestHost - 1) o := by
      intro other starts site
      rcases List.prefix_cons_iff.mp starts with rfl | ⟨o, rfl, begins⟩
      · exact absurd site not_isSite_nil
      · obtain ⟨first, tail⟩ := isSite_cons_iff.mp site
        exact ⟨first, o, rfl, begins, tail⟩
    rw [host?]
    split
    · rename_i first
      cases found : tail? (longestHost - 1) rest with
      | none =>
        rw [found] at later
        intro other starts site
        obtain ⟨-, o, -, begins, tail⟩ := sites other starts site
        exact later o begins tail
      | some more =>
        rw [found] at later
        obtain ⟨within, tail, most⟩ := later
        refine ⟨List.cons_prefix_cons.mpr ⟨rfl, within⟩, isSite_cons_iff.mpr ⟨first, tail⟩,
          fun other starts site => ?_⟩
        obtain ⟨-, o, rfl, begins, isTail⟩ := sites other starts site
        exact Nat.succ_le_succ (most o begins isTail)
    · rename_i first
      intro other starts site
      exact first (sites other starts site).1

/-- A site that begins with `www.` and reaches behind a site that begins after it has one of its own
after it. -/
theorem length_le_of_leave {site found : List Char} (isSite : IsSite site)
    (starts : site <+: wwwText ++ cs) (isFound : IsSite found) (within : found <+: cs)
    (most : ∀ other, other <+: cs → IsSite other → other.length ≤ found.length) :
    site.length ≤ (wwwText ++ found).length := by
  obtain ⟨host, letters, isHost, ending, rfl⟩ := isSite
  -- A longer site would hold the last point of the one that was found in its host, and so `www.`
  -- and a site behind it that is longer than the longest.
  by_contra longer
  obtain ⟨inner, last, isInner, -, rfl⟩ := isFound
  have point : (wwwText ++ inner) ++ '.' :: last <+: wwwText ++ cs := by
    rw [List.append_assoc]
    exact (List.prefix_append_right_inj _).mpr within
  have reach := length_le_of_point starts ending point (by simp at longer ⊢; omega)
  have leads : wwwText <+: host := by
    refine List.prefix_of_prefix_length_le (List.prefix_append _ _)
      ((List.prefix_append host _).trans starts) ?_
    rw [List.length_append] at reach
    omega
  obtain ⟨after, rfl⟩ := leads
  have filled : after ≠ [] := by
    rintro rfl
    have size := List.length_pos_iff.mpr isInner.filled
    simp only [List.length_append, List.length_nil] at reach
    omega
  have isAfter : IsSite (after ++ '.' :: letters) := by
    refine ⟨after, letters, ⟨filled, ?_, fun c listed => ?_⟩, ending, rfl⟩
    · have short := isHost.short
      rw [List.length_append] at short
      omega
    · exact isHost.chars c (List.mem_append_right _ listed)
  rw [List.append_assoc, List.prefix_append_right_inj] at starts
  have bound := most _ starts isAfter
  simp only [List.length_append] at longer bound
  omega

theorem isLongestWord_address? (cs : List Char) : IsLongestWord IsAddress cs (address? cs) := by
  have plain : ∀ other, (∀ site, IsSite site → other ≠ wwwText ++ site) →
      (IsAddress other ↔ IsSite other) := by
    intro other noLeave
    constructor
    · rintro ⟨leave, listed, site, isSite, rfl⟩
      rcases List.mem_cons.mp listed with rfl | last
      · exact isSite
      · rw [List.mem_singleton.mp last] at noLeave
        exact absurd rfl (noLeave site isSite)
    · exact fun isSite => ⟨[], List.mem_cons_self, other, isSite, rfl⟩
  -- Where `www.` leads, the site behind it goes first: with one, it reaches as far as any.
  unfold address?
  split
  · rename_i leads
    obtain ⟨after, rfl⟩ := List.isPrefixOf_iff_prefix.mp leads
    rw [List.drop_left]
    have behind := isLongestWord_host? after
    cases found : host? after with
    | some host =>
      rw [found] at behind
      obtain ⟨within, isSite, most⟩ := behind
      refine ⟨(List.prefix_append_right_inj _).mpr within,
        ⟨wwwText, by simp, host, isSite, rfl⟩, ?_⟩
      rintro other starts ⟨leave, listed, site, isOther, rfl⟩
      rcases List.mem_cons.mp listed with rfl | last
      · exact length_le_of_leave isOther starts isSite within most
      · rw [List.mem_singleton.mp last] at starts ⊢
        have bound := most site ((List.prefix_append_right_inj _).mp starts) isOther
        rw [List.length_append, List.length_append]
        omega
    | none =>
      rw [found] at behind
      refine (isLongestWord_host? (wwwText ++ after)).congr fun other starts => plain other ?_
      rintro site isSite rfl
      exact behind site ((List.prefix_append_right_inj _).mp starts) isSite
  · rename_i leads
    refine (isLongestWord_host? cs).congr fun other starts => plain other ?_
    rintro site - rfl
    exact leads (List.isPrefixOf_iff_prefix.mpr ((List.prefix_append _ _).trans starts))

theorem isLiteral_iff {url : List Char} :
    IsLiteral url ↔ ∃ scheme ∈ schemes, ∃ address, IsAddress address ∧ url = scheme ++ address := by
  constructor
  · rintro ⟨scheme, known, leave, listed, host, letters, isHost, ending, rfl⟩
    exact ⟨scheme, known, _, ⟨leave, listed, _, ⟨host, letters, isHost, ending, rfl⟩, rfl⟩, rfl⟩
  · rintro ⟨scheme, known, _, ⟨leave, listed, _, ⟨host, letters, isHost, ending, rfl⟩, rfl⟩, rfl⟩
    exact ⟨scheme, known, leave, listed, host, letters, isHost, ending, rfl⟩

/-- A text begins with one scheme at most. -/
theorem scheme_unique {scheme next : List Char} (known : scheme ∈ schemes)
    (nextKnown : next ∈ schemes) (starts : scheme <+: cs) (nextStarts : next <+: cs) : scheme = next := by
  have apart : ∀ a ∈ schemes, ∀ b ∈ schemes, a.isPrefixOf b = true → a = b := by decide
  rcases Nat.le_total scheme.length next.length with shorter | longer
  · have within := List.prefix_of_prefix_length_le starts nextStarts shorter
    exact apart _ known _ nextKnown (List.isPrefixOf_iff_prefix.mpr within)
  · have within := List.prefix_of_prefix_length_le nextStarts starts longer
    exact (apart _ nextKnown _ known (List.isPrefixOf_iff_prefix.mpr within)).symm

theorem isLongestWord_literal? (cs : List Char) : IsLongestWord IsLiteral cs (literal? cs) := by
  unfold literal?
  cases found : schemes.find? (·.isPrefixOf cs) with
  | none =>
    intro other starts isLiteral
    obtain ⟨scheme, known, address, -, rfl⟩ := isLiteral_iff.mp isLiteral
    have leads := List.isPrefixOf_iff_prefix.mpr ((List.prefix_append _ _).trans starts)
    exact List.find?_eq_none.mp found scheme known leads
  | some scheme =>
    have known := List.mem_of_find?_eq_some found
    have leads : scheme <+: cs :=
      List.isPrefixOf_iff_prefix.mp (by simpa using List.find?_some found)
    obtain ⟨after, rfl⟩ := leads
    -- No scheme begins another one, so every literal here has the scheme that was found.
    have literals : ∀ other, other <+: scheme ++ after → IsLiteral other →
        ∃ address, other = scheme ++ address ∧ address <+: after ∧ IsAddress address := by
      intro other starts isLiteral
      obtain ⟨next, nextKnown, address, isAddress, rfl⟩ := isLiteral_iff.mp isLiteral
      obtain rfl := scheme_unique known nextKnown (List.prefix_append _ _)
        ((List.prefix_append _ _).trans starts)
      exact ⟨address, rfl, (List.prefix_append_right_inj _).mp starts, isAddress⟩
    have behind := isLongestWord_address? after
    simp only [Option.bind_eq_bind, Option.bind_some, List.drop_left]
    cases answer : address? after with
    | none =>
      rw [answer] at behind
      intro other starts isLiteral
      obtain ⟨address, -, within, isAddress⟩ := literals other starts isLiteral
      exact behind address within isAddress
    | some address =>
      rw [answer] at behind
      obtain ⟨within, isAddress, most⟩ := behind
      refine ⟨(List.prefix_append_right_inj _).mpr within,
        isLiteral_iff.mpr ⟨scheme, known, address, isAddress, rfl⟩,
        fun other starts isLiteral => ?_⟩
      obtain ⟨next, rfl, begins, isNext⟩ := literals other starts isLiteral
      rw [List.length_append, List.length_append]
      exact Nat.add_le_add_left (most next begins isNext) _

theorem not_isLiteral_nil : ¬ IsLiteral [] := by
  rintro ⟨scheme, -, leave, -, host, letters, -, -, shape⟩
  exact absurd shape (by simp)

/-- The literals behind a place are the texts of the spans that are found from there on. -/
theorem literalsAfter_drop (text : List Char) (found : List (List Char)) (place : Nat) :
    literalsAfter found (text.drop place) =
      found.reverse ++ (spansFrom literal? place (text.drop place)).map (·.of text) := by
  by_cases more : place < text.length
  · have parted := List.drop_eq_getElem_cons more
    have here := isLongestWord_literal? (text.drop place)
    rw [parted] at here ⊢
    rw [literalsAfter, spansFrom]
    cases answer : literal? (text[place] :: text.drop (place + 1)) with
    | none => exact literalsAfter_drop text found (place + 1)
    | some url =>
      rw [answer, ← parted] at here
      obtain ⟨starts, isLiteral, -⟩ := here
      have size : url.length ≠ 0 := by
        intro empty
        rw [List.length_eq_zero_iff.mp empty] at isLiteral
        exact not_isLiteral_nil isLiteral
      simp only [List.drop_drop, List.map_cons, Text.Span.of, Text.extract_of_prefix_drop starts]
      rw [Nat.add_assoc, Nat.add_sub_of_le (Nat.one_le_iff_ne_zero.mpr size), literalsAfter_drop,
        List.reverse_cons, List.append_assoc, List.singleton_append]
      rfl
  · rw [List.drop_of_length_le (Nat.not_lt.mp more), literalsAfter, spansFrom, List.map_nil,
      List.append_nil]
termination_by text.length - place
decreasing_by all_goals omega

theorem literals_eq_map (text : String) :
    literals text =
      (spansFrom literal? 0 text.toList).map fun span => String.ofList (span.of text.toList) := by
  have listed := literalsAfter_drop text.toList [] 0
  rw [List.drop_zero] at listed
  rw [literals, listed, List.reverse_nil, List.nil_append, List.map_map]
  rfl

theorem leftmostLongest_literals (text : List Char) :
    LeftmostLongest IsLiteral text 0 (spansFrom literal? 0 text) := by
  have found := Text.leftmostLongest_spansFrom not_isLiteral_nil isLongestWord_literal? text 0
    (Nat.zero_le _)
  rwa [List.drop_zero] at found

/-- A literal of a text is a word of the language that occurs in the text. -/
theorem isLiteral_of_mem_literals {text url : String} (listed : url ∈ literals text) :
    IsLiteral url.toList ∧ url.toList <:+: text.toList := by
  rw [literals_eq_map] at listed
  obtain ⟨span, found, rfl⟩ := List.mem_map.mp listed
  rw [String.toList_ofList]
  refine ⟨(leftmostLongest_literals text.toList).words span found, ?_⟩
  exact (Text.extract_prefix_drop _ _ _).isInfix.trans (List.drop_suffix _ _).isInfix

/-- The literals of a text are its leftmost longest words of the language, in order of appearance,
and there is one list of those. -/
theorem literals_leftmost_longest (text : String) :
    ∃ spans, literals text = spans.map (fun span => String.ofList (span.of text.toList)) ∧
      LeftmostLongest IsLiteral text.toList 0 spans ∧
      ∀ others, LeftmostLongest IsLiteral text.toList 0 others → others = spans := by
  have found := leftmostLongest_literals text.toList
  exact ⟨_, literals_eq_map text, found, fun others other => other.unique found⟩

example : literals "visit https://example.com/path and ftp://x.y" =
    ["https://example.com", "ftp://x.y"] := by cbv

end ExtensionAudit.Url
