namespace ExtensionAudit

/-- A set of texts: its members in ascending order of their code points, which is also the order of
their UTF-8 bytes. -/
structure TextSet where
  items : List String
  ascending : items.Pairwise (· < ·) := by simp
deriving DecidableEq

namespace TextSet

def empty : TextSet := { items := [] }

instance : Inhabited TextSet := ⟨empty⟩

instance : Membership String TextSet := ⟨fun set text => text ∈ set.items⟩

theorem mem_iff {set : TextSet} {text : String} : text ∈ set ↔ text ∈ set.items := Iff.rfl

instance (text : String) (set : TextSet) : Decidable (text ∈ set) :=
  inferInstanceAs (Decidable (text ∈ set.items))

/-- Puts a text before the first member that is greater; a member is not put in again. -/
def place (text : String) : List String → List String
  | [] => [text]
  | item :: items =>
    if text < item then text :: item :: items
    else if text = item then item :: items
    else item :: place text items

theorem mem_place {text other : String} {items : List String} :
    other ∈ place text items ↔ other = text ∨ other ∈ items := by
  induction items with
  | nil => simp [place]
  | cons item items ih =>
    unfold place
    split
    · simp
    · split
      · simp_all
      · simp only [List.mem_cons, ih]
        constructor <;> rintro (h | h | h) <;> simp [h]

theorem lt_of_not_lt_of_ne {text item : String} (notLess : ¬ text < item) (ne : text ≠ item) :
    item < text :=
  Std.lt_of_le_of_ne (Std.not_lt.mp notLess) (Ne.symm ne)

theorem place_ascending {text : String} {items : List String}
    (ascending : items.Pairwise (· < ·)) : (place text items).Pairwise (· < ·) := by
  induction items with
  | nil => simp [place]
  | cons item items ih =>
    have below := (List.pairwise_cons.mp ascending).1
    have later := (List.pairwise_cons.mp ascending).2
    unfold place
    split
    · rename_i less
      refine List.pairwise_cons.mpr ⟨?_, ascending⟩
      intro other member
      rcases List.mem_cons.mp member with rfl | inLater
      · exact less
      · exact Std.lt_trans less (below other inLater)
    · split
      · exact ascending
      · rename_i notLess ne
        refine List.pairwise_cons.mpr ⟨?_, ih later⟩
        intro other member
        rcases mem_place.mp member with rfl | inLater
        · exact lt_of_not_lt_of_ne notLess ne
        · exact below other inLater

def insert (set : TextSet) (text : String) : TextSet where
  items := place text set.items
  ascending := place_ascending set.ascending

/-- The members of the list, sorted, each once. -/
def ofList (texts : List String) : TextSet :=
  texts.foldl insert empty

def size (set : TextSet) : Nat := set.items.length

@[simp]
theorem mem_insert {set : TextSet} {text other : String} :
    other ∈ set.insert text ↔ other = text ∨ other ∈ set :=
  mem_place

theorem mem_foldl_insert {texts : List String} {set : TextSet} {text : String} :
    text ∈ texts.foldl insert set ↔ text ∈ texts ∨ text ∈ set := by
  induction texts generalizing set with
  | nil => simp
  | cons first texts ih =>
    rw [List.foldl_cons, ih, mem_insert, List.mem_cons, or_left_comm, or_assoc]

@[simp]
theorem mem_ofList {texts : List String} {text : String} : text ∈ ofList texts ↔ text ∈ texts := by
  rw [ofList, mem_foldl_insert]
  simp [empty, mem_iff]

theorem place_eq_append {items : List String} {text : String}
    (greater : ∀ item ∈ items, item < text) : place text items = items ++ [text] := by
  induction items with
  | nil => rfl
  | cons item items ih =>
    have less := greater item (by simp)
    rw [place, if_neg (Std.not_lt.mpr (Std.le_of_lt less)), if_neg (Ne.symm (Std.ne_of_lt less)),
      ih fun other member => greater other (by simp [member])]
    rfl

/-- Putting in texts that ascend from the members on appends them. -/
theorem items_foldl_insert {texts : List String} {set : TextSet}
    (ascending : (set.items ++ texts).Pairwise (· < ·)) :
    (texts.foldl insert set).items = set.items ++ texts := by
  induction texts generalizing set with
  | nil => simp
  | cons text texts ih =>
    have placed : (set.insert text).items = set.items ++ [text] :=
      place_eq_append fun item member =>
        (List.pairwise_append.mp ascending).2.2 item member text (by simp)
    rw [List.foldl_cons, ih (by simpa [placed] using ascending), placed]
    simp

/-- A set is recovered from its members. -/
theorem ofList_items (set : TextSet) : ofList set.items = set := by
  have items : (ofList set.items).items = set.items := by
    simpa [ofList, empty] using @items_foldl_insert set.items empty
      (by simpa [empty] using set.ascending)
  cases set
  cases h : ofList _
  simp_all

end TextSet

end ExtensionAudit
