import ExtensionAudit.Proofs.Json.Pretty

namespace ExtensionAudit.Json

/-- What is written of a type is read as the same, and has no doubles in it. -/
class Faithful (α : Type) [Encode α] [Decode α] : Prop where
  whole : ∀ value : α, (encode value).Whole
  decoded : ∀ value : α, decode? (encode value).toSyntax = some value

/-- Nothing of the type is written as null, which stands for absence. -/
class NeverNull (α : Type) [Encode α] : Prop where
  toSyntax_ne_null : ∀ value : α, (encode value).toSyntax ≠ .null

section Types

instance : Faithful String where
  whole text := .string text
  decoded _ := rfl

instance : NeverNull String where
  toSyntax_ne_null _ := Syntax.noConfusion

instance : Faithful UInt64 where
  whole n := .int n.toNat
  decoded n := by
    have bound := n.toNat_lt
    have value : (NumberText.ofInt n.toNat).int? = some (n.toNat : Int) :=
      NumberText.int?_ofInt (by omega) (by omega)
    have positive : (0 : Int) ≤ n.toNat := by omega
    simp only [encode, Value.toSyntax, NumberText.ofNumber, decode?, value, Option.bind_eq_bind,
      Option.bind_some, if_pos positive, Int.toNat_natCast, UInt64.ofNat_toNat]

instance : Faithful Int64 where
  whole n := .int n.toInt
  decoded n := by
    have least := n.le_toInt
    have greatest := n.toInt_lt
    have value : (NumberText.ofInt n.toInt).int? = some n.toInt :=
      NumberText.int?_ofInt least (by omega)
    simp only [encode, Value.toSyntax, NumberText.ofNumber, decode?, value, Option.bind_eq_bind,
      Option.bind_some, if_pos greatest, Int64.ofInt_toInt]

variable {α : Type} [Encode α] [Decode α] [Faithful α]

theorem toSyntaxItems_eq_map (items : List Value) :
    Value.toSyntaxItems items = items.map Value.toSyntax := by
  induction items with
  | nil => rfl
  | cons item items ih => rw [Value.toSyntaxItems, ih, List.map_cons]

/-- The items of a list are read one by one. -/
theorem mapM_decode? (items : List α) :
    (items.map fun item => (encode item).toSyntax).mapM decode? = some items := by
  induction items with
  | nil => rfl
  | cons item items ih => simp [Faithful.decoded item, ih]

instance : Faithful (List α) where
  whole items := by
    refine .array fun value member => ?_
    obtain ⟨item, -, rfl⟩ := List.mem_map.mp member
    exact Faithful.whole item
  decoded items := by
    have tree : (encode items).toSyntax =
        .array (items.map fun item => (encode item).toSyntax) := by
      simp only [encode, Value.toSyntax, toSyntaxItems_eq_map, List.map_map, Function.comp_def]
    rw [tree]
    exact mapM_decode? items

instance : NeverNull (List α) where
  toSyntax_ne_null _ := Syntax.noConfusion

instance [NeverNull α] : Faithful (Option α) where
  whole
    | none => .null
    | some value => Faithful.whole value
  decoded
    | none => rfl
    | some value => by
      have present := NeverNull.toSyntax_ne_null value
      have decoded := Faithful.decoded value
      change decode? (α := Option α) (encode value).toSyntax = some (some value)
      cases tree : (encode value).toSyntax <;>
        simp_all [decode?]

/-- The members of a set are written in order, and put back into a set. -/
instance : Faithful TextSet where
  whole set := Faithful.whole set.items
  decoded set := by
    have items : decode? (encode set.items).toSyntax = some set.items := Faithful.decoded set.items
    change (decode? (encode set.items).toSyntax : Option (List String)).map TextSet.ofList =
      some set
    rw [items, Option.map_some, TextSet.ofList_items]

end Types

/-- The members of those parts that are there. -/
def present (parts : List (String × Option Value)) : List (String × Value) :=
  parts.filterMap fun part => part.2.map fun value => (part.1, value)

theorem member_eq_present {α : Type} [Encode α] (name : String) (value : α) :
    member name value = present [(name, some (encode value))] :=
  rfl

theorem memberIfSome_eq_present {α : Type} [Encode α] (name : String) (value : Option α) :
    memberIfSome name value = present [(name, value.map encode)] := by
  cases value <;> rfl

theorem present_append (parts others : List (String × Option Value)) :
    present parts ++ present others = present (parts ++ others) :=
  (List.filterMap_append ..).symm

theorem toSyntaxMembers_eq_map (members : List (String × Value)) :
    Value.toSyntaxMembers members =
      members.map fun member => (some member.1, member.2.toSyntax) := by
  induction members with
  | nil => rfl
  | cons member members ih => rw [Value.toSyntaxMembers, ih, List.map_cons]

theorem present_cons (part : String × Option Value) (parts : List (String × Option Value)) :
    present (part :: parts) =
      (part.2.map fun value => (part.1, value)).toList ++ present parts := by
  cases value : part.2 <;> simp [present, value]

theorem map_fst_present_sublist (parts : List (String × Option Value)) :
    ((present parts).map (·.1)).Sublist (parts.map (·.1)) := by
  induction parts with
  | nil => exact .slnil
  | cons part parts ih =>
    rw [present_cons, List.map_append, List.map_cons]
    cases part.2 with
    | none => exact ih.cons part.1
    | some value => exact ih.cons_cons part.1

/-- The fields that are given by the parts. -/
def Fields.ofParts (parts : List (String × Option Value)) : Fields :=
  ⟨(present parts).map fun member => (member.1, member.2.toSyntax)⟩

/-- Known members with distinct names are gathered one after the other. -/
theorem Fields.ofMembers?_of_nodup {names : List String} {given : List (String × Syntax)}
    {members : List (String × Syntax)} (known : ∀ member ∈ members, member.1 ∈ names)
    (distinct : ((given ++ members).map (·.1)).Nodup) :
    Fields.ofMembers? names given (members.map fun member => (some member.1, member.2)) =
      some ⟨given ++ members⟩ := by
  induction members generalizing given with
  | nil => simp [ofMembers?]
  | cons member members ih =>
    obtain ⟨key, tree⟩ := member
    have listed : names.contains key = true := by
      simpa using known (key, tree) (by simp)
    have fresh : given.lookup key = none := by
      rw [List.lookup_eq_none_iff]
      intro earlier inGiven
      simp only [List.map_append, List.nodup_append] at distinct
      have differs := distinct.2.2 earlier.1 (List.mem_map_of_mem inGiven) key (by simp)
      simpa using differs.symm
    have later : ofMembers? names (given ++ [(key, tree)])
        (members.map fun member => (some member.1, member.2)) =
          some ⟨given ++ [(key, tree)] ++ members⟩ :=
      ih (fun other inLater => known other (by simp [inLater])) (by simpa using distinct)
    simp only [List.map_cons, ofMembers?, listed, fresh, Option.isSome_none, if_true]
    simpa using later

/-- The fields of a structure are those of its parts. -/
theorem Fields.ofSyntax?_present {parts : List (String × Option Value)}
    (distinct : (parts.map (·.1)).Nodup) :
    Fields.ofSyntax? (parts.map (·.1)) (Value.object (present parts)).toSyntax =
      some (ofParts parts) := by
  have names := map_fst_present_sublist parts
  have keys : ((present parts).map fun member => (member.1, member.2.toSyntax)).map (·.1) =
      (present parts).map (·.1) := by
    simp only [List.map_map, Function.comp_def]
  have known : ∀ member ∈ (present parts).map fun member => (member.1, member.2.toSyntax),
      member.1 ∈ parts.map (·.1) := by
    intro member inMembers
    exact names.subset (keys ▸ List.mem_map_of_mem inMembers)
  have gathered := @ofMembers?_of_nodup (parts.map (·.1)) [] _ known
    (by rw [List.nil_append, keys]; exact distinct.sublist names)
  rw [List.map_map, Function.comp_def, List.nil_append] at gathered
  rw [Value.toSyntax, toSyntaxMembers_eq_map, ofSyntax?]
  exact gathered

theorem Fields.lookup_ofParts_of_not_mem {parts : List (String × Option Value)} {name : String}
    (absent : name ∉ parts.map (·.1)) : (ofParts parts).given.lookup name = none := by
  rw [List.lookup_eq_none_iff]
  intro member inGiven
  have inKeys : member.1 ∈ (present parts).map (·.1) := by
    obtain ⟨shown, inPresent, rfl⟩ := List.mem_map.mp inGiven
    exact List.mem_map_of_mem inPresent
  have differs : name ≠ member.1 := by
    rintro rfl
    exact absent ((map_fst_present_sublist parts).subset inKeys)
  simpa using differs

/-- The member of a part is looked up under the part's name. -/
theorem Fields.lookup_ofParts {parts : List (String × Option Value)} {name : String}
    {value : Option Value} (distinct : (parts.map (·.1)).Nodup) (part : (name, value) ∈ parts) :
    (ofParts parts).given.lookup name = value.map Value.toSyntax := by
  induction parts with
  | nil => exact nomatch part
  | cons first parts ih =>
    obtain ⟨key, head⟩ := first
    have fresh := (List.nodup_cons.mp distinct).1
    have later := (List.nodup_cons.mp distinct).2
    have step : (ofParts ((key, head) :: parts)).given.lookup name =
        if name = key then (head.map Value.toSyntax).or ((ofParts parts).given.lookup name)
        else (ofParts parts).given.lookup name := by
      cases head with
      | none => simp [ofParts, present]
      | some head =>
        by_cases same : name = key
        · simp [ofParts, present, same]
        · simp [ofParts, present, List.lookup_cons, same, beq_false_of_ne same]
    rw [step]
    rcases List.mem_cons.mp part with same | inLater
    · obtain ⟨rfl, rfl⟩ := Prod.mk.inj same
      rw [if_pos rfl, lookup_ofParts_of_not_mem fresh, Option.or_none]
    · have differs : name ≠ key := by
        rintro rfl
        exact fresh (List.mem_map.mpr ⟨(name, value), inLater, rfl⟩)
      rw [if_neg differs, ih later inLater]

/-- A structure that is written as an object of parts with distinct names, without doubles. -/
class Parts (α : Type) [Encode α] where
  parts : α → List (String × Option Value)
  encode_eq : ∀ value, encode value = .object (present (parts value))
  distinct : ∀ value, ((parts value).map (·.1)).Nodup
  each_whole : ∀ value, ∀ part ∈ parts value, ∀ content ∈ part.2, content.Whole

namespace Parts

section Structure

variable {β : Type} [Encode β] [Parts β] (value : β)

/-- The fields that the reader finds in what was written. -/
def fields : Fields :=
  .ofParts (parts value)

theorem whole : (encode value).Whole := by
  rw [encode_eq]
  refine .object fun member inPresent => ?_
  obtain ⟨part, inParts, found⟩ := List.mem_filterMap.mp inPresent
  obtain ⟨content, given, rfl⟩ := Option.map_eq_some_iff.mp found
  exact each_whole value part inParts content given

theorem ofSyntax?_encode :
    Fields.ofSyntax? ((parts value).map (·.1)) (encode value).toSyntax = some (fields value) := by
  rw [encode_eq]
  exact Fields.ofSyntax?_present (distinct value)

instance : NeverNull β where
  toSyntax_ne_null value := by
    rw [encode_eq]
    exact Syntax.noConfusion

variable {α : Type} [Encode α] [Decode α] [Faithful α]

/-- A part that is always there gives its field. -/
theorem required_fields {name : String} {field : α}
    (part : (name, some (encode field)) ∈ parts value) :
    (fields value).required name = some field := by
  rw [fields, Fields.required, Fields.lookup_ofParts (distinct value) part, Option.map_some,
    Option.bind_some, Faithful.decoded]

theorem orElse_fields {name : String} {field : α} (default : α)
    (part : (name, some (encode field)) ∈ parts value) :
    (fields value).orElse name default = some field := by
  rw [fields, Fields.orElse, Fields.lookup_ofParts (distinct value) part, Option.map_some]
  exact Faithful.decoded field

/-- A part that may be absent gives its field in both cases. -/
theorem optional_fields [NeverNull α] {name : String} {field : Option α}
    (part : (name, field.map encode) ∈ parts value) :
    (fields value).optional name = some field := by
  rw [fields, Fields.optional, Fields.orElse, Fields.lookup_ofParts (distinct value) part]
  cases field with
  | none => rfl
  | some field => exact Faithful.decoded (some field)

end Structure

end Parts

end ExtensionAudit.Json
