import ExtensionAudit.Proofs.Json.Pretty

namespace ExtensionAudit.Json

-- Powers are those of the core library, whatever else is imported.
attribute [local instance (high)] instPowNat

/-- The value loses nothing when its text is read: its integers have 64 bits, no object repeats a
member, and at most `depth` arrays and objects lie inside each other. -/
inductive Value.Plain : Nat → Value → Prop
  | null (depth : Nat) : Plain depth .null
  | bool (depth : Nat) (value : Bool) : Plain depth (.bool value)
  | int (depth : Nat) {n : Int} (least : -2 ^ (63 : Nat) ≤ n) (greatest : n < 2 ^ (64 : Nat)) :
    Plain depth (.number (.int n))
  | string (depth : Nat) (text : String) : Plain depth (.string text)
  | array {depth : Nat} {items : List Value} (each : ∀ item ∈ items, Plain depth item) :
    Plain (depth + 1) (.array items)
  | object {depth : Nat} {members : List (String × Value)}
    (distinct : (members.map (·.1)).Nodup) (each : ∀ member ∈ members, Plain depth member.2) :
    Plain (depth + 1) (.object members)

variable {depth : Nat}

theorem Value.Plain.whole {value : Value} (plain : value.Plain depth) : value.Whole := by
  induction plain with
  | null => exact .null
  | bool _ value => exact .bool value
  | int => exact .int _
  | string _ text => exact .string text
  | array _ ih => exact .array ih
  | object _ _ ih => exact .object ih

/-- A member that is not there yet comes last. -/
theorem setMember_of_not_mem {key : String} {value : Value} {seen : List (String × Value)}
    (fresh : key ∉ seen.map (·.1)) : setMember key value seen = seen ++ [(key, value)] := by
  induction seen with
  | nil => rfl
  | cons old seen ih =>
    obtain ⟨name, content⟩ := old
    rw [List.map_cons, List.mem_cons, not_or] at fresh
    obtain ⟨differs, later⟩ := fresh
    rw [setMember, if_neg (Ne.symm differs), ih later, List.cons_append]

theorem itemValues?_toSyntaxItems {items : List Value}
    (each : ∀ item ∈ items, item.toSyntax.value? depth = some item) :
    Syntax.itemValues? depth (Value.toSyntaxItems items) = some items := by
  induction items with
  | nil => rfl
  | cons item items ih =>
    obtain ⟨first, later⟩ := List.forall_mem_cons.mp each
    simp only [Value.toSyntaxItems, Syntax.itemValues?, first, ih later, Option.map_some]

theorem memberValues?_toSyntaxMembers {seen members : List (String × Value)}
    (distinct : ((seen ++ members).map (·.1)).Nodup)
    (each : ∀ member ∈ members, member.2.toSyntax.value? depth = some member.2) :
    Syntax.memberValues? depth seen (Value.toSyntaxMembers members) = some (seen ++ members) := by
  induction members generalizing seen with
  | nil => rw [Value.toSyntaxMembers, Syntax.memberValues?, List.append_nil]
  | cons member members ih =>
    obtain ⟨key, value⟩ := member
    obtain ⟨first, later⟩ := List.forall_mem_cons.mp each
    have fresh : key ∉ seen.map (·.1) := by
      rw [List.map_append, List.nodup_append] at distinct
      exact fun earlier => distinct.2.2 key earlier key List.mem_cons_self rfl
    have appended : seen ++ (key, value) :: members = seen ++ [(key, value)] ++ members := by
      rw [List.append_assoc, List.singleton_append]
    rw [appended] at distinct ⊢
    simp only [Value.toSyntaxMembers, Syntax.memberValues?, first, setMember_of_not_mem fresh]
    exact ih distinct later

/-- The tree of a value means the value. -/
theorem Value.Plain.value?_toSyntax {value : Value} (plain : value.Plain depth) :
    value.toSyntax.value? depth = some value := by
  induction plain with
  | null => rw [toSyntax, Syntax.value?]
  | bool => rw [toSyntax, Syntax.value?]
  | @int depth n least greatest =>
    have number : (NumberText.ofNumber (.int n)).number? = some (.int n) := by
      rw [NumberText.ofNumber, NumberText.number?, NumberText.int?_ofInt least greatest]
    rw [toSyntax, Syntax.value?, number, Option.map_some]
  | string => rw [toSyntax, Syntax.value?, Option.map_some]
  | array _ ih => rw [toSyntax, Syntax.value?, itemValues?_toSyntaxItems ih, Option.map_some]
  | @object depth members distinct _ ih =>
    have values : Syntax.memberValues? depth [] (toSyntaxMembers members) = some members :=
      memberValues?_toSyntaxMembers (by rwa [List.nil_append]) ih
    rw [toSyntax, Syntax.value?, values, Option.map_some]

/-- The indented text of a value means the value. -/
theorem Value.ofText?_prettyText {value : Value} (plain : value.Plain deepest) :
    Value.ofText? value.prettyText.toList = some value := by
  rw [ofText?, Syntax.ofText?_prettyText plain.whole, Option.bind_some, plain.value?_toSyntax]

end ExtensionAudit.Json
