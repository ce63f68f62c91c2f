import ExtensionAudit.Proofs.Files.Runs

namespace ExtensionAudit

variable {σ α β : Type} {fault : AuditError}

/-- A sequence fails where its first part does, or where its second part does after the first has
run. -/
theorem Yields.bind_error_iff (action : ExceptT AuditError (StateM σ) α)
    (next : α → ExceptT AuditError (StateM σ) β) {before after : σ} :
    Yields (action >>= next).run before (.error fault) after ↔
      Yields action.run before (.error fault) after ∨
        ∃ answer between, Runs action before answer between ∧
          Yields (next answer).run between (.error fault) after := by
  constructor
  · intro failed
    rw [ExceptT.run_bind, Yields.bind_iff] at failed
    obtain ⟨outcome, between, ran, rest⟩ := failed
    cases outcome with
    | ok answer => exact Or.inr ⟨answer, between, ran, rest⟩
    | error earlier =>
      obtain ⟨same, rfl⟩ := Yields.pure_iff.mp rest
      cases Except.error.inj same
      exact Or.inl ran
  · rintro (failed | ⟨answer, between, ran, failed⟩)
    · exact Runs.bind_error failed
    · exact ran.bind failed

theorem Yields.throw_iff {given : AuditError} {before after : σ} :
    Yields (throw given : ExceptT AuditError (StateM σ) α).run before (.error fault) after ↔
      given = fault ∧ before = after := by
  simp [Yields]

/-- Wherever it begins, the action does not fail with the fault. -/
def Spares (fault : AuditError) (action : ExceptT AuditError (StateM σ) α) : Prop :=
  ∀ before after : σ, ¬ Yields action.run before (.error fault) after

namespace Spares

theorem pure (answer : α) : Spares fault (pure answer : ExceptT AuditError (StateM σ) α) := by
  intro before after failed
  exact nomatch (Yields.pure_iff.mp failed).1

theorem throw {given : AuditError} (other : given ≠ fault) :
    Spares fault (throw given : ExceptT AuditError (StateM σ) α) :=
  fun _ _ failed => other (Yields.throw_iff.mp failed).1

theorem lift (action : StateM σ α) :
    Spares fault (liftM action : ExceptT AuditError (StateM σ) α) := by
  intro before after failed
  simp [Yields, Prod.ext_iff] at failed

theorem bind {action : ExceptT AuditError (StateM σ) α}
    {next : α → ExceptT AuditError (StateM σ) β} (first : Spares fault action)
    (rest : ∀ answer, Spares fault (next answer)) : Spares fault (action >>= next) := by
  intro before after failed
  rcases (Yields.bind_error_iff action next).mp failed with early | ⟨answer, between, -, late⟩
  · exact first before after early
  · exact rest answer between after late

/-- What is looked up for an optional item, if it is there. -/
theorem mapM {action : α → ExceptT AuditError (StateM σ) β}
    (each : ∀ item, Spares fault (action item)) (item? : Option α) :
    Spares fault (item?.mapM action) := by
  cases item? with
  | none => exact pure none
  | some item => exact (each item).bind fun found => pure (some found)

theorem demand (other : AuditError.files ≠ fault) (operation : StateM σ Bool) :
    Spares fault (Files.demand operation) := by
  refine (lift operation).bind fun granted => ?_
  cases granted with
  | false => exact throw other
  | true => exact pure ()

variable [MonadFiles (StateM σ)]

theorem readBytes (other : AuditError.files ≠ fault) (path : String) :
    Spares fault (Files.readBytes path : ExceptT AuditError (StateM σ) ByteArray) := by
  refine (lift (MonadFiles.read path)).bind fun found => ?_
  cases found with
  | none => exact throw other
  | some bytes => exact pure bytes

theorem readText (other : AuditError.files ≠ fault) (path : String) :
    Spares fault (Files.readText path : ExceptT AuditError (StateM σ) String) := by
  refine (readBytes other path).bind fun bytes => ?_
  cases String.fromUTF8? bytes with
  | none => exact throw other
  | some text => exact pure text

end Spares

end ExtensionAudit
