import ExtensionAudit.Files.Tree

namespace ExtensionAudit

variable {σ α β : Type}

/-- In the first state the action gives the answer and leaves the second state. -/
def Yields (action : StateM σ α) (before : σ) (answer : α) (after : σ) : Prop :=
  (action.run before).run = (answer, after)

/-- In the first state the action does not fail: it gives the answer and leaves the second state. -/
def Runs (action : ExceptT AuditError (StateM σ) α) (before : σ) (answer : α) (after : σ) : Prop :=
  Yields action.run before (.ok answer) after

namespace Yields

variable {before after : σ} {answer : α} {result : β}

theorem pure_iff {given : α} :
    Yields (pure given) before answer after ↔ given = answer ∧ before = after := by
  simp [Yields]

/-- A sequence is one action after the other. -/
theorem bind_iff (action : StateM σ α) (next : α → StateM σ β) :
    Yields (action >>= next) before result after ↔
      ∃ answer between, Yields action before answer between ∧
        Yields (next answer) between result after := by
  simp only [Yields, StateT.run_bind, Id.run_bind]
  constructor
  · intro ran
    exact ⟨_, _, rfl, ran⟩
  · rintro ⟨answer, between, first, rest⟩
    rw [first]
    exact rest

/-- An action has one outcome. -/
theorem unique {action : StateM σ α} {other : α} {state : σ}
    (ran : Yields action before answer after) (again : Yields action before other state) :
    answer = other ∧ after = state :=
  Prod.mk.inj (ran.symm.trans again)

/-- Where an action leaves the state as it is, it can be taken for each item of a list. -/
theorem mapM {action : α → StateM σ β} {f : α → β} {state : σ}
    (each : ∀ item, Yields (action item) state (f item) state) (items : List α) :
    Yields (items.mapM action) state (items.map f) state := by
  induction items with
  | nil => exact pure_iff.mpr ⟨rfl, rfl⟩
  | cons item items ih =>
    rw [List.mapM_cons, bind_iff]
    refine ⟨_, state, each item, ?_⟩
    rw [bind_iff]
    exact ⟨_, state, ih, pure_iff.mpr ⟨rfl, rfl⟩⟩

end Yields

namespace Runs

variable {before after : σ} {answer : α} {result : β}

theorem pure_iff {given : α} :
    Runs (pure given) before answer after ↔ given = answer ∧ before = after := by
  simp [Runs, Yields]

theorem not_throw (fault : AuditError) : ¬ Runs (throw fault) before answer after := by
  simp [Runs, Yields]

theorem lift_iff (action : StateM σ α) :
    Runs (liftM action) before answer after ↔ Yields action before answer after := by
  simp [Runs, Yields, Prod.ext_iff]

/-- A sequence runs if its parts run one after the other. -/
theorem bind_iff (action : ExceptT AuditError (StateM σ) α)
    (next : α → ExceptT AuditError (StateM σ) β) :
    Runs (action >>= next) before result after ↔
      ∃ answer between, Runs action before answer between ∧
        Runs (next answer) between result after := by
  simp only [Runs, Yields, ExceptT.run_bind, StateT.run_bind, Id.run_bind]
  obtain ⟨outcome, between⟩ := (StateT.run action.run before).run
  cases outcome with
  | error fault => simp
  | ok answer =>
    constructor
    · intro ran
      exact ⟨answer, between, rfl, ran⟩
    · rintro ⟨_, _, same, ran⟩
      cases same
      exact ran

/-- A sequence goes on from where its first part has run. -/
theorem bind {action : ExceptT AuditError (StateM σ) α} {between : σ}
    {next : α → ExceptT AuditError (StateM σ) β} {outcome : Except AuditError β}
    (first : Runs action before answer between)
    (rest : Yields (next answer).run between outcome after) :
    Yields (action >>= next).run before outcome after := by
  rw [ExceptT.run_bind]
  exact (Yields.bind_iff _ _).mpr ⟨.ok answer, between, first, rest⟩

/-- A sequence fails where its first part fails. -/
theorem bind_error {action : ExceptT AuditError (StateM σ) α}
    {next : α → ExceptT AuditError (StateM σ) β} {fault : AuditError}
    (failed : Yields action.run before (.error fault) after) :
    Yields (action >>= next).run before (.error fault) after := by
  rw [ExceptT.run_bind]
  exact (Yields.bind_iff _ _).mpr ⟨.error fault, after, failed, Yields.pure_iff.mpr ⟨rfl, rfl⟩⟩

/-- What is granted runs. -/
theorem demand {operation : StateM σ Bool} (granted : Yields operation before true after) :
    Runs (Files.demand operation) before () after := by
  rw [Files.demand, bind_iff]
  exact ⟨true, after, (lift_iff _).mpr granted, pure_iff.mpr ⟨rfl, rfl⟩⟩

/-- What is demanded was granted. -/
theorem demand_iff [MonadFiles (StateM σ)] {operation : StateM σ Bool} {answer : Unit} :
    Runs (Files.demand operation) before answer after ↔ Yields operation before true after := by
  refine ⟨fun ran => ?_, demand⟩
  rw [Files.demand, bind_iff] at ran
  obtain ⟨granted, between, operated, checked⟩ := ran
  rw [lift_iff] at operated
  cases granted with
  | false => exact absurd checked (not_throw _)
  | true =>
    obtain ⟨-, rfl⟩ := pure_iff.mp checked
    exact operated

/-- What is refused fails. -/
theorem demand_refused {operation : StateM σ Bool} (refused : Yields operation before false after) :
    Yields (Files.demand operation).run before (.error .files) after :=
  bind ((lift_iff operation).mpr refused) rfl

variable [MonadFiles (StateM σ)] {path text : String}

theorem readBytes_iff {bytes : ByteArray} :
    Runs (Files.readBytes path) before bytes after ↔
      Yields (MonadFiles.read path) before (some bytes) after := by
  rw [Files.readBytes, bind_iff]
  constructor
  · rintro ⟨found, between, read, given⟩
    rw [lift_iff] at read
    cases found with
    | none => exact absurd given (not_throw _)
    | some content =>
      obtain ⟨rfl, rfl⟩ := pure_iff.mp given
      exact read
  · intro read
    exact ⟨some bytes, after, (lift_iff _).mpr read, pure_iff.mpr ⟨rfl, rfl⟩⟩

theorem readText_iff :
    Runs (Files.readText path) before text after ↔
      ∃ bytes, Yields (MonadFiles.read path) before (some bytes) after ∧
        String.fromUTF8? bytes = some text := by
  rw [Files.readText, bind_iff]
  constructor
  · rintro ⟨bytes, between, read, given⟩
    cases decoded : String.fromUTF8? bytes with
    | none =>
      rw [decoded] at given
      exact absurd given (not_throw _)
    | some found =>
      rw [decoded] at given
      obtain ⟨rfl, rfl⟩ := pure_iff.mp given
      exact ⟨bytes, readBytes_iff.mp read, decoded⟩
  · rintro ⟨bytes, read, decoded⟩
    refine ⟨bytes, after, readBytes_iff.mpr read, ?_⟩
    rw [decoded]
    exact pure_iff.mpr ⟨rfl, rfl⟩

theorem readText_of_read (read : Yields (MonadFiles.read path) before (some text.toUTF8) after) :
    Runs (Files.readText path) before text after :=
  readText_iff.mpr ⟨_, read, Files.fromUTF8?_toUTF8 text⟩

end Runs

/-- What is written to a path is read from it, and read from the path that the file is given
afterwards. -/
class LawfulFiles (σ : Type) [MonadFiles (StateM σ)] : Prop where
  read_of_write {path : String} {content : ByteArray} {before after : σ} :
    Yields (MonadFiles.write path content) before true after →
      Yields (MonadFiles.read path) after (some content) after
  read_of_rename {source target : String} {content : ByteArray} {before after : σ} :
    Yields (MonadFiles.read source) before (some content) before →
      Yields (MonadFiles.rename source target) before true after →
        Yields (MonadFiles.read target) after (some content) after
  exists_of_read {path : String} {content : ByteArray} {state : σ} :
    Yields (MonadFiles.read path) state (some content) state →
      Yields (MonadFiles.pathExists path) state true state

namespace FileTree

theorem yields_changeTree_iff {change : FileTree → Option FileTree} {before after : FileTree} :
    Yields (changeTree change) before true after ↔ change before = some after := by
  cases changed : change before <;> simp [Yields, changeTree, StateT.run, Id.run, changed]

theorem eq_of_changeTree_refused {change : FileTree → Option FileTree} {before after : FileTree}
    (refused : Yields (changeTree change) before false after) : after = before := by
  cases changed : change before <;> simp_all [Yields, changeTree, StateT.run, Id.run]

theorem eq_of_yields_createDirectories {path : String} {granted : Bool} {before after : FileTree}
    (made : Yields (MonadFiles.createDirectories path) before granted after) :
    after = (before.createDirectories path).2 :=
  (congrArg Prod.snd made).symm

theorem yields_read_iff {path : String} {found : Option ByteArray} {before after : FileTree} :
    Yields (MonadFiles.read path) before found after ↔
      before.read? path = found ∧ before = after := by
  simp [Yields, MonadFiles.read]

theorem yields_pathExists_iff {path : String} {found : Bool} {before after : FileTree} :
    Yields (MonadFiles.pathExists path) before found after ↔
      before.pathExists path = found ∧ before = after := by
  simp [Yields, MonadFiles.pathExists]

end FileTree

instance : LawfulFiles FileTree where
  read_of_write written := by
    rw [FileTree.yields_read_iff]
    exact ⟨FileTree.read?_write? (FileTree.yields_changeTree_iff.mp written), rfl⟩
  read_of_rename held renamed := by
    rw [FileTree.yields_read_iff]
    have held := (FileTree.yields_read_iff.mp held).1
    exact ⟨FileTree.read?_rename? held (FileTree.yields_changeTree_iff.mp renamed), rfl⟩
  exists_of_read held := by
    rw [FileTree.yields_pathExists_iff]
    exact ⟨FileTree.pathExists_of_read? (FileTree.yields_read_iff.mp held).1, rfl⟩

end ExtensionAudit
