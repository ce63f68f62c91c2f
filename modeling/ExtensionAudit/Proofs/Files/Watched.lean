import ExtensionAudit.Proofs.Files.Directories
import ExtensionAudit.Proofs.Files.Runs

namespace ExtensionAudit

variable {σ α β : Type}

/-- The answer that an action gives in a state. -/
def answer (action : StateM σ α) (state : σ) : α :=
  (action.run state).run.1

theorem Yields.answer_eq {action : StateM σ α} {before after : σ} {given : α}
    (ran : Yields action before given after) : answer action before = given := by
  rw [answer, ran]

/-- The trees in which a file holds the beginning of a content, up to all of it. -/
def FileTree.writePoints (t : FileTree) (path : String) (content : ByteArray) : List FileTree :=
  (List.range (content.size + 1)).filterMap fun size => t.write? path (content.extract 0 size)

/-- A tree as it is now, and the trees that were seen before. -/
structure Watched where
  now : FileTree
  seen : List FileTree := []

namespace Watched

/-- An operation on the tree. The tree is seen as it was, and at the points that are passed. -/
def change (operation : StateM FileTree Bool) (points : FileTree → List FileTree) :
    StateM Watched Bool := fun w =>
  let (granted, changed) := (operation.run w.now).run
  (granted, ⟨changed, points w.now ++ w.now :: w.seen⟩)

instance : MonadFiles (StateM Watched) where
  pathExists path := return (← get).now.pathExists path
  read path := return (← get).now.read? path
  write path content := change (MonadFiles.write path content) (·.writePoints path content)
  createDirectories path := change (MonadFiles.createDirectories path) (·.creationPoints path)
  rename source target := change (MonadFiles.rename source target) fun _ => []
  fileNames path := return (← get).now.fileNames path

variable {w after : Watched} {path : String} {granted : Bool}

/-- A watched operation does to the tree what the operation does. -/
theorem yields_change_iff {operation : StateM FileTree Bool} {points : FileTree → List FileTree} :
    Yields (change operation points) w granted after ↔
      Yields operation w.now granted after.now ∧ after.seen = points w.now ++ w.now :: w.seen := by
  obtain ⟨now, seen⟩ := after
  simp [Yields, change, StateT.run, Id.run, Prod.ext_iff, and_assoc, eq_comm]

theorem yields_createDirectories_iff :
    Yields (MonadFiles.createDirectories path) w granted after ↔
      Yields (MonadFiles.createDirectories path) w.now granted after.now ∧
        after.seen = w.now.creationPoints path ++ w.now :: w.seen :=
  yields_change_iff

theorem yields_write_iff {content : ByteArray} :
    Yields (MonadFiles.write path content) w granted after ↔
      Yields (MonadFiles.write path content) w.now granted after.now ∧
        after.seen = w.now.writePoints path content ++ w.now :: w.seen :=
  yields_change_iff

theorem yields_rename_iff {target : String} :
    Yields (MonadFiles.rename path target) w granted after ↔
      Yields (MonadFiles.rename path target) w.now granted after.now ∧
        after.seen = w.now :: w.seen :=
  yields_change_iff

/-- On a watched tree the action gives the answer that it gives on the tree. It changes nothing, and
no other tree is seen. -/
def Mirrors (plain : StateM FileTree α) (watched : StateM Watched α) : Prop :=
  ∀ w : Watched, ∃ given, Yields plain w.now given w.now ∧ Yields watched w given w

namespace Mirrors

theorem pure (given : α) : Mirrors (pure given) (pure given) :=
  fun _ => ⟨given, rfl, rfl⟩

theorem bind {plain : StateM FileTree α} {watched : StateM Watched α}
    {next : α → StateM FileTree β} {watchedNext : α → StateM Watched β}
    (first : Mirrors plain watched) (rest : ∀ given, Mirrors (next given) (watchedNext given)) :
    Mirrors (plain >>= next) (watched >>= watchedNext) := by
  intro w
  obtain ⟨found, ran, watchedRan⟩ := first w
  obtain ⟨given, later, watchedLater⟩ := rest found w
  exact ⟨given, (Yields.bind_iff _ _).mpr ⟨found, w.now, ran, later⟩,
    (Yields.bind_iff _ _).mpr ⟨found, w, watchedRan, watchedLater⟩⟩

theorem map {plain : StateM FileTree α} {watched : StateM Watched α}
    (mirrors : Mirrors plain watched) (f : α → β) : Mirrors (f <$> plain) (f <$> watched) :=
  mirrors.bind fun given => pure (f given)

/-- An action that may fail, and what comes after it when it does not. -/
theorem bind_run {plain : ExceptT AuditError (StateM FileTree) α}
    {watched : ExceptT AuditError (StateM Watched) α}
    {next : α → ExceptT AuditError (StateM FileTree) β}
    {watchedNext : α → ExceptT AuditError (StateM Watched) β}
    (first : Mirrors plain.run watched.run)
    (rest : ∀ given, Mirrors (next given).run (watchedNext given).run) :
    Mirrors (plain >>= next).run (watched >>= watchedNext).run := by
  rw [ExceptT.run_bind, ExceptT.run_bind]
  refine first.bind fun outcome => ?_
  cases outcome with
  | ok given => exact rest given
  | error fault => exact pure _

theorem pure_run (given : α) :
    Mirrors (Pure.pure given : ExceptT AuditError (StateM FileTree) α).run
      (Pure.pure given : ExceptT AuditError (StateM Watched) α).run :=
  pure _

theorem throw_run (fault : AuditError) :
    Mirrors (throw fault : ExceptT AuditError (StateM FileTree) α).run
      (throw fault : ExceptT AuditError (StateM Watched) α).run :=
  pure _

theorem lift_run {plain : StateM FileTree α} {watched : StateM Watched α}
    (mirrors : Mirrors plain watched) :
    Mirrors (liftM plain : ExceptT AuditError (StateM FileTree) α).run
      (liftM watched : ExceptT AuditError (StateM Watched) α).run :=
  mirrors.map Except.ok

theorem read (path : String) : Mirrors (MonadFiles.read path) (MonadFiles.read path) :=
  fun _ => ⟨_, rfl, rfl⟩

theorem pathExists (path : String) :
    Mirrors (MonadFiles.pathExists path) (MonadFiles.pathExists path) :=
  fun _ => ⟨_, rfl, rfl⟩

theorem readText (path : String) :
    Mirrors (Files.readText path : ExceptT AuditError (StateM FileTree) String).run
      (Files.readText path : ExceptT AuditError (StateM Watched) String).run := by
  have bytes : Mirrors (Files.readBytes path : ExceptT AuditError (StateM FileTree) ByteArray).run
      (Files.readBytes path : ExceptT AuditError (StateM Watched) ByteArray).run := by
    refine bind_run (lift_run (read path)) fun found => ?_
    cases found with
    | some bytes => exact pure_run bytes
    | none => exact throw_run .files
  refine bytes.bind_run fun bytes => ?_
  cases String.fromUTF8? bytes with
  | some text => exact pure_run text
  | none => exact throw_run .files

end Mirrors

end Watched

end ExtensionAudit
