import ExtensionAudit.Proofs.Files.Runs

namespace ExtensionAudit

variable {α β : Type} {paths : List String}

/-- The action changes nothing, and looks only at what the paths lead to. -/
def Inspects (paths : List String) (action : StateM FileTree α) : Prop :=
  ∀ t : FileTree, ∃ answer, ∀ other : FileTree,
    (∀ path ∈ paths, other.follow? path = t.follow? path) → Yields action other answer other

namespace Inspects

theorem mono {wider : List String} {action : StateM FileTree α} (inspects : Inspects paths action)
    (contained : paths ⊆ wider) : Inspects wider action := by
  intro t
  obtain ⟨answer, yields⟩ := inspects t
  exact ⟨answer, fun other same => yields other fun path listed => same path (contained listed)⟩

/-- Where the paths lead to the same, the answer is the same. -/
theorem congr {action : StateM FileTree α} (inspects : Inspects paths action)
    {t other after : FileTree} {answer : α} (ran : Yields action t answer after)
    (same : ∀ path ∈ paths, other.follow? path = t.follow? path) :
    after = t ∧ Yields action other answer other := by
  obtain ⟨found, yields⟩ := inspects t
  have here := yields t fun _ _ => rfl
  obtain ⟨rfl, rfl⟩ := Prod.mk.inj (here.symm.trans ran)
  exact ⟨rfl, yields other same⟩

theorem unchanged {action : StateM FileTree α} (inspects : Inspects paths action)
    {t after : FileTree} {answer : α} (ran : Yields action t answer after) : after = t :=
  (inspects.congr ran fun _ _ => rfl).1

theorem exists_yields {action : StateM FileTree α} (inspects : Inspects paths action)
    (t : FileTree) : ∃ answer, Yields action t answer t := by
  obtain ⟨answer, yields⟩ := inspects t
  exact ⟨answer, yields t fun _ _ => rfl⟩

theorem pure (answer : α) : Inspects paths (pure answer : StateM FileTree α) :=
  fun _ => ⟨answer, fun _ _ => rfl⟩

theorem bind {action : StateM FileTree α} {next : α → StateM FileTree β}
    (first : Inspects paths action) (rest : ∀ answer, Inspects paths (next answer)) :
    Inspects paths (action >>= next) := by
  intro t
  obtain ⟨found, yields⟩ := first t
  obtain ⟨answer, later⟩ := rest found t
  refine ⟨answer, fun other same => ?_⟩
  have step := yields other same
  have last := later other same
  simp only [Yields] at step last ⊢
  rw [StateT.run_bind, Id.run_bind, step]
  exact last

theorem map {action : StateM FileTree α} (inspects : Inspects paths action) (f : α → β) :
    Inspects paths (f <$> action) :=
  inspects.bind fun answer => pure (f answer)

/-- An action that may fail, and what comes after it when it does not. -/
theorem bind_run {action : ExceptT AuditError (StateM FileTree) α}
    {next : α → ExceptT AuditError (StateM FileTree) β} (first : Inspects paths action.run)
    (rest : ∀ answer, Inspects paths (next answer).run) :
    Inspects paths (action >>= next).run := by
  rw [ExceptT.run_bind]
  refine first.bind fun outcome => ?_
  cases outcome with
  | ok answer => exact rest answer
  | error fault => exact pure _

theorem pure_run (answer : α) :
    Inspects paths (Pure.pure answer : ExceptT AuditError (StateM FileTree) α).run :=
  pure _

theorem throw_run (fault : AuditError) :
    Inspects paths (throw fault : ExceptT AuditError (StateM FileTree) α).run :=
  pure _

theorem lift_run {action : StateM FileTree α} (inspects : Inspects paths action) :
    Inspects paths (liftM action : ExceptT AuditError (StateM FileTree) α).run :=
  inspects.map Except.ok

variable {path : String}

theorem read (listed : path ∈ paths) :
    Inspects paths (MonadFiles.read path : StateM FileTree (Option ByteArray)) := by
  intro t
  refine ⟨t.read? path, fun other same => ?_⟩
  rw [FileTree.yields_read_iff]
  exact ⟨by rw [FileTree.read?, FileTree.read?, same path listed], rfl⟩

theorem pathExists (listed : path ∈ paths) :
    Inspects paths (MonadFiles.pathExists path : StateM FileTree Bool) := by
  intro t
  refine ⟨t.pathExists path, fun other same => ?_⟩
  rw [FileTree.yields_pathExists_iff]
  exact ⟨by rw [FileTree.pathExists, FileTree.pathExists, same path listed], rfl⟩

theorem readBytes (listed : path ∈ paths) :
    Inspects paths (Files.readBytes path : ExceptT AuditError (StateM FileTree) ByteArray).run := by
  refine bind_run (lift_run (read listed)) fun found => ?_
  cases found with
  | some bytes => exact pure_run bytes
  | none => exact throw_run .files

theorem readText (listed : path ∈ paths) :
    Inspects paths (Files.readText path : ExceptT AuditError (StateM FileTree) String).run := by
  refine bind_run (readBytes listed) fun bytes => ?_
  cases String.fromUTF8? bytes with
  | some text => exact pure_run text
  | none => exact throw_run .files

end Inspects

end ExtensionAudit
