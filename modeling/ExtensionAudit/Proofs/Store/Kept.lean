import ExtensionAudit.Proofs.Files.Places
import ExtensionAudit.Proofs.Files.Runs
import ExtensionAudit.Proofs.Store.RecordText

namespace ExtensionAudit

/-- The record that is kept where another one may be: it takes over the time of the first. -/
def Record.inPlaceOf (record : Record) : Option Record → Record
  | some old => { record with createdAt := old.createdAt }
  | none => record

namespace RecordStore

variable {σ : Type} [MonadFiles (StateM σ)] {store : RecordStore} {record kept : Record}
  {before after : σ}

open Runs

/-- To put a record: make the directory, look for an earlier record, write the draft, and give the
draft the name of the record. -/
theorem put_iff :
    Runs (store.put record) before kept after ↔
      ∃ made found looked drafted,
        Yields (MonadFiles.createDirectories store.directory) before true made ∧
        Runs (store.get record.id) made found looked ∧
        kept = record.inPlaceOf found ∧
        Yields (MonadFiles.write (store.draftPath record.id) kept.text.toUTF8) looked true drafted ∧
        Yields (MonadFiles.rename (store.draftPath record.id) (store.path record.id)) drafted true
          after := by
  simp only [put, bind_iff, demand_iff, pure_iff, Files.writeText]
  constructor
  · rintro ⟨-, made, directories, found, looked, got, -, drafted, written, -, last, renamed, rfl,
      rfl⟩
    refine ⟨made, found, looked, drafted, directories, got, ?_, written, renamed⟩
    cases found <;> rfl
  · rintro ⟨made, found, looked, drafted, directories, got, rfl, written, renamed⟩
    refine ⟨(), made, directories, found, looked, got, (), drafted, ?_, (), after, renamed, ?_, rfl⟩
    · cases found <;> exact written
    · cases found <;> rfl

/-- The text of a record, where it lies under the id, is read as the record. -/
theorem get_of_read {id : ExtensionId} [LawfulFiles σ]
    (held : Yields (MonadFiles.read (store.path id)) after (some record.text.toUTF8) after) :
    Runs (store.get id) after (some record) after := by
  have found := LawfulFiles.exists_of_read held
  have text := readText_of_read held
  have read : Runs (readRecord (store.path id)) after record after := by
    rw [readRecord, bind_iff]
    refine ⟨record.text, after, text, ?_⟩
    rw [Record.ofText?_text]
    exact pure_iff.mpr ⟨rfl, rfl⟩
  rw [get, bind_iff]
  refine ⟨true, after, (lift_iff _).mpr found, ?_⟩
  rw [if_pos rfl, bind_iff]
  exact ⟨record, after, read, pure_iff.mpr ⟨rfl, rfl⟩⟩

/-- A record that was put is given back as it is kept. -/
theorem get_of_put [LawfulFiles σ] (stored : Runs (store.put record) before kept after) :
    Runs (store.get record.id) after (some kept) after := by
  obtain ⟨made, found, looked, drafted, -, -, -, written, renamed⟩ := put_iff.mp stored
  have draft := LawfulFiles.read_of_write written
  exact get_of_read (LawfulFiles.read_of_rename draft renamed)

theorem get_of_absent {id : ExtensionId}
    (absent : Yields (MonadFiles.pathExists (store.path id)) before false after) :
    Runs (store.get id) before none after := by
  rw [get, bind_iff]
  exact ⟨false, after, (lift_iff _).mpr absent, pure_iff.mpr ⟨rfl, rfl⟩⟩

/-- The file system grants what it takes to put a record where there is none of its extension. -/
def Grants (store : RecordStore) (record : Record) (before after : σ) : Prop :=
  ∃ made looked drafted,
    Yields (MonadFiles.createDirectories store.directory) before true made ∧
    Runs (store.get record.id) made none looked ∧
    Yields (MonadFiles.write (store.draftPath record.id) record.text.toUTF8) looked true drafted ∧
    Yields (MonadFiles.rename (store.draftPath record.id) (store.path record.id)) drafted true after

theorem Grants.put (granted : store.Grants record before after) :
    Runs (store.put record) before record after := by
  obtain ⟨made, looked, drafted, directories, nothing, written, renamed⟩ := granted
  exact put_iff.mpr ⟨made, none, looked, drafted, directories, nothing, rfl, written, renamed⟩

end RecordStore

namespace FileTree

/-- A tree grants a put of a record that is not there yet, if the directory can be made and nothing
stands in the way of the two files. -/
theorem exists_grants {t made : FileTree} {store : RecordStore} {record : Record}
    {here there : List String} (directories : t.createDirectories store.directory = (true, made))
    (absent : made.pathExists (store.path record.id) = false)
    (atDraft : made.filePlace? (store.draftPath record.id) = some here)
    (atPath : made.filePlace? (store.path record.id) = some there) :
    ∃ after, store.Grants record t after := by
  obtain ⟨drafted, written, renamed⟩ := write?_rename? atDraft atPath record.text.toUTF8
  have nothing : Runs (store.get record.id) made none made :=
    RecordStore.get_of_absent (yields_pathExists_iff.mpr ⟨absent, rfl⟩)
  exact ⟨_, made, made, drafted, directories, nothing, yields_changeTree_iff.mpr written,
    yields_changeTree_iff.mpr renamed⟩

end FileTree

end ExtensionAudit
