import ExtensionAudit.Proofs.Store.Readers

namespace ExtensionAudit

theorem Yields.exists_outcome {σ α : Type} (action : StateM σ α) (before : σ) :
    ∃ given after, Yields action before given after :=
  ⟨_, _, rfl⟩

/-- The text of a record is not empty: it is read as the record. -/
theorem Record.one_le_size_text (record : Record) :
    1 ≤ record.text.toUTF8.size := by
  have empty : ∀ text : String, ¬ 1 ≤ text.toUTF8.size → text = "" := fun text short =>
    String.utf8ByteSize_eq_zero_iff.mp (Nat.lt_one_iff.mp (Nat.not_le.mp short))
  by_contra short
  have read := ofText?_text record
  rw [empty _ short] at read
  exact nomatch read

namespace RecordStore

variable {σ : Type} [MonadFiles (StateM σ)] {store : RecordStore} {record : Record}
  {outcome : Except AuditError Record}

/-- A put goes through its steps as far as they succeed: the directory, the earlier record, the
draft, and the place of the record. -/
inductive PutSteps (store : RecordStore) (record : Record) (before : σ) :
    Except AuditError Record → σ → Prop
  | noDirectory {made} :
      Yields (MonadFiles.createDirectories store.directory) before false made →
      PutSteps store record before (.error .files) made
  | unreadable {made looked fault} :
      Yields (MonadFiles.createDirectories store.directory) before true made →
      Yields (store.get record.id).run made (.error fault) looked →
      PutSteps store record before (.error fault) looked
  | noDraft {made looked found drafted} :
      Yields (MonadFiles.createDirectories store.directory) before true made →
      Runs (store.get record.id) made found looked →
      Yields (MonadFiles.write (store.draftPath record.id) (record.inPlaceOf found).text.toUTF8)
        looked false drafted →
      PutSteps store record before (.error .files) drafted
  | noPlace {made looked found drafted after} :
      Yields (MonadFiles.createDirectories store.directory) before true made →
      Runs (store.get record.id) made found looked →
      Yields (MonadFiles.write (store.draftPath record.id) (record.inPlaceOf found).text.toUTF8)
        looked true drafted →
      Yields (MonadFiles.rename (store.draftPath record.id) (store.path record.id)) drafted false
        after →
      PutSteps store record before (.error .files) after
  | kept {made looked found drafted after} :
      Yields (MonadFiles.createDirectories store.directory) before true made →
      Runs (store.get record.id) made found looked →
      Yields (MonadFiles.write (store.draftPath record.id) (record.inPlaceOf found).text.toUTF8)
        looked true drafted →
      Yields (MonadFiles.rename (store.draftPath record.id) (store.path record.id)) drafted true
        after →
      PutSteps store record before (.ok (record.inPlaceOf found)) after

/-- One of the steps is the last one. -/
theorem exists_putSteps (store : RecordStore) (record : Record) (before : σ) :
    ∃ outcome after, PutSteps store record before outcome after := by
  obtain ⟨granted, made, directories⟩ :=
    Yields.exists_outcome (MonadFiles.createDirectories store.directory) before
  cases granted with
  | false => exact ⟨_, _, .noDirectory directories⟩
  | true =>
    obtain ⟨earlier, looked, got⟩ := Yields.exists_outcome (store.get record.id).run made
    cases earlier with
    | error fault => exact ⟨_, _, .unreadable directories got⟩
    | ok found =>
      obtain ⟨granted, drafted, written⟩ := Yields.exists_outcome
        (MonadFiles.write (store.draftPath record.id) (record.inPlaceOf found).text.toUTF8) looked
      cases granted with
      | false => exact ⟨_, _, .noDraft directories got written⟩
      | true =>
        obtain ⟨granted, after, renamed⟩ := Yields.exists_outcome
          (MonadFiles.rename (store.draftPath record.id) (store.path record.id)) drafted
        cases granted with
        | false => exact ⟨_, _, .noPlace directories got written renamed⟩
        | true => exact ⟨_, _, .kept directories got written renamed⟩

theorem PutSteps.yields {before after : σ} (steps : PutSteps store record before outcome after) :
    Yields (store.put record).run before outcome after := by
  cases steps with
  | noDirectory directories => exact Runs.bind_error (Runs.demand_refused directories)
  | unreadable directories got =>
    exact (Runs.demand directories).bind (Runs.bind_error got)
  | @noDraft _ _ found _ directories got written =>
    refine (Runs.demand directories).bind (got.bind ?_)
    cases found <;> exact Runs.bind_error (Runs.demand_refused written)
  | @noPlace _ _ found _ _ directories got written renamed =>
    refine (Runs.demand directories).bind (got.bind ?_)
    cases found <;> exact (Runs.demand written).bind
      (Runs.bind_error (Runs.demand_refused renamed))
  | kept directories got written renamed =>
    exact put_iff.mpr ⟨_, _, _, _, directories, got, rfl, written, renamed⟩

section Watched

variable {t : FileTree} {w watched : Watched} {found : Option Record} {granted : Bool}

theorem mirrors_get (store : RecordStore) (id : ExtensionId) :
    Watched.Mirrors (store.get id : ExceptT AuditError (StateM FileTree) (Option Record)).run
      (store.get id : ExceptT AuditError (StateM Watched) (Option Record)).run := by
  have record : Watched.Mirrors
      (readRecord (store.path id) : ExceptT AuditError (StateM FileTree) Record).run
      (readRecord (store.path id) : ExceptT AuditError (StateM Watched) Record).run := by
    refine (Watched.Mirrors.readText _).bind_run fun text => ?_
    cases Record.ofText? text with
    | some record => exact Watched.Mirrors.pure_run record
    | none => exact Watched.Mirrors.throw_run .brokenRecord
  refine (Watched.Mirrors.pathExists _).lift_run.bind_run fun found => ?_
  cases found with
  | false => exact Watched.Mirrors.pure_run none
  | true => exact record.bind_run fun record => Watched.Mirrors.pure_run (some record)

/-- To look for a record is not seen, and gives the answer that the tree gives. -/
theorem get_watched {id : ExtensionId} {earlier : Except AuditError (Option Record)}
    (got : Yields (store.get id).run w earlier watched) :
    watched = w ∧ Yields (store.get id).run w.now earlier w.now := by
  obtain ⟨given, ran, watchedRan⟩ := mirrors_get store id w
  obtain ⟨rfl, rfl⟩ := watchedRan.unique got
  exact ⟨rfl, ran⟩

/-- The steps on a watched tree are steps on the tree. -/
theorem PutSteps.now (steps : PutSteps store record w outcome watched) :
    PutSteps store record w.now outcome watched.now := by
  cases steps with
  | noDirectory directories =>
    exact .noDirectory (Watched.yields_createDirectories_iff.mp directories).1
  | unreadable directories got =>
    obtain ⟨rfl, read⟩ := get_watched got
    exact .unreadable (Watched.yields_createDirectories_iff.mp directories).1 read
  | noDraft directories got written =>
    obtain ⟨rfl, read⟩ := get_watched got
    exact .noDraft (Watched.yields_createDirectories_iff.mp directories).1 read
      (Watched.yields_write_iff.mp written).1
  | noPlace directories got written renamed =>
    obtain ⟨rfl, read⟩ := get_watched got
    exact .noPlace (Watched.yields_createDirectories_iff.mp directories).1 read
      (Watched.yields_write_iff.mp written).1 (Watched.yields_rename_iff.mp renamed).1
  | kept directories got written renamed =>
    obtain ⟨rfl, read⟩ := get_watched got
    exact .kept (Watched.yields_createDirectories_iff.mp directories).1 read
      (Watched.yields_write_iff.mp written).1 (Watched.yields_rename_iff.mp renamed).1

/-- Readers see nothing of what has happened to the tree, other than that the directory of the store
is there now. -/
structure Unseen (store : RecordStore) (t : FileTree) (w : Watched) : Prop where
  now : store.LooksAlike (store.prepared t) w.now
  seen : ∀ point ∈ w.seen, store.LooksAlike t point ∨ store.LooksAlike (store.prepared t) point

theorem Unseen.createDirectories (formed : t.Formed)
    (directories :
      Yields (MonadFiles.createDirectories store.directory) (Watched.mk t []) granted w) :
    store.Unseen t w := by
  obtain ⟨ran, seen⟩ := Watched.yields_createDirectories_iff.mp directories
  refine ⟨?_, fun point listed => ?_⟩
  · rw [FileTree.eq_of_yields_createDirectories ran]
    exact LooksAlike.refl store _
  · rw [seen, List.mem_append, List.mem_singleton] at listed
    rcases listed with passed | rfl
    · refine (looksAlike_or_eq_prepared formed passed).imp_right fun same => ?_
      rw [same]
      exact LooksAlike.refl store _
    · exact Or.inl (LooksAlike.refl store _)

theorem looksAlike_write? {id : ExtensionId} {content : ByteArray} {changed : FileTree}
    (written : t.write? (store.draftPath id) content = some changed) :
    store.LooksAlike t changed := by
  obtain ⟨place, found, rfl⟩ := Option.map_eq_some_iff.mp written
  obtain ⟨leads, free⟩ := Option.filter_eq_some_iff.mp found
  exact looksAlike_put_draft leads (by simpa using free) content

theorem Unseen.write (unseen : store.Unseen t w) {id : ExtensionId} {content : ByteArray}
    (written : Yields (MonadFiles.write (store.draftPath id) content) w granted watched) :
    store.Unseen t watched := by
  obtain ⟨ran, seen⟩ := Watched.yields_write_iff.mp written
  refine ⟨unseen.now.trans ?_, fun point listed => ?_⟩
  · cases granted with
    | false =>
      rw [FileTree.eq_of_changeTree_refused ran]
      exact LooksAlike.refl store _
    | true => exact looksAlike_write? (FileTree.yields_changeTree_iff.mp ran)
  · rw [seen, List.mem_append, List.mem_cons] at listed
    rcases listed with passed | rfl | earlier
    · obtain ⟨size, -, partly⟩ := List.mem_filterMap.mp passed
      exact Or.inr (unseen.now.trans (looksAlike_write? partly))
    · exact Or.inr unseen.now
    · exact unseen.seen point earlier

/-- The tree before a file takes its place is seen, and it is the tree afterwards if it does not. -/
theorem Unseen.rename (unseen : store.Unseen t w) {source target : String}
    (renamed : Yields (MonadFiles.rename source target) w granted watched) :
    (∀ point ∈ watched.seen,
        store.LooksAlike t point ∨ store.LooksAlike (store.prepared t) point) ∧
      (granted = false → store.LooksAlike (store.prepared t) watched.now) := by
  obtain ⟨ran, seen⟩ := Watched.yields_rename_iff.mp renamed
  refine ⟨fun point listed => ?_, ?_⟩
  · rw [seen] at listed
    rcases List.mem_cons.mp listed with rfl | earlier
    · exact Or.inr unseen.now
    · exact unseen.seen point earlier
  · rintro rfl
    rw [FileTree.eq_of_changeTree_refused ran]
    exact unseen.now

/-- Up to the last step readers see nothing of a put but the directory, and so they do of a put that
fails. -/
theorem PutSteps.unseen (formed : t.Formed)
    (steps : PutSteps store record (Watched.mk t []) outcome watched) :
    (∀ point ∈ watched.seen,
        store.LooksAlike t point ∨ store.LooksAlike (store.prepared t) point) ∧
      ∀ fault, outcome = .error fault → store.LooksAlike (store.prepared t) watched.now := by
  cases steps with
  | noDirectory directories =>
    have unseen := Unseen.createDirectories formed directories
    exact ⟨unseen.seen, fun _ _ => unseen.now⟩
  | unreadable directories got =>
    obtain ⟨rfl, -⟩ := get_watched got
    have unseen := Unseen.createDirectories formed directories
    exact ⟨unseen.seen, fun _ _ => unseen.now⟩
  | noDraft directories got written =>
    obtain ⟨rfl, -⟩ := get_watched got
    have unseen := (Unseen.createDirectories formed directories).write written
    exact ⟨unseen.seen, fun _ _ => unseen.now⟩
  | noPlace directories got written renamed =>
    obtain ⟨rfl, -⟩ := get_watched got
    have unseen := (Unseen.createDirectories formed directories).write written
    obtain ⟨seen, still⟩ := unseen.rename renamed
    exact ⟨seen, fun _ _ => still rfl⟩
  | kept directories got written renamed =>
    obtain ⟨rfl, -⟩ := get_watched got
    have unseen := (Unseen.createDirectories formed directories).write written
    exact ⟨(unseen.rename renamed).1, fun fault failed => nomatch failed⟩

/-- Each tree that is passed while the directories are made is seen. -/
theorem PutSteps.seen_directories (steps : PutSteps store record w outcome watched)
    {point : FileTree} (passed : point ∈ w.now.creationPoints store.directory) :
    point ∈ watched.seen := by
  have make {granted : Bool} {made : Watched}
      (directories : Yields (MonadFiles.createDirectories store.directory) w granted made) :
      point ∈ made.seen := by
    rw [(Watched.yields_createDirectories_iff.mp directories).2]
    exact List.mem_append_left _ passed
  have write {path : String} {content : ByteArray} {granted : Bool} {made drafted : Watched}
      (written : Yields (MonadFiles.write path content) made granted drafted)
      (earlier : point ∈ made.seen) : point ∈ drafted.seen := by
    rw [(Watched.yields_write_iff.mp written).2]
    exact List.mem_append_right _ (List.mem_cons_of_mem _ earlier)
  have rename {source target : String} {granted : Bool} {drafted after : Watched}
      (renamed : Yields (MonadFiles.rename source target) drafted granted after)
      (earlier : point ∈ drafted.seen) : point ∈ after.seen := by
    rw [(Watched.yields_rename_iff.mp renamed).2]
    exact List.mem_cons_of_mem _ earlier
  cases steps with
  | noDirectory directories => exact make directories
  | unreadable directories got =>
    obtain ⟨rfl, -⟩ := get_watched got
    exact make directories
  | noDraft directories got written =>
    obtain ⟨rfl, -⟩ := get_watched got
    exact write written (make directories)
  | noPlace directories got written renamed =>
    obtain ⟨rfl, -⟩ := get_watched got
    exact rename renamed (write written (make directories))
  | kept directories got written renamed =>
    obtain ⟨rfl, -⟩ := get_watched got
    exact rename renamed (write written (make directories))

/-- The draft of a record that is kept is seen with each beginning of its text. -/
theorem PutSteps.seen_drafts {kept : Record}
    (steps : PutSteps store record w (.ok kept) watched) {size : Nat}
    (within : size ≤ kept.text.toUTF8.size) :
    ∃ point ∈ watched.seen,
      point.read? (store.draftPath record.id) = some (kept.text.toUTF8.extract 0 size) := by
  cases steps with
  | @kept made looked found drafted after directories got written renamed =>
    obtain ⟨whole, seen⟩ := Watched.yields_write_iff.mp written
    obtain ⟨place, atPlace, -⟩ :=
      Option.map_eq_some_iff.mp (FileTree.yields_changeTree_iff.mp whole)
    have partly : looked.now.write? (store.draftPath record.id)
        ((record.inPlaceOf found).text.toUTF8.extract 0 size) =
          some (looked.now.insert place
            (.file ((record.inPlaceOf found).text.toUTF8.extract 0 size))) :=
      Option.map_eq_some_iff.mpr ⟨place, atPlace, rfl⟩
    refine ⟨_, ?_, FileTree.read?_write? partly⟩
    rw [(Watched.yields_rename_iff.mp renamed).2, seen]
    refine List.mem_cons_of_mem _ (List.mem_append_left _ ?_)
    exact List.mem_filterMap.mpr ⟨size, List.mem_range.mpr (Nat.lt_succ_of_le within), partly⟩

end Watched

section Tree

variable {t after : FileTree} {id : ExtensionId}

theorem PutSteps.formed (steps : PutSteps store record t outcome after) (formed : t.Formed) :
    after.Formed := by
  have make {granted : Bool} {made : FileTree}
      (directories : Yields (MonadFiles.createDirectories store.directory) t granted made) :
      made.Formed := by
    rw [FileTree.eq_of_yields_createDirectories directories]
    exact formed.createDirectories _
  have write {path : String} {content : ByteArray} {granted : Bool} {t changed : FileTree}
      (formed : t.Formed) (written : Yields (MonadFiles.write path content) t granted changed) :
      changed.Formed := by
    cases granted with
    | false => rwa [FileTree.eq_of_changeTree_refused written]
    | true => exact formed.write? (FileTree.yields_changeTree_iff.mp written)
  have look {t looked : FileTree} {earlier : Except AuditError (Option Record)} (formed : t.Formed)
      (got : Yields (store.get record.id).run t earlier looked) : looked.Formed := by
    rwa [(inspects_get store record.id).unchanged got]
  cases steps with
  | noDirectory directories => exact make directories
  | unreadable directories got => exact look (make directories) got
  | noDraft directories got written => exact write (look (make directories) got) written
  | noPlace directories got written renamed =>
    rw [FileTree.eq_of_changeTree_refused renamed]
    exact write (look (make directories) got) written
  | kept directories got written renamed =>
    exact (write (look (make directories) got) written).rename?
      (FileTree.yields_changeTree_iff.mp renamed)

/-- Where a path leads to something in a directory, the directory is there already. -/
theorem createDirectories_of_present {node : FileNode}
    (present : t.follow? (store.path id) = some node) :
    t.createDirectories store.directory = (true, t) := by
  obtain ⟨place, leads, -⟩ := Option.bind_eq_some_iff.mp present
  obtain ⟨here, -, there, arrives⟩ := FileTree.exists_of_place?_inside (isName_fileName id) leads
  obtain ⟨accepted, -⟩ := FileTree.place?_eq_some_iff.mp leads
  by_cases empty : store.directory = ""
  · rw [FileTree.createDirectories, if_pos empty]
  · have usable := Path.isAccepted_of_inside empty accepted
    exact FileTree.createDirectories_of_leads
      (FileTree.place?_eq_some_iff.mpr ⟨usable, arrives⟩) there

/-- Where the earlier record cannot be read, a put fails in the same way and changes nothing. -/
theorem PutSteps.unreadable_unchanged (steps : PutSteps store record t outcome after)
    {fault : AuditError} (unreadable : answer (store.get record.id).run t = .error fault) :
    outcome = .error fault ∧ after = t := by
  -- The path of the record leads to something, so no directory is made.
  obtain ⟨node, present⟩ : ∃ node, t.follow? (store.path record.id) = some node := by
    by_contra absent
    have missing : t.pathExists (store.path record.id) = false := by
      rw [FileTree.pathExists]
      simpa [Option.eq_none_iff_forall_ne_some] using absent
    have nothing := get_of_absent (FileTree.yields_pathExists_iff.mpr ⟨missing, rfl⟩)
    rw [Yields.answer_eq nothing] at unreadable
    exact absurd unreadable (by simp)
  have there := createDirectories_of_present present
  have make {granted : Bool} {made : FileTree}
      (directories : Yields (MonadFiles.createDirectories store.directory) t granted made) :
      granted = true ∧ made = t :=
    Prod.mk.inj (directories.symm.trans there)
  have readable {found : Option Record} {looked : FileTree} :
      ¬ Runs (store.get record.id) t found looked := by
    intro got
    rw [Yields.answer_eq got] at unreadable
    exact absurd unreadable (by simp)
  cases steps with
  | noDirectory directories => exact absurd (make directories).1 (by simp)
  | unreadable directories got =>
    obtain ⟨-, rfl⟩ := make directories
    cases got.answer_eq.symm.trans unreadable
    exact ⟨rfl, (inspects_get store record.id).unchanged got⟩
  | noDraft directories got =>
    obtain ⟨-, rfl⟩ := make directories
    exact absurd got readable
  | noPlace directories got =>
    obtain ⟨-, rfl⟩ := make directories
    exact absurd got readable
  | kept directories got =>
    obtain ⟨-, rfl⟩ := make directories
    exact absurd got readable

/-- A put that fails with a broken record has made the directory and touched no file. -/
theorem PutSteps.broken (steps : PutSteps store record t (.error .brokenRecord) after) :
    answer (store.get record.id).run (store.prepared t) = .error .brokenRecord ∧
      ∀ place content, after.node? place = some (.file content) ↔
        t.node? place = some (.file content) := by
  cases steps with
  | unreadable directories got =>
    obtain rfl := FileTree.eq_of_yields_createDirectories directories
    refine ⟨got.answer_eq, fun place content => ?_⟩
    rw [(inspects_get store record.id).unchanged got]
    exact FileTree.node?_file_createDirectories t store.directory place content

end Tree

/-- A put can be stopped at each of the trees that are seen, among them those that are passed while
directories are made, and one for each beginning of the text that is written. In all of them readers
get for every id, and for the list of all records, the answers that they got before the put, or
those that they get once the directory of the store is made and nothing else; only the last step of
a put that succeeds changes these. The directory itself is not seen if it is there before, or if its
path leads straight on. Where the earlier record cannot be read, no file is changed. -/
theorem put_unseen_until_kept (store : RecordStore) (record : Record) {t : FileTree}
    (formed : t.Formed) :
    ∃ outcome after seen,
      Yields (store.put record).run t outcome after ∧
      Yields (store.put record).run (Watched.mk t []) outcome ⟨after, seen⟩ ∧
      after.Formed ∧
      (∀ point ∈ seen, store.LooksAlike t point ∨ store.LooksAlike (store.prepared t) point) ∧
      (∀ fault, outcome = .error fault → store.LooksAlike (store.prepared t) after) ∧
      (t.pathExists store.directory = true ∨ t.isDirect store.directory = true →
        store.LooksAlike t (store.prepared t)) ∧
      (∀ point ∈ t.creationPoints store.directory, point ∈ seen) ∧
      (∀ kept, outcome = .ok kept → ∀ size ≤ kept.text.toUTF8.size, ∃ point ∈ seen,
        point.read? (store.draftPath record.id) = some (kept.text.toUTF8.extract 0 size)) ∧
      (∀ fault, answer (store.get record.id).run t = .error fault →
        outcome = .error fault ∧ after = t) ∧
      (outcome = .error .brokenRecord →
        answer (store.get record.id).run (store.prepared t) = .error .brokenRecord ∧
        ∀ place content, after.node? place = some (.file content) ↔
          t.node? place = some (.file content)) := by
  obtain ⟨outcome, ⟨after, seen⟩, steps⟩ := exists_putSteps store record (Watched.mk t [])
  obtain ⟨unseen, unseenAfter⟩ := steps.unseen formed
  refine ⟨outcome, after, seen, steps.now.yields, steps.yields, steps.now.formed formed, unseen,
    unseenAfter, looksAlike_prepared formed, fun point passed => steps.seen_directories passed, ?_,
    fun fault unreadable => steps.now.unreadable_unchanged unreadable, ?_⟩
  · rintro kept rfl size within
    exact steps.seen_drafts within
  · rintro rfl
    exact steps.now.broken

/-- The first record of all is put into a new directory. Its draft is seen when it holds one byte,
and readers see no record then. -/
theorem results_put_unseen :
    FileTree.empty.Formed ∧ FileTree.empty.isDirect results.directory = true ∧
      ∃ after seen, Yields (results.put (sampleRecord "1" noon)).run (Watched.mk FileTree.empty [])
          (.ok (sampleRecord "1" noon)) ⟨after, seen⟩ ∧
        ∃ point ∈ seen, point.read? (results.draftPath sampleId) =
            some ((sampleRecord "1" noon).text.toUTF8.extract 0 1) ∧
          answer (results.get sampleId).run point = .ok none ∧ answer results.all point = [] := by
  have direct : FileTree.empty.isDirect results.directory = true := by decide
  have missing : FileTree.empty.pathExists results.directory = false := by decide
  refine ⟨FileTree.Formed.empty, direct, ?_⟩
  obtain ⟨outcome, after, seen, ran, watched, -, unseen, -, plain, -, drafts, -⟩ :=
    put_unseen_until_kept results (sampleRecord "1" noon) FileTree.Formed.empty
  obtain ⟨granted, put⟩ := results_grants (sampleRecord "1" noon) rfl
  obtain ⟨rfl, -⟩ := ran.unique put.put
  obtain ⟨point, listed, read⟩ := drafts _ rfl 1 (Record.one_le_size_text _)
  have alike : results.LooksAlike FileTree.empty point :=
    (unseen point listed).elim id (plain (Or.inr direct)).trans
  refine ⟨after, seen, watched, point, listed, read, ?_, ?_⟩
  · rw [alike.get]
    have absent := FileTree.follow?_inside_of_missing missing (by decide)
      (isName_fileName sampleId)
    have pathMissing : FileTree.empty.pathExists (results.path sampleId) = false := by
      rw [FileTree.pathExists, path, absent]
      rfl
    exact (get_of_absent (FileTree.yields_pathExists_iff.mpr ⟨pathMissing, rfl⟩)).answer_eq
  · rw [alike.all]
    exact (yields_all_of_missing missing).answer_eq

/-- The path of the directory goes through another one. -/
def detour : RecordStore := ⟨"a/../b"⟩

/-- The directory that the path goes through is missing; in the other one is a record. -/
def detourTree : FileTree :=
  (FileTree.empty.put ["b"] .directory).put ["b", fileName sampleId]
    (.file (sampleRecord "1" noon).text.toUTF8)

theorem formed_detourTree : detourTree.Formed :=
  (FileTree.Formed.empty.insert (by decide) (by decide)).insert (by decide) (by decide)

theorem createDirectories_detour :
    detourTree.createDirectories detour.directory = (true, detourTree.put ["a"] .directory) :=
  rfl

theorem open_detour : detour.Open (detourTree.put ["a"] .directory) ["tmp", "work", "b"] := by
  have leads : (detourTree.put ["a"] .directory).place? detour.directory =
      some ["tmp", "work", "b"] := by
    decide
  have there : (detourTree.put ["a"] .directory).isDirectory ["tmp", "work", "b"] = true := by
    decide
  have place {name : String} (plain : Path.IsName name) (short : Path.size name ≤ 41) :
      (detourTree.put ["a"] .directory).place? (Path.inside detour.directory name) =
        some ["tmp", "work", "b", name] := by
    have size := Path.size_inside_le detour.directory name
    have room : Path.size detour.directory + 1 + 41 ≤ Path.longestPath := by decide
    exact FileTree.place?_inside leads there plain (by omega)
  have free (name : String) :
      (detourTree.put ["a"] .directory).isDirectory ["tmp", "work", "b", name] = false := by
    have nothing : FileTree.empty.node? ["tmp", "work", "b", name] = none := rfl
    have node : (detourTree.put ["a"] .directory).node? ["tmp", "work", "b", name] =
        if name = fileName sampleId then some (.file (sampleRecord "1" noon).text.toUTF8)
        else none := by
      simp [detourTree, FileTree.node?_put, nothing]
    rw [FileTree.isDirectory, node]
    by_cases own : name = fileName sampleId
    · rw [if_pos own]
    · rw [if_neg own]
  refine ⟨fun id => ?_, fun id => ?_, fun id => free _, fun id => free _⟩
  · exact place (isName_fileName id) (by rw [size_fileName]; decide)
  · rw [draftPath_eq_inside]
    exact place (isName_draftName id) (by rw [size_draftName])

theorem get_detour : Runs (detour.get sampleId) (detourTree.put ["a"] .directory)
    (some (sampleRecord "1" noon)) (detourTree.put ["a"] .directory) := by
  refine get_of_read (FileTree.yields_read_iff.mpr ⟨?_, rfl⟩)
  rw [FileTree.read?, FileTree.follow?, open_detour.path]
  rfl

/-- A put can be stopped when readers get neither what they got before nor what they get after it:
there was no record where the path led to, there is a second one in the end, and between these the
first one is read. -/
theorem detour_put_seen :
    detourTree.Formed ∧ answer (detour.get sampleId).run detourTree = .ok none ∧
      ∃ after seen, Yields (detour.put (sampleRecord "2" evening)).run (Watched.mk detourTree [])
          (.ok ((sampleRecord "2" evening).madeAt noon)) ⟨after, seen⟩ ∧
        ∃ point ∈ seen,
          answer (detour.get sampleId).run point ≠ answer (detour.get sampleId).run detourTree ∧
          answer (detour.get sampleId).run point ≠ answer (detour.get sampleId).run after := by
  have before : answer (detour.get sampleId).run detourTree = .ok none :=
    (get_of_absent (FileTree.yields_pathExists_iff.mpr ⟨by decide, rfl⟩)).answer_eq
  have between := get_detour.answer_eq
  have put := open_detour.put (sampleRecord "2" evening) createDirectories_detour get_detour
  obtain ⟨outcome, ⟨after, seen⟩, steps⟩ :=
    exists_putSteps detour (sampleRecord "2" evening) (Watched.mk detourTree [])
  obtain ⟨rfl, rfl⟩ := steps.now.yields.unique put
  refine ⟨formed_detourTree, before, _, seen, steps.yields, detourTree.put ["a"] .directory,
    steps.seen_directories (FileTree.createDirectories_mem (by decide)), ?_, ?_⟩
  · rw [between, before]
    simp
  · have later : answer (detour.get sampleId).run (keep (detourTree.put ["a"] .directory)
        ["tmp", "work", "b"] ((sampleRecord "2" evening).madeAt noon)) =
          .ok (some ((sampleRecord "2" evening).madeAt noon)) := by
      refine Yields.answer_eq (get_of_read (FileTree.yields_read_iff.mpr ⟨?_, rfl⟩))
      rw [FileTree.read?, open_detour.follow?_keep]
      rfl
    intro same
    have records := Option.some.inj (Except.ok.inj (between.symm.trans (same.trans later)))
    exact absurd (congrArg Record.digest records) (by decide)

end RecordStore

end ExtensionAudit
