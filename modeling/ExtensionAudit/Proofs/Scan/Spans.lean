import ExtensionAudit.Proofs.Files.Faults
import ExtensionAudit.Proofs.Scan.Calls

namespace ExtensionAudit

/-- The nanoseconds from the first of March of the year zero, leap seconds apart. -/
def Timestamp.nanos (t : Timestamp) : Int :=
  t.instant.seconds * nanosPerSecond + t.nanosecond

/-- Outside leap seconds an age is a difference of nanoseconds. -/
theorem Record.age_eq_sub {record : Record} {now : Timestamp} (usual : now.isLeap = false)
    (usualRecord : record.updatedAt.isLeap = false) :
    record.age now = now.nanos - record.updatedAt.nanos := by
  simp only [age, Timestamp.nanosSince, Timestamp.nanos, Timestamp.instant, usual, usualRecord,
    Bool.and_false, Bool.false_eq_true, if_false, nanosPerSecond, secondsPerDay]
  omega

/-- The freshness is that of the hours. A record is not served again only if a new one is forced and
the record is older than the hours are long. -/
structure Freshness.IsOfHours (freshness : Freshness) (hours : Int) : Prop where
  maxAge : freshness.maxAge = hours * (3600 * 1000000000)
  reuses_iff : ∀ record now force, freshness.reuses record now force = true ↔
    ¬ (force = true ∧ hours * (3600 * 1000000000) < record.age now)
  /-- Outside leap seconds a forced scan serves a record until that many hours after its time. -/
  forced_iff : ∀ record now, now.isLeap = false → record.updatedAt.isLeap = false →
    (freshness.reuses record now true = true ↔
      now.nanos ≤ record.updatedAt.nanos + hours * (3600 * 1000000000))

theorem Freshness.isOfHours {freshness : Freshness} {hours : Int}
    (span : freshness.maxAge = hours * nanosPerHour) : freshness.IsOfHours hours where
  maxAge := span
  reuses_iff record now force := by
    rw [reuses_eq_true_iff, span]
    rfl
  forced_iff record now usual usualRecord := by
    rw [reuses_eq_true_iff, span, Record.age_eq_sub usual usualRecord]
    have unit : hours * nanosPerHour = hours * (3600 * 1000000000) := rfl
    rw [unit]
    simp only [true_and, Int.not_lt]
    omega

/-- There is no freshness exactly if the hours are too many. -/
theorem StoreSettings.freshness?_eq_none_iff {settings : StoreSettings}
    (nonneg : 0 ≤ settings.maxAgeHours) :
    settings.freshness? = none ↔ Freshness.mostHours < settings.maxAgeHours := by
  constructor
  · intro absent
    refine Int.not_le.mp fun most => ?_
    rw [freshness?_eq nonneg most] at absent
    exact nomatch absent
  · intro above
    rw [freshness?, Freshness.ofHours?, if_neg fun fits => Int.not_lt.mpr fits.2 above]

section Scan

variable {σ : Type} [MonadFiles (StateM σ)]

theorem Settings.spares_load (path : String) :
    Spares .spanOverflow (load path : ExceptT AuditError (StateM σ) Settings) := by
  refine (Spares.lift (MonadFiles.pathExists path)).bind fun found => ?_
  cases found with
  | false => exact Spares.pure ({} : Settings)
  | true =>
    refine (Spares.readText (by decide) path).bind fun text => ?_
    cases outcome : ofText text with
    | ok settings => exact Spares.pure settings
    | error fault =>
      refine Spares.throw ?_
      unfold ofText at outcome
      split at outcome
      · cases Except.error.inj outcome
        decide
      · split at outcome
        · cases Except.error.inj outcome
          exact AuditError.noConfusion
        · exact nomatch outcome

namespace RecordStore

variable (store : RecordStore)

theorem spares_get (id : ExtensionId) :
    Spares .spanOverflow (store.get id : ExceptT AuditError (StateM σ) (Option Record)) := by
  have reads : Spares .spanOverflow
      (readRecord (store.path id) : ExceptT AuditError (StateM σ) Record) := by
    refine (Spares.readText (by decide) _).bind fun text => ?_
    cases Record.ofText? text with
    | some record => exact Spares.pure record
    | none => exact Spares.throw (by decide)
  refine (Spares.lift (MonadFiles.pathExists (store.path id))).bind fun found => ?_
  cases found with
  | false => exact Spares.pure none
  | true => exact reads.bind fun record => Spares.pure (some record)

theorem spares_put (record : Record) :
    Spares .spanOverflow (store.put record : ExceptT AuditError (StateM σ) Record) := by
  have demanded (operation : StateM σ Bool) : Spares .spanOverflow (Files.demand operation) :=
    Spares.demand (by decide) operation
  refine (demanded _).bind fun _ => (spares_get store record.id).bind fun old => ?_
  exact (demanded _).bind fun _ => (demanded _).bind fun _ => Spares.pure _

end RecordStore

namespace Scan

variable {request : ScanRequest} {settings : Settings} {policy : Policy} {id : ExtensionId}
  {now : Timestamp}

theorem spares_analyze (request : ScanRequest) (policy : Policy) :
    Spares .spanOverflow (analyze request policy :
      ExceptT AuditError (StateM σ) (Option StoreDetails × Report)) := by
  have page (path : String) : Spares .spanOverflow
      (details path : ExceptT AuditError (StateM σ) StoreDetails) := by
    refine (Spares.readText (by decide) path).bind fun text => ?_
    cases ((Json.Syntax.ofText? text.toList).bind Json.decode? : Option StoreDetails) with
    | some page => exact Spares.pure page
    | none => exact Spares.throw (by decide)
  refine (Spares.mapM page _).bind fun details => ?_
  refine (Spares.mapM (fun path => Spares.lift (advisor path : StateM σ Advisor)) _).bind
    fun advise => ?_
  refine (Spares.readBytes (by decide) _).bind fun raw => ?_
  cases Report.ofPackage policy advise details raw with
  | ok report => exact Spares.pure (details, report)
  | error fault => exact Spares.throw AuditError.noConfusion

theorem spares_withoutStore (request : ScanRequest) (policy : Policy) :
    Spares .spanOverflow (withoutStore request policy :
      ExceptT AuditError (StateM σ) ScanResult) :=
  (spares_analyze request policy).bind fun _ => Spares.pure _

theorem spares_withStore {freshness : Freshness}
    (span : settings.store.freshness? = some freshness) :
    Spares .spanOverflow (withStore request settings policy id now :
      ExceptT AuditError (StateM σ) ScanResult) := by
  have looks : Spares .spanOverflow (RecordStore.lookup ⟨settings.store.directory⟩ freshness id now
      request.force : ExceptT AuditError (StateM σ) (Option Record)) :=
    (RecordStore.spares_get _ id).bind fun _ => Spares.pure _
  simp only [withStore, span]
  refine looks.bind fun held => ?_
  cases held with
  | some record => exact Spares.pure _
  | none =>
    refine (spares_analyze request policy).bind fun analysis => ?_
    exact (RecordStore.spares_put _ _).bind fun _ => Spares.pure _

/-- A scan that keeps records stops if there is no freshness. -/
theorem withStore_overflows (absent : settings.store.freshness? = none) (state : σ) :
    Yields (withStore request settings policy id now).run state (.error .spanOverflow) state := by
  simp only [withStore, absent]
  exact Yields.throw_iff.mpr ⟨rfl, rfl⟩

/-- A scan stops for want of a span exactly if it is to keep records under an id and its settings
have an age above the longest. -/
theorem overflows_iff {before : σ} :
    (∃ after, Yields (run request now).run before (.error .spanOverflow) after) ↔
      request.useStore = true ∧ request.id ≠ none ∧ ∃ settings after,
        Runs (Settings.load (request.settingsPath.getD Settings.usualPath)) before settings after ∧
          Freshness.mostHours < settings.store.maxAgeHours := by
  constructor
  · rintro ⟨after, failed⟩
    rcases (Yields.bind_error_iff _ _).mp failed with early | ⟨settings, between, loaded, late⟩
    · exact absurd early (Settings.spares_load _ _ _)
    · cases keeps : request.useStore with
      | false =>
        rw [keeps] at late
        exact absurd late (spares_withoutStore _ _ _ _)
      | true =>
        cases named : request.id with
        | none =>
          rw [keeps, named] at late
          exact absurd late (Spares.throw (by decide) _ _)
        | some id =>
          rw [keeps, named] at late
          refine ⟨rfl, by simp, settings, between, loaded, ?_⟩
          rw [← StoreSettings.freshness?_eq_none_iff (Settings.nonneg_of_load loaded)]
          refine Option.eq_none_iff_forall_ne_some.mpr fun freshness span => ?_
          exact spares_withStore span _ _ late
  · rintro ⟨keeps, named, settings, between, loaded, above⟩
    obtain ⟨id, given⟩ := Option.ne_none_iff_exists'.mp named
    have absent := (StoreSettings.freshness?_eq_none_iff (Settings.nonneg_of_load loaded)).mpr above
    refine ⟨between, loaded.bind ?_⟩
    rw [keeps, given]
    exact withStore_overflows absent between

end Scan

end Scan

open RecordStore (emptyPackage noon)

/-- A working directory with a package and a file with settings. -/
def settingsTree (text : String) : FileTree :=
  ScanCall.packageTree.put [Settings.usualPath] (.file text.toUTF8)

theorem follow?_settingsTree (text : String) :
    (settingsTree text).follow? Settings.usualPath = some (.file text.toUTF8) := by
  rfl

/-- What the file says is loaded, if it is accepted. -/
theorem load_settingsTree {text : String} {settings : Settings}
    (accepted : Settings.ofText text = .ok settings) :
    Runs (Settings.load Settings.usualPath) (settingsTree text) settings (settingsTree text) := by
  have there : (settingsTree text).pathExists Settings.usualPath = true := by
    rw [FileTree.pathExists, follow?_settingsTree]
    rfl
  have read : (settingsTree text).read? Settings.usualPath = some text.toUTF8 := by
    rw [FileTree.read?, follow?_settingsTree]
  have parsed := Runs.readText_of_read (FileTree.yields_read_iff.mpr ⟨read, rfl⟩)
  refine (Runs.bind_iff _ _).mpr ⟨true, settingsTree text,
    (Runs.lift_iff _).mpr (FileTree.yields_pathExists_iff.mpr ⟨there, rfl⟩), ?_⟩
  refine (Runs.bind_iff _ _).mpr ⟨text, settingsTree text, parsed, ?_⟩
  rw [accepted]
  exact Runs.pure_iff.mpr ⟨rfl, rfl⟩

theorem longestAge_accepted : Settings.ofText "[store]\nmax_age_hours = 2562047788015\n" =
    .ok { store := { maxAgeHours := 2562047788015 } } :=
  eq_ok_of_toOption (by decide +kernel)

theorem longerAge_accepted : Settings.ofText "[store]\nmax_age_hours = 2562047788016\n" =
    .ok { store := { maxAgeHours := 2562047788016 } } :=
  eq_ok_of_toOption (by decide +kernel)

/-- Settings that are accepted lead to a freshness exactly if their age has no more hours than a
span of time can have, and then to that of their hours. A scan stops for want of a span exactly if
it is to keep records under an id and has loaded settings whose age has more. -/
theorem accepted_ages_fit_up_to_mostHours {σ : Type} [MonadFiles (StateM σ)] :
    (∀ path settings (before after : σ), Runs (Settings.load path) before settings after →
      (settings.store.freshness? ≠ none ↔ settings.store.maxAgeHours ≤ Freshness.mostHours) ∧
      ∀ freshness, settings.store.freshness? = some freshness →
        freshness.IsOfHours settings.store.maxAgeHours) ∧
    ∀ (request : ScanRequest) (now : Timestamp) (before : σ),
      (∃ after, Yields (Scan.run request now).run before (.error .spanOverflow) after) ↔
        request.useStore = true ∧ request.id ≠ none ∧ ∃ settings after,
          Runs (Settings.load (request.settingsPath.getD Settings.usualPath)) before settings
              after ∧
            Freshness.mostHours < settings.store.maxAgeHours := by
  refine ⟨fun path settings before after loaded => ⟨?_, fun freshness span => ?_⟩,
    fun request now before => Scan.overflows_iff⟩
  · rw [Ne, StoreSettings.freshness?_eq_none_iff (Settings.nonneg_of_load loaded), Int.not_lt]
  · refine Freshness.isOfHours ?_
    unfold StoreSettings.freshness? Freshness.ofHours? at span
    split at span
    · rw [← Option.some.inj span]
    · exact nomatch span

/-- The longest age that fits is that of a freshness, and no scan with it stops. -/
theorem longestAge_fits :
    (∃ freshness : Freshness,
      ({ maxAgeHours := 2562047788015 } : StoreSettings).freshness? = some freshness ∧
        freshness.IsOfHours 2562047788015) ∧
      ¬ ∃ after, Yields (Scan.run ScanCall.atNoon.request noon).run
        (settingsTree "[store]\nmax_age_hours = 2562047788015\n") (.error .spanOverflow)
          after := by
  have loaded := load_settingsTree longestAge_accepted
  obtain ⟨ages, stops⟩ := accepted_ages_fit_up_to_mostHours (σ := FileTree)
  obtain ⟨fits, isOfHours⟩ := ages _ _ _ _ loaded
  obtain ⟨freshness, span⟩ := Option.ne_none_iff_exists'.mp (fits.mpr (by decide))
  refine ⟨⟨freshness, span, isOfHours freshness span⟩, fun overflows => ?_⟩
  obtain ⟨-, -, settings, after, again, above⟩ := (stops _ _ _).mp overflows
  obtain rfl := Except.ok.inj (Yields.unique again loaded).1
  exact absurd above (by decide)

/-- One more hour is accepted too, but it is the age of no freshness, and a scan that keeps records
stops. -/
theorem longerAge_stops :
    Settings.ofText "[store]\nmax_age_hours = 2562047788016\n" =
        .ok { store := { maxAgeHours := 2562047788016 } } ∧
      ({ maxAgeHours := 2562047788016 } : StoreSettings).freshness? = none ∧
      ∃ after, Yields (Scan.run ScanCall.atNoon.request noon).run
        (settingsTree "[store]\nmax_age_hours = 2562047788016\n") (.error .spanOverflow)
          after := by
  have loaded := load_settingsTree longerAge_accepted
  refine ⟨longerAge_accepted, by decide, Scan.overflows_iff.mpr ⟨rfl, nofun, _, _, loaded, ?_⟩⟩
  decide

end ExtensionAudit
