import ExtensionAudit.Proofs.Scan.Reads
import ExtensionAudit.Proofs.Store.Puts

namespace ExtensionAudit

open RecordStore

/-- A scan that is called: what it is asked for, what the clock says, and the tree it is called
in. -/
structure ScanCall where
  request : ScanRequest
  now : Timestamp
  before : FileTree

namespace ScanCall

def action (call : ScanCall) : StateM FileTree (Except AuditError ScanResult) :=
  (Scan.run call.request call.now : ExceptT AuditError (StateM FileTree) ScanResult).run

def outcome (call : ScanCall) : Except AuditError ScanResult :=
  (call.action.run call.before).run.1

/-- The tree after the call. -/
def after (call : ScanCall) : FileTree :=
  (call.action.run call.before).run.2

/-- The call loads these settings. -/
def Loads (call : ScanCall) (settings : Settings) : Prop :=
  Runs (Settings.load (call.request.settingsPath.getD Settings.usualPath)) call.before settings
    call.before

/-- The policy of the call under the settings. -/
def policy (call : ScanCall) (settings : Settings) : Policy :=
  Scan.effectivePolicy settings call.request.failOn

end ScanCall

/-- The directory of the store can be made, which brings no records, and nothing stands in the way
of its files. -/
def RecordStore.Writable (store : RecordStore) (t : FileTree) : Prop :=
  ∃ made here, t.createDirectories store.directory = (true, made) ∧ store.Open made here ∧
    ∀ id, made.follow? (store.path id) = t.follow? (store.path id)

/-- If the call keeps records, then in the store; the age in its settings is a span of time that
there is, and the store can be written. -/
def ScanCall.Fits (call : ScanCall) (store : RecordStore) : Prop :=
  call.request.useStore = true → ∀ settings, call.Loads settings →
    settings.store.directory = store.directory ∧
      settings.store.maxAgeHours ≤ Freshness.mostHours ∧ store.Writable call.before

/-- Settings that were loaded have no negative age. -/
theorem Settings.nonneg_of_load {σ : Type} [MonadFiles (StateM σ)] {path : String}
    {before after : σ} {settings : Settings} (loaded : Runs (load path) before settings after) :
    0 ≤ settings.store.maxAgeHours := by
  obtain ⟨found, between, -, rest⟩ := (Runs.bind_iff _ _).mp loaded
  cases found with
  | false =>
    obtain ⟨rfl, -⟩ := Runs.pure_iff.mp rest
    decide
  | true =>
    obtain ⟨text, read, -, parsed⟩ := (Runs.bind_iff _ _).mp rest
    cases outcome : ofText text with
    | error fault =>
      rw [outcome] at parsed
      exact absurd parsed (Runs.not_throw _)
    | ok given =>
      rw [outcome] at parsed
      obtain ⟨rfl, -⟩ := Runs.pure_iff.mp parsed
      unfold ofText at outcome
      split at outcome
      · exact nomatch outcome
      · split at outcome
        · exact nomatch outcome
        · rename_i negative
          obtain rfl := Except.ok.inj outcome
          exact Int.not_lt.mp negative

theorem StoreSettings.freshness?_eq {settings : StoreSettings} (nonneg : 0 ≤ settings.maxAgeHours)
    (most : settings.maxAgeHours ≤ Freshness.mostHours) :
    settings.freshness? = some ⟨settings.maxAgeHours * Freshness.nanosPerHour⟩ := by
  have least : -Freshness.mostHours ≤ settings.maxAgeHours := Int.le_trans (by decide) nonneg
  rw [freshness?, Freshness.ofHours?, if_pos ⟨least, most⟩]

theorem Freshness.reuses_eq_true_iff {freshness : Freshness} {record : Record} {now : Timestamp}
    {force : Bool} : freshness.reuses record now force = true ↔
      ¬ (force = true ∧ freshness.maxAge < record.age now) := by
  cases force <;> simp [reuses]

theorem RecordStore.lookup_of_get {store : RecordStore} {id : ExtensionId} {t : FileTree}
    {held : Option Record} (got : Runs (store.get id) t held t) (freshness : Freshness)
    (now : Timestamp) (force : Bool) :
    Runs (store.lookup freshness id now force) t
      (held.filter fun record => freshness.reuses record now force) t :=
  got.bind (Runs.pure_iff.mpr ⟨rfl, rfl⟩)

namespace Scan

variable {request : ScanRequest} {settings : Settings} {policy : Policy} {id : ExtensionId}
  {now : Timestamp} {t : FileTree} {held : Option Record} {freshness : Freshness}

/-- A record that may be served again is served, and nothing changes. -/
theorem withStore_serves (span : settings.store.freshness? = some freshness)
    (got : Runs (RecordStore.get ⟨settings.store.directory⟩ id) t held t) {record : Record}
    (fresh : held.filter (freshness.reuses · now request.force) = some record) :
    Runs (withStore request settings policy id now) t
      (result request.path policy true (record.report policy)) t := by
  have looked := lookup_of_get got freshness now request.force
  rw [fresh] at looked
  simp only [withStore, span]
  exact looked.bind (Runs.pure_iff.mpr ⟨rfl, rfl⟩)

end Scan

namespace ScanCall

variable {call : ScanCall} {store : RecordStore} {held : ExtensionId → Option Record}
  {settings : Settings} {id : ExtensionId}

theorem yields (call : ScanCall) :
    Yields call.action call.before call.outcome call.after := rfl

theorem ends (call : ScanCall) {outcome : Except AuditError ScanResult} {after : FileTree}
    (ran : Yields call.action call.before outcome after) :
    call.outcome = outcome ∧ call.after = after :=
  call.yields.unique ran

/-- A call that keeps no records changes nothing, and its outcome comes from what it is told to
read. -/
theorem apart (apart : call.request.useStore = false) :
    call.after = call.before ∧
      ∀ other : FileTree,
        (∀ path ∈ call.request.paths, other.follow? path = call.before.follow? path) →
        ({ call with before := other } : ScanCall).outcome = call.outcome ∧
          ({ call with before := other } : ScanCall).after = other := by
  have inspects : Inspects call.request.paths call.action := Scan.inspects_run apart call.now
  refine ⟨inspects.unchanged call.yields, fun other same => ?_⟩
  exact ({ call with before := other } : ScanCall).ends (inspects.congr call.yields same).2

theorem ends_withStore (loads : call.Loads settings) (keeps : call.request.useStore = true)
    (named : call.request.id = some id) {outcome : Except AuditError ScanResult} {after : FileTree}
    (ran : Yields (Scan.withStore call.request settings (call.policy settings) id call.now).run
      call.before outcome after) :
    call.outcome = outcome ∧ call.after = after := by
  refine call.ends (Runs.bind loads ?_)
  rw [keeps, named]
  exact ran

/-- A record is too old for the call if it is to be renewed above an age and is older. -/
def Outdates (call : ScanCall) (settings : Settings) (record : Record) : Prop :=
  call.request.force = true ∧
    settings.store.maxAgeHours * Freshness.nanosPerHour < call.now.nanosSince record.updatedAt

theorem reuses_iff (record : Record) :
    Freshness.reuses ⟨settings.store.maxAgeHours * Freshness.nanosPerHour⟩ record call.now
      call.request.force = true ↔ ¬ call.Outdates settings record :=
  Freshness.reuses_eq_true_iff

section Store

variable (fits : call.Fits store) (records : store.Records held call.before)
  (loads : call.Loads settings) (keeps : call.request.useStore = true)
  (named : call.request.id = some id)

include fits in
theorem freshness?_of_fits (loads : call.Loads settings) (keeps : call.request.useStore = true) :
    settings.store.freshness? =
      some ⟨settings.store.maxAgeHours * Freshness.nanosPerHour⟩ := by
  obtain ⟨-, most, -⟩ := fits keeps settings loads
  exact StoreSettings.freshness?_eq (Settings.nonneg_of_load loads) most

include fits records in
/-- The store of the settings reads what is held. -/
theorem runs_get_of_fits (loads : call.Loads settings) (keeps : call.request.useStore = true)
    (id : ExtensionId) :
    Runs (RecordStore.get ⟨settings.store.directory⟩ id) call.before (held id) call.before := by
  obtain ⟨sameStore, -, -⟩ := fits keeps settings loads
  rw [sameStore]
  exact records.get id

include fits records loads keeps named

/-- A record that is not too old is served, and nothing changes. -/
theorem serves {record : Record} (found : held id = some record)
    (fresh : ¬ call.Outdates settings record) :
    call.outcome = .ok (Scan.result call.request.path (call.policy settings) true
        (record.report (call.policy settings))) ∧
      call.after = call.before := by
  have got := runs_get_of_fits fits records loads keeps id
  refine ends_withStore loads keeps named
    (Scan.withStore_serves (freshness?_of_fits fits loads keeps) got ?_)
  rw [found, Option.filter_some, if_pos ((reuses_iff record).mpr fresh)]

end Store

end ScanCall

end ExtensionAudit
