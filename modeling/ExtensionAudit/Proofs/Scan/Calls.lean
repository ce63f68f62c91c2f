import ExtensionAudit.Proofs.Scan.Call
import ExtensionAudit.Proofs.Store.History

namespace ExtensionAudit

open RecordStore

namespace ScanCall

end ScanCall

/-- Calls, one after the other, that began where the store had no records. Between two calls
anything may change but the records. -/
inductive RecordStore.History (store : RecordStore) : List ScanCall → FileTree → Prop
  | start {t : FileTree} (empty : ∀ id, t.follow? (store.path id) = none) : History store [] t
  | elsewhere {calls : List ScanCall} {t changed : FileTree} (history : History store calls t)
      (same : ∀ id, changed.follow? (store.path id) = t.follow? (store.path id)) :
      History store calls changed
  | scan {calls : List ScanCall} (call : ScanCall) (history : History store calls call.before)
      (fits : call.Fits store) : History store (calls ++ [call]) call.after

namespace RecordStore.History

open ScanCall

variable {store : RecordStore} {calls earlier later : List ScanCall} {call : ScanCall}
  {t : FileTree}

/-- Every call of a history fits, and the calls before it are a history. -/
theorem split (history : store.History (earlier ++ call :: later) t) :
    store.History earlier call.before ∧ call.Fits store := by
  generalize shape : earlier ++ call :: later = calls at history
  induction history generalizing later with
  | start => exact absurd shape (by simp)
  | elsewhere _ _ ih => exact ih shape
  | scan last history fits ih =>
    rcases List.eq_nil_or_concat later with rfl | ⟨front, final, rfl⟩
    · obtain ⟨rfl, same⟩ := List.append_inj' shape rfl
      obtain rfl := List.singleton_inj.mp same
      exact ⟨history, fits⟩
    · rw [List.concat_eq_append, ← List.cons_append, ← List.append_assoc] at shape
      exact ih (List.append_inj' shape rfl).1

end RecordStore.History

namespace ScanCall

/-- A working directory with a package in it. -/
def packageTree : FileTree := FileTree.empty.put ["p.zip"] (.file emptyPackage)

def atNoon : ScanCall where
  request := { path := "p.zip", id := some sampleId, useStore := true }
  now := noon
  before := packageTree

end ScanCall

end ExtensionAudit
