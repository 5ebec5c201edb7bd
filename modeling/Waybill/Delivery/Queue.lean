/-
  The queue: delivering artifacts to the drive.

  A run takes the waiting artifacts, oldest first, uploads each and notes what became of it.  An
  upload that fails is counted; once an artifact has used up its attempts it has failed, before
  that it waits for another run.  Only a failure of the store ends a run early.

  * `Options` is what a run is asked for, `Options.resolve` fills in what is not said;
  * `applyOutcome` is what one attempt makes of an artifact;
  * `process` is a run, `Report` counts what it did.
-/
import Waybill.Delivery.Path
import Waybill.Generation.Step
import Waybill.Store.Artifacts

namespace Waybill.Delivery

open Waybill.Drive Waybill.Generation Waybill.Store

/-! ## Options -/

/-- What a run is asked for.  The time for an upload is in whole milliseconds, although finer times
    can be told: runs are only ever asked for in whole seconds or milliseconds. -/
structure Options where
  limit : Option Nat
  includeFailed : Bool
  maxAttempts : Option UInt32
  timeout : Option Nat
  workDir : String
  deriving DecidableEq, Inhabited

/-- Options with nothing left open. -/
structure Resolved where
  limit : Nat
  includeFailed : Bool
  maxAttempts : UInt32
  timeout : Nat
  workDir : String
  deriving DecidableEq, Inhabited

/-- The options with what is not said filled in, and every number at least one. -/
def Options.resolve (o : Options) : Resolved where
  limit := (o.limit.map (max 1)).getD 20
  includeFailed := o.includeFailed
  maxAttempts := (o.maxAttempts.map (max 1)).getD 5
  timeout := (o.timeout.map (max 1000)).getD 30000
  workDir := o.workDir

/-! ## Outcomes -/

/-- What became of an attempt. -/
inductive Outcome where
  | processed
  | failed
  | retried
  deriving DecidableEq, Inhabited

/-- What an attempt makes of an artifact, given the path it went to or why it did not.  The attempt
    is counted in 32 bits: after the greatest number the count starts again. -/
def applyOutcome (a : Artifact) (result : Except DeliveryError String) (maxAttempts : UInt32) :
    Artifact × Outcome :=
  let attempts := a.attempts + 1
  match result with
  | .ok path =>
    ({ a with status := .synced, attempts, remotePath := path, lastError := "" }, .processed)
  | .error e =>
    if maxAttempts ≤ attempts then
      ({ a with status := .syncFailed, attempts, lastError := e.message }, .failed)
    else ({ a with status := .syncPending, attempts, lastError := e.message }, .retried)

/-- Uploads an artifact; gives the path it went to. -/
def deliver (options : Resolved) (a : Artifact) : Work DeliveryError String := do
  match a.pdf with
  | none => throw .missingPdf
  | some pdf =>
    if pdf.isEmpty then throw .emptyPdf
    let path := remotePath a options.workDir
    let _ ← Work.attempt id (.upload path pdf options.timeout)
    return path

/-! ## Runs -/

/-- What a run did. -/
structure Report where
  selected : Nat
  processed : Nat
  failed : Nat
  retried : Nat
  deriving DecidableEq, Inhabited

/-- The report before anything was done. -/
def Report.empty : Report := ⟨0, 0, 0, 0⟩

/-- The report as a value. -/
def Report.toJson (r : Report) : Json :=
  .record [
    ("selected", .int r.selected),
    ("processed", .int r.processed),
    ("failed", .int r.failed),
    ("retried", .int r.retried)]

/-- The report with one more artifact. -/
def Report.count (r : Report) (outcome : Outcome) : Report where
  selected := r.selected + 1
  processed := r.processed + (if outcome = .processed then 1 else 0)
  failed := r.failed + (if outcome = .failed then 1 else 0)
  retried := r.retried + (if outcome = .retried then 1 else 0)

/-- The statuses that a run selects. -/
def wanted (options : Resolved) : List ArtifactStatus :=
  if options.includeFailed then [.syncPending, .syncFailed] else [.syncPending]

/-- Handles one artifact. -/
def processOne (options : Resolved) (a : Artifact) : Work StoreError Outcome := do
  let result ← ExceptT.lift (deliver options a).run
  let (a, outcome) := applyOutcome a result options.maxAttempts
  let _ ← Work.attempt id (.store (recordOutcome a))
  return outcome

/-- Handles artifacts in order. -/
def processAll (options : Resolved) : List Artifact → Report → Work StoreError Report
  | [], report => return report
  | a :: as, report => do
    let outcome ← processOne options a
    processAll options as (report.count outcome)

/-- A run of the queue. -/
def process (options : Options) : Work StoreError Report := do
  let options := options.resolve
  let artifacts ← Work.attempt id (.store (do
    liftM ((← get).selectArtifacts (wanted options) options.limit)))
  processAll options artifacts .empty

end Waybill.Delivery
