import RunMesh.Scheduler

/-!
# Schedules

`Server.createSchedule` of `internal/api/server.go`, and the phase `Service.fireSchedules` that
opens every `Service.tick`. A firing advances the due schedules in one transaction and then
creates their runs, each in a transaction of its own, under a key that names the occurrence.

The time zone database and the cron library are a parameter, `Calendar`. The transaction of a
firing executes its updates while it reads the rows of its `SELECT`. `Tx` keeps whether such a
result set is open, and `strict` is whether `pgx` then refuses to execute a statement.
-/

namespace RunMesh

open Fallible

/-- The values of `misfire_policy`. -/
inductive MisfirePolicy
  | skip | catchUpOnce
  deriving DecidableEq, Repr

/-- A row of `schedules`. -/
structure Schedule where
  id : ℕ
  tenantId : ℕ
  workflowDefinitionId : ℕ
  cronExpression : String
  timezone : String
  nextExecutionAt : ℤ
  misfirePolicy : MisfirePolicy
  enabled : Bool
  createdAt : ℤ
  deriving DecidableEq, Repr

/-- The time zone database, the cron library, and the text of a time. -/
structure Calendar where
  Location : Type
  Cron : Type
  /-- `time.LoadLocation`. -/
  loadLocation : String → Option Location
  /-- `Parser.Parse`, with the text of its error. -/
  parse : String → Except String Cron
  /-- `Schedule.Next` of a time in a location, in UTC. -/
  next : Cron → Location → ℤ → ℤ
  /-- `Format(time.RFC3339Nano)` in UTC. -/
  format : ℤ → String

/-! ## Creating a schedule -/

/-- The body of a request. A `next_execution_at` that is absent is the zero time. -/
structure ScheduleRequest where
  workflowDefinitionId : ℕ
  cronExpression : String
  timezone : String
  misfirePolicy : String
  nextExecutionAt : Option ℤ

/-- The status and the text of an error response. -/
structure Refusal where
  status : ℕ
  error : String
  deriving DecidableEq, Repr

/-- `req.MisfirePolicy`, `skip` by default. -/
def misfirePolicyOf (text : String) : Option MisfirePolicy :=
  if text = "" ∨ text = "skip" then some .skip
  else if text = "catch_up_once" then some .catchUpOnce
  else none

/-- `Server.createSchedule` for a principal of the tenant : the new row and the table. -/
def createSchedule (cal : Calendar) (env : Env) (tenantId : ℕ) (req : ScheduleRequest) (db : Db)
    (schedules : List Schedule) : Except Refusal (Schedule × List Schedule) := do
  let timezone := if req.timezone = "" then "UTC" else req.timezone
  let misfirePolicy ← orError ⟨422, "misfire_policy must be skip or catch_up_once"⟩
    (misfirePolicyOf req.misfirePolicy)
  let location ← orError ⟨422, "invalid timezone"⟩ (cal.loadLocation timezone)
  let parsed ← (cal.parse req.cronExpression).mapError
    fun err => ⟨422, "invalid cron expression: " ++ err⟩
  let nextExecutionAt := req.nextExecutionAt.getD (cal.next parsed location env.now)
  let d ← orError ⟨404, "resource not found"⟩ (db.workflowDefinitions.find? fun d =>
    d.id = req.workflowDefinitionId ∧ d.tenantId = tenantId)
  let row : Schedule := ⟨env.uuid 0, tenantId, d.id, req.cronExpression, timezone,
    nextExecutionAt, misfirePolicy, true, env.now⟩
  pure (row, schedules ++ [row])

/-! ## Firing -/

/-- What ends a firing early. `connBusy` is the error of `pgx` for a statement that is executed
while a result set is open. -/
inductive FireError
  | location
  | parse (err : String)
  | connBusy
  | store (e : StoreError)
  deriving DecidableEq, Repr

/-- `time.Minute`. -/
def minute : ℤ :=
  60 * second

/-- The next execution of a due schedule : from the one that is due, or from now if it was
missed by more than a minute and is to be skipped. -/
def Calendar.advance (cal : Calendar) (now : ℤ) (item : Schedule) : Except FireError ℤ := do
  let location ← orError .location (cal.loadLocation item.timezone)
  let schedule ← (cal.parse item.cronExpression).mapError .parse
  let base :=
    if item.misfirePolicy = .skip ∧ minute < now - item.nextExecutionAt then now
    else item.nextExecutionAt
  pure (cal.next schedule location base)

/-- The transaction of a firing. -/
structure Tx where
  schedules : List Schedule
  /-- A result set of `Query` is open. -/
  reading : Bool

/-- `tx.Exec` of an update of the schedules. -/
def Tx.exec (strict : Bool) (update : List Schedule → List Schedule) (tx : Tx) :
    Except FireError Tx :=
  if strict ∧ tx.reading then .error .connBusy
  else .ok { tx with schedules := update tx.schedules }

/-- `UPDATE schedules SET next_execution_at=$2 WHERE id=$1`. -/
def setNext (id : ℕ) (next : ℤ) (schedules : List Schedule) : List Schedule :=
  Table.update (fun s => s.id = id) (fun s => { s with nextExecutionAt := next }) schedules

/-- One row of the loop. -/
def fireRow (strict : Bool) (cal : Calendar) (env : Env) (tx : Tx) (item : Schedule) :
    Except FireError Tx := do
  let next ← cal.advance env.now item
  tx.exec strict (setNext item.id next)

/-- The due schedules a firing selects, oldest first. -/
def dueSchedules (env : Env) (scan : Scan) (schedules : List Schedule) : List Schedule :=
  (((scan.ids.filterMap fun id => schedules.find? fun s => s.id = id).filter fun s =>
    s.enabled ∧ s.nextExecutionAt ≤ env.now).insertionSort
      fun a b => a.nextExecutionAt ≤ b.nextExecutionAt).take 50

/-- The transaction : the table after its commit, and the occurrences that are to run. The
result set is open during the loop over its rows. -/
def fireTx (strict : Bool) (cal : Calendar) (env : Env) (scan : Scan)
    (schedules : List Schedule) : Except FireError (List Schedule × List Schedule) := do
  let due := dueSchedules env scan schedules
  let tx ← due.foldlM (fireRow strict cal env) ⟨schedules, true⟩
  pure (tx.schedules, due)

/-- The idempotency key of an occurrence. -/
def occurrenceKey (cal : Calendar) (item : Schedule) : String :=
  "schedule:" ++ toString item.id ++ ":" ++ cal.format item.nextExecutionAt

/-- `CreateRun` for an occurrence. -/
def createOccurrence (cal : Calendar) (env : Env) (item : Schedule) (db : Db) :
    Except StoreError ((Run × Bool) × Db) :=
  createRun env item.tenantId none item.workflowDefinitionId (occurrenceKey cal item) "\x7b\x7d"
    none db

/-- The loop over the occurrences, `envs` being those of its transactions. It goes on after a
conflict, and returns any other error. -/
def createOccurrences (cal : Calendar) (envs : ℕ → Env) : ℕ → List Schedule → Db →
    Option FireError × Db
  | _, [], db => (none, db)
  | n, item :: rest, db =>
    match createOccurrence cal (envs n) item db with
    | .ok r => createOccurrences cal envs (n + 1) rest r.2
    | .error .conflict => createOccurrences cal envs (n + 1) rest db
    | .error e => (some (.store e), db)

/-! ## A tick -/

/-- How a tick ends : its error, and the tables it leaves. -/
structure TickResult where
  error : Option FireError
  schedules : List Schedule
  db : Db

/-- What a tick takes from outside : the environments of its transactions, and the rows its
statements see. -/
structure TickInput where
  fire : Env
  fireScan : Scan
  creates : ℕ → Env
  promote : Env
  recover : Env
  recoverScan : Scan
  dispatch : Env
  dispatchScan : Scan

/-- `Service.fireSchedules`. -/
def fireSchedules (strict : Bool) (cal : Calendar) (input : TickInput)
    (schedules : List Schedule) (db : Db) : TickResult :=
  match fireTx strict cal input.fire input.fireScan schedules with
  | .error e => ⟨some e, schedules, db⟩
  | .ok (schedules', due) =>
    let r := createOccurrences cal input.creates 0 due db
    ⟨r.1, schedules', r.2⟩

/-- The phases after the schedules have fired. -/
def phases (input : TickInput) (db : Db) : Db :=
  dispatchReady input.dispatch input.dispatchScan
    (recoverExpired input.recover input.recoverScan (promoteRetries input.promote db))

/-- `Service.tick`, with no fault of the database. -/
def tick (strict : Bool) (cal : Calendar) (input : TickInput) (schedules : List Schedule)
    (db : Db) : TickResult :=
  let fired := fireSchedules strict cal input schedules db
  match fired.error with
  | some e => ⟨some e, fired.schedules, fired.db⟩
  | none => ⟨none, fired.schedules, phases input fired.db⟩

end RunMesh
