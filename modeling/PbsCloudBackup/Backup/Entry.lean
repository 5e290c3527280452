import PbsCloudBackup.Backup.Outcome
import PbsCloudBackup.Maintenance
/-!
# The `backup` API call and its worker task

`backup` (`api2/cloud/backup.rs`) is reachable by anybody, so its body checks the caller:
`check_backup_permission` asks for `Datastore.Read` on the store and `Tape.Write` on the
drive and the pool. It then opens the datastore for reading, reads the media pool and drive
configurations, locks the drive and starts a worker task. The task marks the drive with its
UPID, runs `backup_worker`, mails the result when the notify user has an address, and clears
the drive's state whatever the job returned; the job's result is the task's.

* `backup_ok`: a started task was allowed by all three privilege checks;
* `backupTask_outcome`: the task runs the job only on a marked drive, returns the job's
  result and clears the drive afterwards; a failed call of the job is its last step, and the
  task fails with that call's error.
-/

namespace PbsCloudBackup.Backup

open Maintenance

/-- The privileges `check_backup_permission` asks for: `PRIV_DATASTORE_READ` and
`PRIV_TAPE_WRITE` of `pbs-api-types`, which `src/` does not define. -/
inductive Priv
  | datastoreRead
  | tapeWrite
  deriving DecidableEq, Repr

/-- The fields of `TapeBackupJobSetup` that `backup` reads beside those of `backup_worker`. -/
structure JobSetup where
  store : String
  pool : String
  notifyUser : Option String
  setup : Setup

/-- The collaborators of `backup` and of its worker task. `authId` is
`rpcenv.get_auth_id().unwrap().parse()` of an authenticated call; `checkPrivs` is
`CachedUserInfo::check_privs` on the user information `cachedUserInfo` loads;
`newThread` starts the task under a job id and answers its UPID. -/
structure ApiEnv where
  authId : Except String String
  cachedUserInfo : Except String Unit
  checkPrivs : String → List String → Priv → Bool → Except String Unit
  lookupDatastore : String → Option Operation → Except String Datastore
  mediaPoolConfig : Except String Unit
  lookupPool : String → Except String Unit
  driveConfig : Except String Unit
  lockTapeDevice : String → Except String Unit
  rootUserid : String
  lookupUserEmail : String → Option String
  newThread : String → Except String String
  setTapeDeviceState : String → String → Except String Unit
  sendTapeBackupStatus : String → Except Error Unit → Trace → Except String Unit

variable (api : ApiEnv)

/-- `check_backup_permission`. -/
def checkBackupPermission (authId store pool drive : String) : Except String Unit := do
  api.cachedUserInfo
  api.checkPrivs authId ["datastore", store] .datastoreRead false
  api.checkPrivs authId ["tape", "drive", drive] .tapeWrite false
  api.checkPrivs authId ["tape", "pool", pool] .tapeWrite false

/-- What `backup` moves into the worker task's closure. -/
structure StartedTask where
  jobId : String
  authId : String
  datastore : Datastore
  email : Option String

/-- `backup`: the UPID of the started task, and what the task was given. -/
def backup (job : JobSetup) : Except String (String × StartedTask) := do
  let authId ← api.authId
  checkBackupPermission api authId job.store job.pool job.setup.drive
  let datastore ← api.lookupDatastore job.store (some .read)
  api.mediaPoolConfig
  api.lookupPool job.pool
  api.driveConfig
  api.lockTapeDevice job.setup.drive
  let jobId := job.store ++ ":" ++ job.pool ++ ":" ++ job.setup.drive
  let notifyUser := job.notifyUser.getD api.rootUserid
  let email := api.lookupUserEmail notifyUser
  let upid ← api.newThread jobId
  pure (upid, ⟨jobId, authId, datastore, email⟩)

/-- A step of the worker task. -/
inductive TaskStep
  | setTapeDeviceState (drive state : String) (r : Except String Unit)
  | backupWorker (trace : Trace) (result : Except Error Unit)
  | sendTapeBackupStatus (email : String) (r : Except String Unit)

/-- The result and the trace of a run of `backup_worker` from the start. -/
def runJob (m : Job Unit) : Except Error Unit × Trace :=
  match m [] with
  | .ok () t => (.ok (), t)
  | .error e t => (.error e, t)

theorem runJob_snd (m : Job Unit) : (runJob m).2 = runTrace m := by
  unfold runJob runTrace
  cases m [] <;> rfl

/-- The closure of the worker task that `backup` starts: its result and its steps. A failure
of the notification or of clearing the drive's state is only printed or ignored. -/
def backupTask (env : Env) (fuel : Nat) (job : JobSetup) (forceMediaSet : Bool)
    (task : StartedTask) (upid : String) : Except Error Unit × List TaskStep :=
  let drive := job.setup.drive
  match api.setTapeDeviceState drive upid with
  | .error e => (.error (.msg e), [.setTapeDeviceState drive upid (.error e)])
  | .ok () =>
    let run := runJob (backupWorker env task.datastore job.setup forceMediaSet fuel)
    let notify := match task.email with
      | some email => [TaskStep.sendTapeBackupStatus email (api.sendTapeBackupStatus email run.1 run.2)]
      | none => []
    (run.1, [.setTapeDeviceState drive upid (.ok ()), .backupWorker run.2 run.1] ++ notify ++
      [.setTapeDeviceState drive "" (api.setTapeDeviceState drive "")])

theorem bind_eq_ok {ε α β : Type} {x : Except ε α} {f : α → Except ε β} {b : β} :
    x >>= f = .ok b ↔ ∃ a, x = .ok a ∧ f a = .ok b := by
  cases x <;> simp [bind, Except.bind]

theorem exists_unit_iff {p : Unit → Prop} : (∃ a, p a) ↔ p () :=
  ⟨fun ⟨⟨⟩, h⟩ => h, fun h => ⟨(), h⟩⟩

/-- `check_backup_permission` passes exactly when the user information loads and the caller
holds `Datastore.Read` on `/datastore/{store}` and `Tape.Write` on `/tape/drive/{drive}` and
`/tape/pool/{pool}`, none of them as a partial privilege. -/
theorem checkBackupPermission_ok_iff (authId store pool drive : String) :
    checkBackupPermission api authId store pool drive = .ok () ↔
      api.cachedUserInfo = .ok () ∧
      api.checkPrivs authId ["datastore", store] .datastoreRead false = .ok () ∧
      api.checkPrivs authId ["tape", "drive", drive] .tapeWrite false = .ok () ∧
      api.checkPrivs authId ["tape", "pool", pool] .tapeWrite false = .ok () := by
  simp only [checkBackupPermission, bind_eq_ok, exists_unit_iff]

/-- A task that `backup` started was allowed by all three privilege checks for the caller the
request authenticated, reads the store it looked up for reading, holds the drive's lock and
runs under the job id `store:pool:drive`. -/
theorem backup_ok {job : JobSetup} {upid : String} {task : StartedTask}
    (h : backup api job = .ok (upid, task)) :
    api.authId = .ok task.authId ∧
      checkBackupPermission api task.authId job.store job.pool job.setup.drive = .ok () ∧
      api.lookupDatastore job.store (some .read) = .ok task.datastore ∧
      api.lockTapeDevice job.setup.drive = .ok () ∧
      task.jobId = job.store ++ ":" ++ job.pool ++ ":" ++ job.setup.drive ∧
      api.newThread task.jobId = .ok upid := by
  simp only [backup, bind_eq_ok, exists_unit_iff] at h
  obtain ⟨authId, hauth, hperm, ds, hds, -, -, -, hlock, upid', hthread, heq⟩ := h
  cases heq
  exact ⟨hauth, hperm, hds, hlock, rfl, hthread⟩

/-- The result of a run of the job is what the run left: a call that failed in the run is
its last step, and the job's result is that call's error. -/
theorem runJob_failed_call (env : Env) (ds : Datastore) (setup : Setup) (forceMediaSet : Bool)
    (fuel : Nat) {pre post : Trace} {e : Event} {s : String}
    (hT : (runJob (backupWorker env ds setup forceMediaSet fuel)).2 = pre ++ e :: post)
    (he : e.callError = some s) :
    runJob (backupWorker env ds setup forceMediaSet fuel) = (.error (.msg s), pre ++ [e]) := by
  obtain ⟨-, h⟩ := (backupWorker_passesOn env ds setup forceMediaSet fuel).failed_call_last
    ((runJob_snd _).symm.trans hT) he
  rw [runJob, h]

/-- The worker task: when the drive cannot be marked with the task's UPID the job does not
run; otherwise the task returns the job's result, its first step marks the drive and its
last clears it, and a call of the job that failed makes the task fail with that call's
error. -/
theorem backupTask_outcome (env : Env) (fuel : Nat) (job : JobSetup) (forceMediaSet : Bool)
    (task : StartedTask) (upid : String) :
    let run := backupTask api env fuel job forceMediaSet task upid
    (∀ e, api.setTapeDeviceState job.setup.drive upid = .error e →
      run = (.error (.msg e), [.setTapeDeviceState job.setup.drive upid (.error e)])) ∧
    (api.setTapeDeviceState job.setup.drive upid = .ok () →
      run.1 = (runJob (backupWorker env task.datastore job.setup forceMediaSet fuel)).1 ∧
      run.2.head? = some (.setTapeDeviceState job.setup.drive upid (.ok ())) ∧
      run.2.getLast? = some (.setTapeDeviceState job.setup.drive ""
        (api.setTapeDeviceState job.setup.drive "")) ∧
      ∀ pre e post s,
        (runJob (backupWorker env task.datastore job.setup forceMediaSet fuel)).2 =
          pre ++ e :: post → e.callError = some s → run.1 = .error (.msg s)) :=
  ⟨fun e he => by simp only [backupTask, he],
    fun he => ⟨by simp only [backupTask, he], by simp [backupTask, he],
      by simp [backupTask, he, List.getLast?_cons], fun _ _ _ _ hT hs => by
        simp only [backupTask, he, runJob_failed_call env _ _ _ _ hT hs]⟩⟩

end PbsCloudBackup.Backup
