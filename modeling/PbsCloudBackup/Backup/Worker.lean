import PbsCloudBackup.Backup.Snapshot
/-!
# `backup_worker`

The job: refresh the changer's online media, open the pool writer, collect the groups of
every namespace under the anchor, sort them by identity and filter them, then back up the
finished snapshots of each group, oldest first, or only the newest in latest-only mode,
skipping those the media set already holds. Afterwards the pool is committed, a catalog
is written when a snapshot was attempted, the media set is exported or ejected, and a run
with a failed snapshot ends in `Err`.

The loops over groups and snapshots are structural recursions carrying the variables the
Rust loop mutates (`LoopState`); a `continue` returns the state unchanged.
-/

namespace PbsCloudBackup.Backup

open Jobs

section

variable (env : Env) (ds : Datastore)

/-- `update_media_online_status`: refresh the online media of the drive's changer, if
it has one, and return the changer's name. -/
def updateMediaOnlineStatus (drive : String) : Job (Option String) := do
  lift env.driveConfig
  match env.mediaChanger drive with
  | .ok (some changerName) =>
    lift (env.onlineMediaLabelTexts changerName)
    lift env.inventoryLoad
    lift (env.updateChangerOnlineStatus changerName)
    pure (some changerName)
  | _ => pure none

/-- `for ns in namespaces { group_list.extend(datastore.list_backup_groups(ns)?) }`. -/
def listGroups : List BackupNamespace → Except String (List BackupGroup)
  | [] => .ok []
  | ns :: rest => do
    let groups ← ds.listBackupGroups ns
    let more ← listGroups rest
    pure (groups ++ more)

/-- The group list of `backup_worker` after `sort_unstable_by` on the identity and the
group filter. -/
def selectGroups (groups : List BackupGroup) (groupFilter : Option (List GroupFilter)) :
    List BackupGroup :=
  let sorted := sortUnstableBy (fun g : BackupGroup => g.group.key) groups
  match groupFilter with
  | some f => sorted.filter fun g => env.applyFilters g.group f
  | none => sorted

/-- The variables the group loop of `backup_worker` updates. -/
structure LoopState where
  progress : StoreProgress
  errors : Bool
  needCatalog : Bool

/-- One listed snapshot: skipped when the media set already holds it (`none`, the loop's
`continue`), otherwise backed up, with its result recorded. -/
def backupListed (fuel : Nat) (st : LoopState) (info : BackupInfo) : Job (Option LoopState) := do
  let relPath := env.printNsAndSnapshot info.backupDir
  if ← ask (env.containsSnapshot · info.backupDir) (.containsSnapshot info.backupDir) then
    pure none
  else
    let st := { st with needCatalog := true }
    let r ← backupSnapshot env ds fuel info.backupDir
    emit (.snapshotResult r)
    match r with
    | .success =>
      emit (.summaryPush relPath)
      pure (some st)
    | .error => pure (some { st with errors := true })
    | .ignored => pure (some st)

/-- The snapshots of a group outside latest-only mode; `n` is the enumeration index of the
first. -/
def snapshotLoop (fuel : Nat) : LoopState → List BackupInfo → Nat → Job LoopState
  | st, [], _ => pure st
  | st, info :: rest, n => do
    match ← backupListed env ds fuel st info with
    | none => snapshotLoop fuel st rest (n + 1)
    | some st =>
      let progress := { st.progress with doneSnapshots := n + 1 }
      emit (.percentageDone progress)
      snapshotLoop fuel { st with progress } rest (n + 1)

/-- One iteration of the group loop of `backup_worker`. -/
def backupGroup (fuel : Nat) (latestOnly : Bool) (st : LoopState) (groupNumber : Nat)
    (group : BackupGroup) : Job LoopState := do
  let progress := { st.progress with doneGroups := groupNumber, doneSnapshots := 0 }
  let st := { st with progress := { progress with groupSnapshots := 0 } }
  let snapshotList ← lift (ds.listBackups group)
  let snapshotList := snapshotList.filter (·.finished)
  if snapshotList.isEmpty then pure st
  else
    let snapshotList := sortUnstableBy (·.backupDir.time) snapshotList
    if latestOnly then
      let st := { st with progress := { st.progress with groupSnapshots := 1 } }
      match snapshotList.getLast? with
      | none => pure st
      | some info =>
        match ← backupListed env ds fuel st info with
        | none => pure st
        | some st =>
          let progress := { st.progress with doneSnapshots := 1 }
          emit (.percentageDone progress)
          pure { st with progress }
    else
      let st := { st with progress := { st.progress with groupSnapshots := snapshotList.length } }
      snapshotLoop env ds fuel st snapshotList 0

/-- The group loop of `backup_worker`; `n` is the enumeration index of the first group. -/
def groupLoop (fuel : Nat) (latestOnly : Bool) : LoopState → List BackupGroup → Nat → Job LoopState
  | st, [], _ => pure st
  | st, group :: rest, n => do
    let st ← backupGroup env ds fuel latestOnly st n group
    groupLoop fuel latestOnly st rest (n + 1)

/-- The catalog part of `backup_worker`: like a snapshot archive, a catalog that does not
fit is written again on the next medium. -/
def writeCatalog : Job Unit := do
  let uuid ← loadWritableMedia env
  let done ← appendCatalogArchive env
  if !done then
    setMediaStatusFull env uuid
    let _ ← loadWritableMedia env
    let done ← appendCatalogArchive env
    if !done then bail "write_catalog_archive failed on second media"

/-- The end of `backup_worker`, after `pool_writer.commit()`: write the catalog when a
snapshot was attempted, export or eject the media set, and fail a run with errors. -/
def finishBackup (setup : Setup) (st : LoopState) : Job Unit := do
  (if st.needCatalog then writeCatalog env else pure ())
  (if setup.exportMediaSet.getD false then call env.exportMediaSet .exportMediaSet
    else if setup.ejectMedia.getD false then call env.ejectMedia .ejectMedia
    else pure ())
  (if st.errors then bail "Tape backup finished with some errors. Please check the task log."
    else pure ())
  let _ ← ask env.getUsedMediaLabels .getUsedMediaLabels

/-- `backup_worker`. -/
def backupWorker (setup : Setup) (forceMediaSet : Bool) (fuel : Nat) : Job Unit := do
  let changerName ← updateMediaOnlineStatus env setup.drive
  let rootNamespace := setup.ns.getD .root
  let nsMagic := !rootNamespace.isRoot || setup.maxDepth != some 0
  lift (env.mediaPoolWithConfig changerName)
  lift (env.poolWriterNew forceMediaSet nsMagic)
  let namespaces ← lift (ds.recursiveIterBackupNsOk rootNamespace setup.maxDepth)
  let groupList ← lift (listGroups ds namespaces)
  let groupList := selectGroups env groupList setup.groupFilter
  let latestOnly := setup.latestOnly.getD false
  let st ← groupLoop env ds fuel latestOnly ⟨StoreProgress.new groupList.length, false, false⟩
    groupList 0
  call env.commit .commit
  finishBackup env setup st

end

/-! ## Sample collaborators

Concrete collaborators and datastore content on which runs are evaluated. -/

/-- Collaborators that never fail, abort or fill a medium: every chunk archive takes one
chunk, every archive fits, the media set holds no snapshot yet, and every snapshot's
reader yields `chunks` and joins. -/
def steadyEnv (chunks : List (Except String Chunk)) : Env where
  driveConfig := .ok ()
  mediaChanger := fun _ => .ok none
  onlineMediaLabelTexts := fun _ => .ok ()
  inventoryLoad := .ok ()
  updateChangerOnlineStatus := fun _ => .ok ()
  mediaPoolWithConfig := fun _ => .ok ()
  poolWriterNew := fun _ _ => .ok ()
  checkAbort := fun _ => .ok ()
  containsSnapshot := fun _ _ => false
  spawnChunkReaderThread := fun _ _ => .ok ⟨chunks, true⟩
  loadWritableMedia := fun _ => .ok ⟨0⟩
  appendChunkArchive := fun _ _ => .ok (1, false)
  setMediaStatusFull := fun _ _ => .ok ()
  appendSnapshotArchive := fun _ _ => .ok true
  commit := fun _ => .ok ()
  appendCatalogArchive := fun _ => .ok true
  exportMediaSet := fun _ => .ok ()
  ejectMedia := fun _ => .ok ()
  getUsedMediaLabels := fun _ => .ok []
  applyFilters := fun _ _ => true
  printNsAndSnapshot := fun _ => ""

/-- A datastore whose listings succeed with the given content and whose snapshots all
open. -/
def sampleDatastore (namespaces : List BackupNamespace)
    (groups : BackupNamespace → List BackupGroup) (snapshots : BackupGroup → List BackupInfo) :
    Datastore where
  name := "store"
  recursiveIterBackupNsOk := fun _ _ => .ok namespaces
  listBackupGroups := fun ns => .ok (groups ns)
  listBackups := fun g => .ok (snapshots g)
  lockedReader := fun _ => .ok ()
  fullPathExists := fun _ => true

/-- The snapshot `vm/100` of the root namespace taken at `time`. -/
def vmSnapshot (time : Int) : BackupDir := ⟨.root, ⟨.vm, "100".toList⟩, time⟩

/-- The group `vm/100` of the root namespace. -/
def vmGroup : BackupGroup := ⟨.root, ⟨.vm, "100".toList⟩⟩

/-- A datastore holding the group `vm/100` of the root namespace alone, with a finished
snapshot taken at each of `times`. -/
def vmDatastore (times : List Int) : Datastore :=
  sampleDatastore [.root] (fun _ => [vmGroup]) (fun _ => times.map fun time => ⟨vmSnapshot time, true⟩)

/-- Two chunks read without error. -/
def twoChunks : List (Except String Chunk) := [.ok ⟨1⟩, .ok ⟨2⟩]

/-- The setup of a job that sets no option: the root namespace at any depth, no group filter,
every snapshot, and neither export nor eject. -/
def plainSetup : Setup := ⟨"drive", none, none, none, none, none, none⟩

end PbsCloudBackup.Backup
