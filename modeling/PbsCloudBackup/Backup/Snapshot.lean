import PbsCloudBackup.Backup.Model
/-!
# `backup_snapshot`

One snapshot goes to the media set in two parts. The chunk loop streams the chunks of the
reader thread's peekable iterator: while the iterator shows an `Ok` chunk it loads a
writable medium and hands the iterator to `append_chunk_archive`, which consumes a prefix
of it and reports whether the medium reached its logical end, in which case the medium is
marked full. Then the reader thread is joined and the snapshot archive is written, once
more on a fresh medium when it does not fit.

The loop is structurally recursive on a fuel argument. Running out of fuel ends the run
with `Error.outOfFuel`, which stands for a loop that has not ended; the chunk stream
theorems show that enough fuel never runs out.
-/

namespace PbsCloudBackup.Backup

section

variable (env : Env) (ds : Datastore)

/-- The chunk loop of `backup_snapshot`: `chunks` is what the peekable iterator has left. -/
def chunkLoop : Nat → List (Except String Chunk) → Job Unit
  | 0, _ => throw .outOfFuel
  | fuel + 1, chunks => do
    checkAbort env
    match chunks with
    | [] => pure ()
    | .error err :: _ => bail err
    | .ok _ :: _ =>
      let uuid ← loadWritableMedia env
      checkAbort env
      let (consumed, leom) ← appendChunkArchive env chunks
      (if leom then setMediaStatusFull env uuid else pure ())
      chunkLoop fuel (chunks.drop consumed)

/-- The snapshot archive part of `backup_snapshot`, after the chunk reader is joined: an
archive that does not fit is written again, whole, on the next medium. -/
def writeSnapshotArchive (dir : BackupDir) : Job SnapshotBackupResult := do
  checkAbort env
  let uuid ← loadWritableMedia env
  checkAbort env
  let done ← appendSnapshotArchive env dir
  (if !done then do
    setMediaStatusFull env uuid
    checkAbort env
    let _ ← loadWritableMedia env
    let done ← appendSnapshotArchive env dir
    (if !done then bail "write_snapshot_archive failed on second media" else pure ())
  else pure ())
  pure .success

/-- `backup_snapshot`. A snapshot that cannot be opened is `Ignored` when its directory
has vanished and an `Error` otherwise. -/
def backupSnapshot (fuel : Nat) (dir : BackupDir) : Job SnapshotBackupResult := do
  emit (.backupSnapshot dir)
  match ds.lockedReader dir with
  | .error _ => pure (if ds.fullPathExists dir then .error else .ignored)
  | .ok () =>
    let reader ← call (env.spawnChunkReaderThread · dir) .spawnChunkReaderThread
    chunkLoop env fuel reader.chunks
    (if !reader.joinOk then bail "chunk reader thread failed" else pure ())
    writeSnapshotArchive env dir

end

end PbsCloudBackup.Backup
