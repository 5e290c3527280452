import PbsCloudBackup.Backup.Invariant
/-!
# The commit of the pool

`pool_writer.commit()` ends the group loop of `backup_worker`, and every run that gets that
far calls it once. Before it come only the steps of the group loop and of `backup_snapshot`:
every chunk and snapshot archive with the loads for them. After it come only the catalog,
whose load and append follow the commit, the export or eject of the media set, and the query
of the used media (`commit_once_after_snapshots`).
-/

namespace PbsCloudBackup.Backup

/-- A step of the group loop or of `backup_snapshot`. -/
def Event.isBeforeCommit (e : Event) : Bool := e.isLoopStep || e.isSnapshotStep

/-- A step of the end of a run after the commit: the catalog's, export or eject, and the
query of the used media. -/
def Event.isAfterCommit (e : Event) : Bool := e.isCatalogStep || e.isFinishStep

/-- `T` calls `commit` once, with steps of the group loop and of `backup_snapshot` only
before it and steps of the end only after it. -/
def CommittedOnce (T : Trace) : Prop :=
  ∃ A r B, T = A ++ .commit r :: B ∧ (∀ e ∈ A, e.isBeforeCommit) ∧ ∀ e ∈ B, e.isAfterCommit

theorem committedOnce_snoc {T : Trace} {e : Event} (h : CommittedOnce T) (he : e.isAfterCommit) :
    CommittedOnce (T ++ [e]) := by
  obtain ⟨A, r, B, rfl, hA, hB⟩ := h
  exact ⟨A, r, B ++ [e], by simp, hA, List.forall_mem_append.2 ⟨hB, List.forall_mem_singleton.2 he⟩⟩

section

variable (env : Env) (ds : Datastore)

/-- Every run of `backup_worker` that gets past the group loop calls `commit` once, after
every step of the loop and of `backup_snapshot` and before the catalog, the export or eject
and the query of the used media; a run that does not get that far calls none of them. -/
theorem commit_once_after_snapshots (setup : Setup) (forceMediaSet : Bool) (fuel : Nat) :
    wp (backupWorker env ds setup forceMediaSet fuel) (fun _ T => CommittedOnce T)
      (fun _ T => (∀ e ∈ T, e.isBeforeCommit) ∨ CommittedOnce T) [] := by
  have hsnoc : ∀ (t : Trace) (e : Event), e.isBeforeCommit → (∀ x ∈ t, x.isBeforeCommit) →
      ∀ x ∈ t ++ [e], x.isBeforeCommit :=
    fun _ _ he h => List.forall_mem_append.2 ⟨h, List.forall_mem_singleton.2 he⟩
  refine backupWorker_phases env ds (fun _ h => h)
    (fun fuel dir => (backupSnapshot_only env ds fuel dir).keeps fun t e he =>
      hsnoc t e (by simp only [Event.isBeforeCommit, he, Bool.or_true]))
    (fun t e he => hsnoc t e (by simp only [Event.isBeforeCommit, he, Bool.true_or]))
    (fun t _ h => ⟨t, _, [], rfl, h, List.forall_mem_nil _⟩)
    (fun t _ h => ⟨t, _, [], rfl, h, List.forall_mem_nil _⟩)
    (fun setup st => (finishBackup_only env setup st).keeps fun _ _ he h => committedOnce_snoc h he)
    setup forceMediaSet fuel [] (List.forall_mem_nil _)

end

/-- A run that backs up one snapshot loads a medium and appends the catalog after the
commit. -/
theorem catalog_written_after_commit :
    ∃ A r B, runTrace (backupWorker (steadyEnv twoChunks) (vmDatastore [0]) plainSetup false 3) =
        A ++ .commit r :: B ∧ (∃ e ∈ B, e.isLoad) ∧ ∃ e ∈ B, e.isCatalogAppend :=
  have h : runTrace (backupWorker (steadyEnv twoChunks) (vmDatastore [0]) plainSetup false 3) =
      [.containsSnapshot (vmSnapshot 0) false, .backupSnapshot (vmSnapshot 0),
        .spawnChunkReaderThread (.ok ⟨twoChunks, true⟩),
        .checkAbort (.ok ()), .loadWritableMedia (.ok ⟨0⟩), .checkAbort (.ok ()),
        .appendChunkArchive (.ok (1, false)),
        .checkAbort (.ok ()), .loadWritableMedia (.ok ⟨0⟩), .checkAbort (.ok ()),
        .appendChunkArchive (.ok (1, false)), .checkAbort (.ok ()),
        .checkAbort (.ok ()), .loadWritableMedia (.ok ⟨0⟩), .checkAbort (.ok ()),
        .appendSnapshotArchive (.ok true),
        .snapshotResult .success, .summaryPush "", .percentageDone ⟨0, 1, 1, 1⟩] ++
      .commit (.ok ()) ::
      [.loadWritableMedia (.ok ⟨0⟩), .appendCatalogArchive (.ok true), .getUsedMediaLabels (.ok [])] :=
    rfl
  ⟨_, _, _, h, ⟨_, List.mem_cons_self _ _, rfl⟩,
    ⟨_, List.mem_cons_of_mem _ (List.mem_cons_self _ _), rfl⟩⟩

end PbsCloudBackup.Backup
