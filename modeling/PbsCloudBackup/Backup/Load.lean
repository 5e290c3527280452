import PbsCloudBackup.Backup.Invariant
/-!
# Every append goes to a medium just loaded

The pool writer appends an archive only to the medium `load_writable_media` has just
returned: in the chunk loop and the first attempt of the snapshot archive the load is
followed by one abort check of the worker task, and the retry of a snapshot or catalog
archive and the first catalog attempt append right after the load. `LoadedSound` says this
of every append of a trace; the chunk loop, the snapshot archive and the catalog keep it,
so every run of `backup_worker` does (`append_follows_load`).
-/

namespace PbsCloudBackup.Backup

/-- What an archive append needs of the trace before it: it ends in a load that returned a
medium, or in such a load and a passed abort check. -/
def LoadedStep (pre : Trace) (e : Event) : Prop :=
  e.isAppend → ∃ u, (∃ pre', pre = pre' ++ [.loadWritableMedia (.ok u)]) ∨
    ∃ pre', pre = pre' ++ [.loadWritableMedia (.ok u), .checkAbort (.ok ())]

/-- Every append of the trace goes to a medium just loaded. -/
def LoadedSound (t : Trace) : Prop := AllSteps LoadedStep t

theorem LoadedStep.of_not_append {pre : Trace} {e : Event} (he : e.isAppend = false) :
    LoadedStep pre e :=
  fun h => absurd (he ▸ h) Bool.false_ne_true

theorem LoadedStep.after_load {pre : Trace} {u : Uuid} {e : Event} :
    LoadedStep (pre ++ [.loadWritableMedia (.ok u)]) e :=
  fun _ => ⟨u, .inl ⟨pre, rfl⟩⟩

theorem LoadedStep.after_check {pre : Trace} {u : Uuid} {x : Unit} {e : Event} :
    LoadedStep (pre ++ [.loadWritableMedia (.ok u)] ++ [.checkAbort (.ok x)]) e :=
  fun _ => ⟨u, .inr ⟨pre, List.append_assoc _ _ _⟩⟩

/-- A recorded call whose every record satisfies `c` after `t`, followed by a job that keeps
every step satisfying `c`. -/
theorem AllSteps.call_bind {c : Trace → Event → Prop} {β γ : Type} {t : Trace}
    {answer : Trace → Except String β} {record : Except String β → Event} {f : β → Job γ}
    {Q : γ → Trace → Prop} (h : AllSteps c t) (hs : ∀ r, c t (record r))
    (hk : ∀ b, AllSteps c (t ++ [record (.ok b)]) →
      wp (f b) Q (fun _ => AllSteps c) (t ++ [record (.ok b)])) :
    wp (Backup.call answer record >>= f) Q (fun _ => AllSteps c) t := by
  rw [wp_bind, wp_call]
  split
  · exact hk _ (allSteps_append_singleton.2 ⟨h, hs _⟩)
  · exact allSteps_append_singleton.2 ⟨h, hs _⟩

theorem LoadedSound.snoc {t : Trace} {e : Event} (h : LoadedSound t) (he : e.isAppend = false) :
    LoadedSound (t ++ [e]) :=
  allSteps_append_singleton.2 ⟨h, .of_not_append he⟩

section

variable (env : Env) (ds : Datastore)

theorem chunkLoop_loaded :
    ∀ fuel chunks, Keeps LoadedSound LoadedSound (chunkLoop env fuel chunks)
  | 0, _ => fun _ h => h
  | fuel + 1, chunks => fun t h => by
    simp only [chunkLoop]
    refine AllSteps.call_bind h (fun _ => .of_not_append rfl) fun _ h₁ => ?_
    rcases chunks with _ | ⟨_ | c, rest⟩
    · exact h₁
    · exact h₁
    refine AllSteps.call_bind h₁ (fun _ => .of_not_append rfl) fun _ h₂ => ?_
    refine AllSteps.call_bind h₂ (fun _ => .of_not_append rfl) fun _ h₃ => ?_
    refine AllSteps.call_bind h₃ (fun _ => .after_check) fun ⟨_, leom⟩ h₄ => ?_
    cases leom
    · exact chunkLoop_loaded fuel _ _ h₄
    · exact AllSteps.call_bind h₄ (fun _ => .of_not_append rfl) fun _ h₅ =>
        chunkLoop_loaded fuel _ _ h₅

theorem writeSnapshotArchive_loaded (dir : BackupDir) :
    Keeps LoadedSound LoadedSound (writeSnapshotArchive env dir) := fun t h => by
  refine AllSteps.call_bind h (fun _ => .of_not_append rfl) fun _ h₁ => ?_
  refine AllSteps.call_bind h₁ (fun _ => .of_not_append rfl) fun _ h₂ => ?_
  refine AllSteps.call_bind h₂ (fun _ => .of_not_append rfl) fun _ h₃ => ?_
  refine AllSteps.call_bind h₃ (fun _ => .after_check) fun done h₄ => ?_
  rw [wp_bind]
  cases done
  · simp only [Bool.not_false, ↓reduceIte]
    refine AllSteps.call_bind h₄ (fun _ => .of_not_append rfl) fun _ h₅ => ?_
    refine AllSteps.call_bind h₅ (fun _ => .of_not_append rfl) fun _ h₆ => ?_
    refine AllSteps.call_bind h₆ (fun _ => .of_not_append rfl) fun _ h₇ => ?_
    refine AllSteps.call_bind h₇ (fun _ => .after_load) fun done h₈ => ?_
    cases done <;> exact h₈
  · exact h₄

theorem writeCatalog_loaded : Keeps LoadedSound LoadedSound (writeCatalog env) := fun t h => by
  refine AllSteps.call_bind h (fun _ => .of_not_append rfl) fun _ h₁ => ?_
  refine AllSteps.call_bind h₁ (fun _ => .after_load) fun done h₂ => ?_
  cases done
  · simp only [Bool.not_false, ↓reduceIte]
    refine AllSteps.call_bind h₂ (fun _ => .of_not_append rfl) fun _ h₃ => ?_
    refine AllSteps.call_bind h₃ (fun _ => .of_not_append rfl) fun _ h₄ => ?_
    refine AllSteps.call_bind h₄ (fun _ => .after_load) fun done h₅ => ?_
    cases done <;> exact h₅
  · exact h₂

theorem loadedSound_backupWorker (setup : Setup) (forceMediaSet : Bool) (fuel : Nat) :
    LoadedSound (runTrace (backupWorker env ds setup forceMediaSet fuel)) :=
  ((backupWorker_keeps env ds (fun _ h => h)
    (fun fuel dir => backupSnapshot_keeps env ds (fun _ h => h) fuel dir (fun _ h => h.snoc rfl)
      (.call' fun _ _ h => h.snoc rfl) (chunkLoop_loaded env fuel)
      (writeSnapshotArchive_loaded env dir))
    (fun _ e he h => h.snoc (by cases e <;> first | rfl | cases he))
    (fun _ _ h => h.snoc rfl) (fun _ _ h => h.snoc rfl)
    (fun setup st => finishBackup_keeps env setup st (fun _ h => h) (writeCatalog_loaded env)
      (.call' fun _ _ h => h.snoc rfl) (.call' fun _ _ h => h.snoc rfl) fun _ _ h => h.snoc rfl)
    setup forceMediaSet fuel).runTrace allSteps_nil).elim id id

end

/-- In every run of `backup_worker`, every append of a chunk, snapshot or catalog archive
comes directly after a `load_writable_media` call that returned a medium, or after such a
call and a passed abort check of the worker task. -/
theorem append_follows_load (env : Env) (ds : Datastore) (setup : Setup) (forceMediaSet : Bool)
    (fuel : Nat) :
    ∀ pre e post, runTrace (backupWorker env ds setup forceMediaSet fuel) = pre ++ e :: post →
      e.isAppend →
      ∃ u, (∃ pre', pre = pre' ++ [.loadWritableMedia (.ok u)]) ∨
        ∃ pre', pre = pre' ++ [.loadWritableMedia (.ok u), .checkAbort (.ok ())] :=
  fun pre e post hT =>
    loadedSound_backupWorker env ds setup forceMediaSet fuel pre e post hT

theorem append_follows_load_two_chunks :
    ∃ pre post, runTrace (backupWorker (steadyEnv twoChunks) (vmDatastore [0]) plainSetup false 3) =
        pre ++ .appendChunkArchive (.ok (1, false)) :: post ∧
      ∃ u, (∃ pre', pre = pre' ++ [.loadWritableMedia (.ok u)]) ∨
        ∃ pre', pre = pre' ++ [.loadWritableMedia (.ok u), .checkAbort (.ok ())] :=
  have h : runTrace (backupWorker (steadyEnv twoChunks) (vmDatastore [0]) plainSetup false 3) =
      [.containsSnapshot (vmSnapshot 0) false, .backupSnapshot (vmSnapshot 0),
        .spawnChunkReaderThread (.ok ⟨twoChunks, true⟩), .checkAbort (.ok ()),
        .loadWritableMedia (.ok ⟨0⟩), .checkAbort (.ok ())] ++
      .appendChunkArchive (.ok (1, false)) ::
      (runTrace (backupWorker (steadyEnv twoChunks) (vmDatastore [0]) plainSetup false 3)).drop 7 :=
    rfl
  ⟨_, _, h, append_follows_load _ _ _ _ _ _ _ _ h rfl⟩

end PbsCloudBackup.Backup
