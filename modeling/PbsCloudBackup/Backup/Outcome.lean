import PbsCloudBackup.Backup.Invariant
import PbsCloudBackup.Backup.ChunkStream
/-!
# A failed call ends the run

`backup_worker` passes on the `Err` of every call it makes with `?`: the worker task's abort
check, the chunk reader thread, every call of the pool writer, the commit and the export or
eject of the media set. Only the list of used media, asked for at the very end, has its
`Err` logged and dropped. `PassesOn m` says of one job that a failed call is its last step
and its error is the job's; sequencing keeps it, so it is proved once per function of the
worker and lifted through the loops (`backupWorker_passesOn`).

* `failed_call_ends_run`: in every run of `backup_worker` a failed call is the last step, and
  the run ends in `Err` with exactly that call's error.
-/

namespace PbsCloudBackup.Backup

/-- The error of a call that returned `Err` and passes it on with `?`. The list of used
media is the one call whose `Err` is only logged. -/
def Event.callError : Event → Option String
  | .checkAbort (.error e) | .spawnChunkReaderThread (.error e) | .loadWritableMedia (.error e)
  | .appendChunkArchive (.error e) | .setMediaStatusFull _ (.error e)
  | .appendSnapshotArchive (.error e) | .commit (.error e) | .appendCatalogArchive (.error e)
  | .exportMediaSet (.error e) | .ejectMedia (.error e) => some e
  | _ => none

/-- No call of `t` failed. -/
def NoFailedCall (t : Trace) : Prop := ∀ e ∈ t, e.callError = none

theorem NoFailedCall.snoc {t : Trace} {e : Event} (h : NoFailedCall t) (he : e.callError = none) :
    NoFailedCall (t ++ [e]) :=
  List.forall_mem_append.2 ⟨h, List.forall_mem_singleton.2 he⟩

theorem NoFailedCall.not_mem {t : Trace} {e : Event} {s : String} (h : NoFailedCall t)
    (he : e.callError = some s) : e ∉ t :=
  fun hm => Option.some_ne_none s (he.symm.trans (h e hm))

/-- A job failed with `err` on `t`: no call of `t` failed, or one did, the last step, and
`err` is its error. -/
def FailedAtEnd (err : Error) (t : Trace) : Prop :=
  NoFailedCall t ∨
    ∃ pre e s, t = pre ++ [e] ∧ NoFailedCall pre ∧ e.callError = some s ∧ err = .msg s

/-- `m` passes on a failed call: started on a trace with no failed call, it returns on one
with none, and fails as `FailedAtEnd` says. -/
def PassesOn {α : Type} (m : Job α) : Prop := KeepsE NoFailedCall FailedAtEnd m

namespace PassesOn

variable {α β : Type}

theorem pure (a : α) : PassesOn (Pure.pure a : Job α) := KeepsE.pure a

theorem bind {x : Job α} {f : α → Job β} (hx : PassesOn x) (hf : ∀ a, PassesOn (f a)) :
    PassesOn (x >>= f) :=
  KeepsE.bind hx hf

theorem ite {c : Prop} [Decidable c] {x y : Job α} (hx : PassesOn x) (hy : PassesOn y) :
    PassesOn (if c then x else y) :=
  KeepsE.ite hx hy

/-- A call recorded with its error when it fails. -/
theorem call {answer : Trace → Except String α} {record : Except String α → Event}
    (hok : ∀ a, (record (.ok a)).callError = none)
    (herr : ∀ e, (record (.error e)).callError = some e) :
    PassesOn (Backup.call answer record) :=
  KeepsE.call (fun _ a h => h.snoc (hok a)) fun t e h => Or.inr ⟨t, _, e, rfl, h, herr e, rfl⟩

theorem ask {answer : Trace → α} {record : α → Event} (hr : ∀ a, (record a).callError = none) :
    PassesOn (Backup.ask answer record) :=
  KeepsE.ask fun _ a h => h.snoc (hr a)

theorem emit {e : Event} (he : e.callError = none) : PassesOn (Backup.emit e) :=
  KeepsE.emit fun _ h => h.snoc he

theorem lift (r : Except String α) : PassesOn (Backup.lift r) := KeepsE.lift (fun _ _ => Or.inl) r

theorem bail (text : String) : PassesOn (Backup.bail text : Job α) := KeepsE.bail fun _ => Or.inl

theorem throw (e : Error) : PassesOn (MonadExcept.throw e : Job α) := KeepsE.throw fun _ => Or.inl

end PassesOn

section

variable (env : Env) (ds : Datastore)

theorem chunkLoop_passesOn : ∀ fuel chunks, PassesOn (chunkLoop env fuel chunks)
  | 0, _ => .throw _
  | fuel + 1, chunks => .bind (.call (fun _ => rfl) fun _ => rfl) fun _ => by
    split
    · exact .pure _
    · exact .bail _
    · exact .bind (.call (fun _ => rfl) fun _ => rfl) fun _ =>
        .bind (.call (fun _ => rfl) fun _ => rfl) fun _ =>
        .bind (.call (fun _ => rfl) fun _ => rfl) fun ⟨_, _⟩ =>
        .bind (.ite (.call (fun _ => rfl) fun _ => rfl) (.pure _)) fun _ =>
        chunkLoop_passesOn fuel _

theorem writeSnapshotArchive_passesOn (dir : BackupDir) :
    PassesOn (writeSnapshotArchive env dir) :=
  .bind (.call (fun _ => rfl) fun _ => rfl) fun _ => .bind (.call (fun _ => rfl) fun _ => rfl) fun _ =>
  .bind (.call (fun _ => rfl) fun _ => rfl) fun _ => .bind (.call (fun _ => rfl) fun _ => rfl) fun _ =>
  .bind (.ite (.bind (.call (fun _ => rfl) fun _ => rfl) fun _ =>
      .bind (.call (fun _ => rfl) fun _ => rfl) fun _ =>
      .bind (.call (fun _ => rfl) fun _ => rfl) fun _ =>
      .bind (.call (fun _ => rfl) fun _ => rfl) fun _ => .ite (.bail _) (.pure _))
    (.pure _)) fun _ => .pure _

theorem backupSnapshot_passesOn (fuel : Nat) (dir : BackupDir) :
    PassesOn (backupSnapshot env ds fuel dir) :=
  backupSnapshot_wp env ds fuel dir (fun _ _ => Or.inl) (fun _ h => h.snoc rfl)
    (PassesOn.call (fun _ => rfl) fun _ => rfl) (fun _ _ _ => chunkLoop_passesOn env fuel _)
    (writeSnapshotArchive_passesOn env dir)

theorem Event.callError_of_isLoopStep {e : Event} (he : e.isLoopStep) : e.callError = none := by
  cases e <;> first | rfl | cases he

theorem groupLoop_passesOn (fuel : Nat) (latestOnly : Bool) (st : LoopState)
    (groups : List BackupGroup) (n : Nat) :
    PassesOn (groupLoop env ds fuel latestOnly st groups n) :=
  groupLoop_keeps env ds fuel (backupSnapshot_passesOn env ds fuel)
    (fun _ _ he h => h.snoc (Event.callError_of_isLoopStep he)) (fun _ _ => Or.inl) latestOnly st
    groups n

theorem writeCatalog_passesOn : PassesOn (writeCatalog env) :=
  .bind (.call (fun _ => rfl) fun _ => rfl) fun _ => .bind (.call (fun _ => rfl) fun _ => rfl) fun _ =>
  .ite (.bind (.call (fun _ => rfl) fun _ => rfl) fun _ =>
      .bind (.call (fun _ => rfl) fun _ => rfl) fun _ =>
      .bind (.call (fun _ => rfl) fun _ => rfl) fun _ => .ite (.bail _) (.pure _))
    (.pure _)

theorem finishBackup_passesOn (setup : Setup) (st : LoopState) :
    PassesOn (finishBackup env setup st) :=
  finishBackup_wpE env setup st (fun _ _ => Or.inl) (fun _ => writeCatalog_passesOn env)
    (fun _ _ h => h) (PassesOn.call (fun _ => rfl) fun _ => rfl)
    (PassesOn.call (fun _ => rfl) fun _ => rfl)
    fun _ _ h => h.snoc rfl

theorem backupWorker_passesOn (setup : Setup) (forceMediaSet : Bool) (fuel : Nat) :
    PassesOn (backupWorker env ds setup forceMediaSet fuel) := fun t h =>
  backupWorker_wp env ds setup forceMediaSet fuel (fun _ _ => Or.inl)
    (fun _ _ _ _ => groupLoop_passesOn env ds fuel _ _ _ 0)
    (fun st _ h => finishBackup_passesOn env setup st _ (h.snoc rfl))
    (fun _ t e h => Or.inr ⟨t, _, e, rfl, h, rfl, rfl⟩) t h

end

/-- A trace that ends in `f` and holds `e` outside its last step ends in `e`. -/
theorem eq_snoc_of_not_mem {pre post pre' : Trace} {e f : Event}
    (h : pre ++ e :: post = pre' ++ [f]) (he : e ∉ pre') : pre = pre' ∧ e = f ∧ post = [] := by
  rcases List.eq_nil_or_concat post with rfl | ⟨post', x, rfl⟩
  · obtain ⟨rfl, hs⟩ := List.append_inj' h rfl
    exact ⟨rfl, List.singleton_inj.1 hs, rfl⟩
  · rw [List.concat_eq_append, ← List.cons_append, ← List.append_assoc] at h
    exact absurd ((List.append_inj' h rfl).1 ▸ List.mem_append_right pre (List.mem_cons_self e _)) he

/-- A job that passes on a failed call, run from the start: a failed call is its last step, and
the job fails with that call's error. -/
theorem PassesOn.failed_call_last {α : Type} {m : Job α} (hm : PassesOn m) {pre post : Trace}
    {e : Event} {s : String} (hT : runTrace m = pre ++ e :: post) (he : e.callError = some s) :
    post = [] ∧ m [] = .error (.msg s) (pre ++ [e]) := by
  have hmem : e ∈ runTrace m := hT ▸ List.mem_append_right pre (List.mem_cons_self e post)
  have h := hm [] (List.forall_mem_nil _)
  unfold wp at h
  unfold runTrace at hT hmem
  split at h
  next hr =>
    rw [hr] at hmem
    exact absurd hmem (h.not_mem he)
  next err t' hr =>
    rw [hr] at hT hmem
    rcases h with h | ⟨pre', f, s', rfl, hpre', hf, rfl⟩
    · exact absurd hmem (h.not_mem he)
    · obtain ⟨rfl, rfl, rfl⟩ := eq_snoc_of_not_mem hT.symm (hpre'.not_mem he)
      exact ⟨rfl, by rw [hr, Option.some_inj.1 (he.symm.trans hf)]⟩

/-- In every run of `backup_worker`, a call that returned `Err`, other than the query of the
used media, is the last step of the run, and the run ends in `Err` with that call's error. -/
theorem failed_call_ends_run (env : Env) (ds : Datastore) (setup : Setup) (forceMediaSet : Bool)
    (fuel : Nat) :
    ∀ pre e post s, runTrace (backupWorker env ds setup forceMediaSet fuel) = pre ++ e :: post →
      e.callError = some s →
      post = [] ∧ backupWorker env ds setup forceMediaSet fuel [] = .error (.msg s) (pre ++ [e]) :=
  fun _ _ _ _ hT he => (backupWorker_passesOn env ds setup forceMediaSet fuel).failed_call_last hT he

/-- Collaborators that load no writable medium. -/
def noMediaEnv : Env := { steadyEnv twoChunks with loadWritableMedia := fun _ => .error "no media" }

theorem failed_load_ends_run :
    ∃ pre e post, runTrace (backupWorker noMediaEnv (vmDatastore [0]) plainSetup false 3) =
        pre ++ e :: post ∧ e.callError = some "no media" ∧
      post = [] ∧
      backupWorker noMediaEnv (vmDatastore [0]) plainSetup false 3 [] =
        .error (.msg "no media") (pre ++ [e]) :=
  have h : runTrace (backupWorker noMediaEnv (vmDatastore [0]) plainSetup false 3) =
      [.containsSnapshot (vmSnapshot 0) false, .backupSnapshot (vmSnapshot 0),
        .spawnChunkReaderThread (.ok ⟨twoChunks, true⟩), .checkAbort (.ok ())] ++
      .loadWritableMedia (.error "no media") :: [] := rfl
  ⟨_, _, _, h, rfl, failed_call_ends_run _ _ _ _ _ _ _ _ _ h rfl⟩

end PbsCloudBackup.Backup
