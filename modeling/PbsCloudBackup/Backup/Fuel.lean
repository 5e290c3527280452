import PbsCloudBackup.Backup.Invariant
import PbsCloudBackup.Backup.ChunkStream
/-!
# The fuel of the chunk loop

The chunk loop is the one loop of `backup_worker` that does not walk a list: it runs while
the reader's peekable iterator shows an `Ok` chunk, and each `append_chunk_archive` call
consumes some of them. The model bounds it by a fuel argument. When every call consumes a
non-empty prefix of the `Ok` chunks (`ConsumesOkPrefix`) and the fuel is above the chunk
count of every reader the collaborators can start (`FuelSuffices`), the fuel cannot be
observed:

* `chunkLoop_fuel_congr`: the chunk loop over a reader's chunks is the same for every such fuel;
* `backupWorker_fuel_congr`: so is every run of `backup_worker`, which passes the fuel down
  to `backup_snapshot` and nowhere else;
* `backupWorker_never_outOfFuel`: and no run ends in `Error.outOfFuel`.

`fuel_unobservable` states the last two together.
-/

namespace PbsCloudBackup.Backup

/-- Fuel above the number of chunks of every reader the chunk reader thread can yield. -/
def FuelSuffices (env : Env) (fuel : Nat) : Prop :=
  ∀ t dir reader, env.spawnChunkReaderThread t dir = .ok reader → reader.chunks.length < fuel

/-- Two sequenced jobs agree on `t` when their first parts do and their continuations agree
after every value and trace the first part can return. -/
theorem bind_congr_at {α β : Type} {x y : Job α} {f g : α → Job β} {t : Trace}
    (hxy : x t = y t) (h : ∀ a t', x t = .ok a t' → f a t' = g a t') :
    (x >>= f) t = (y >>= g) t := by
  show EStateM.bind x f t = EStateM.bind y g t
  unfold EStateM.bind
  rw [← hxy]
  cases hx : x t with
  | ok a t' => exact h a t' hx
  | error e t' => rfl

/-- A call that returned `a` was answered `Ok a`. -/
theorem call_eq_ok {α : Type} {answer : Trace → Except String α}
    {record : Except String α → Event} {t t' : Trace} {a : α}
    (h : call answer record t = .ok a t') : answer t = .ok a := by
  unfold call at h
  split at h <;> cases h
  assumption

/-! ## The same run for every fuel that suffices -/

section Congr

variable (env : Env) (ds : Datastore) (hw : ConsumesOkPrefix env)
include hw

/-- Each iteration of the chunk loop consumes at least one chunk, so two fuels above the
number of chunks run the same loop. -/
theorem chunkLoop_fuel_congr :
    ∀ n m chunks, chunks.length < n → chunks.length < m →
      chunkLoop env n chunks = chunkLoop env m chunks
  | 0, _, _, hn, _ => absurd hn (Nat.not_lt_zero _)
  | _ + 1, 0, _, _, hm => absurd hm (Nat.not_lt_zero _)
  | n + 1, m + 1, chunks, hn, hm => by
    funext t
    simp only [chunkLoop]
    refine bind_congr_at rfl fun _ _ _ => ?_
    rcases chunks with _ | ⟨_ | c, rest⟩
    · rfl
    · rfl
    refine bind_congr_at rfl fun _ _ _ => bind_congr_at rfl fun _ _ _ =>
      bind_congr_at rfl fun p _ happ => ?_
    obtain ⟨k, leom⟩ := p
    have hk := (hw _ _ _ _ _ (call_eq_ok happ)).1
    refine bind_congr_at rfl fun _ t' _ => congrFun (chunkLoop_fuel_congr n m _ ?_ ?_) t'
    all_goals simp only [List.length_drop, List.length_cons] at hn hm ⊢; omega

theorem backupSnapshot_fuel_congr {n m : Nat} (hn : FuelSuffices env n)
    (hm : FuelSuffices env m) : backupSnapshot env ds n = backupSnapshot env ds m := by
  funext dir t
  simp only [backupSnapshot]
  refine bind_congr_at rfl fun _ _ _ => ?_
  rcases ds.lockedReader dir with _ | ⟨⟩
  · rfl
  · exact bind_congr_at rfl fun _ t' hr => bind_congr_at
      (congrFun (chunkLoop_fuel_congr env hw n m _ (hn _ _ _ (call_eq_ok hr))
        (hm _ _ _ (call_eq_ok hr))) t') fun _ _ _ => rfl

end Congr

section Loops

variable (env : Env) (ds : Datastore) {n m : Nat}
  (hsnap : backupSnapshot env ds n = backupSnapshot env ds m)
include hsnap

theorem backupListed_fuel_congr : backupListed env ds n = backupListed env ds m := by
  funext st info
  simp only [backupListed, hsnap]

theorem snapshotLoop_fuel_congr : snapshotLoop env ds n = snapshotLoop env ds m := by
  funext st infos
  induction infos generalizing st with
  | nil => rfl
  | cons info rest ih =>
    funext k
    simp only [snapshotLoop, backupListed_fuel_congr env ds hsnap, ih]

theorem groupLoop_fuel_congr (latestOnly : Bool) :
    groupLoop env ds n latestOnly = groupLoop env ds m latestOnly := by
  funext st groups
  induction groups generalizing st with
  | nil => rfl
  | cons group rest ih =>
    funext k
    simp only [groupLoop, backupGroup, backupListed_fuel_congr env ds hsnap,
      snapshotLoop_fuel_congr env ds hsnap, ih]

end Loops

/-- Every run of `backup_worker` is the same for every fuel above the chunk count of every
reader. -/
theorem backupWorker_fuel_congr (env : Env) (ds : Datastore) (hw : ConsumesOkPrefix env)
    {n m : Nat} (hn : FuelSuffices env n) (hm : FuelSuffices env m) (setup : Setup)
    (forceMediaSet : Bool) :
    backupWorker env ds setup forceMediaSet n = backupWorker env ds setup forceMediaSet m := by
  simp only [backupWorker, groupLoop_fuel_congr env ds (backupSnapshot_fuel_congr env ds hw hn hm)]

/-! ## No run runs out of fuel -/

section Never

variable (env : Env) (ds : Datastore)

/-- A recorded call fails with its own error. -/
theorem call_never_outOfFuel {α : Type} {answer : Trace → Except String α}
    {record : Except String α → Event} :
    KeepsE (fun _ => True) (fun e _ => e ≠ .outOfFuel) (call answer record) :=
  KeepsE.call (fun _ _ _ => trivial) fun _ _ _ => nofun

theorem backupSnapshot_never_outOfFuel (hw : ConsumesOkPrefix env) {fuel : Nat}
    (hfuel : FuelSuffices env fuel) (dir : BackupDir) :
    KeepsE (fun _ => True) (fun e _ => e ≠ .outOfFuel) (backupSnapshot env ds fuel dir) :=
  backupSnapshot_wp env ds fuel dir (fun _ _ _ => nofun) (fun _ _ => trivial) call_never_outOfFuel
    (fun _ _ hr t _ => wp_mono (chunkLoop_streams env hw fuel _ t (hfuel _ _ _ hr))
      (fun _ _ _ => trivial) fun _ _ ⟨_, _, he, _⟩ => he)
    (fun t _ => wp_mono (writeSnapshotArchive_noChunk env dir t) (fun _ _ _ => trivial)
      fun _ _ h => h.1)

theorem writeCatalog_never_outOfFuel :
    KeepsE (fun _ => True) (fun e _ => e ≠ .outOfFuel) (writeCatalog env) :=
  .bind call_never_outOfFuel fun _ => .bind call_never_outOfFuel fun _ =>
  .ite (.bind call_never_outOfFuel fun _ => .bind call_never_outOfFuel fun _ =>
      .bind call_never_outOfFuel fun _ => .ite (.bail fun _ _ => nofun) (.pure _))
    (.pure _)

/-- With enough fuel no run of `backup_worker` ends in `Error.outOfFuel`. -/
theorem backupWorker_never_outOfFuel (hw : ConsumesOkPrefix env) {fuel : Nat}
    (hfuel : FuelSuffices env fuel) (setup : Setup) (forceMediaSet : Bool) :
    KeepsE (fun _ => True) (fun e _ => e ≠ .outOfFuel)
      (backupWorker env ds setup forceMediaSet fuel) := fun t h =>
  backupWorker_wp env ds setup forceMediaSet fuel (fun _ _ _ => nofun)
    (fun _ _ _ _ => groupLoop_keeps env ds fuel (backupSnapshot_never_outOfFuel env ds hw hfuel)
      (fun _ _ _ _ => trivial) (fun _ _ _ => nofun) _ _ _ 0)
    (fun st _ _ => finishBackup_wpE env setup st (fun _ _ _ => nofun)
      (fun _ => writeCatalog_never_outOfFuel env) (fun _ _ _ => trivial) call_never_outOfFuel
      call_never_outOfFuel (fun _ _ _ => trivial) _ trivial)
    (fun _ _ _ _ => nofun) t h

end Never

/-- When every `append_chunk_archive` call consumes a non-empty prefix of the `Ok` chunks,
the fuel of the model cannot be observed above the chunk count of every reader: two such
fuels give the same run of `backup_worker`, and no such run ends in `Error.outOfFuel`. -/
theorem fuel_unobservable (env : Env) (ds : Datastore) (setup : Setup) (forceMediaSet : Bool)
    (hw : ConsumesOkPrefix env) {n m : Nat} (hn : FuelSuffices env n) (hm : FuelSuffices env m) :
    backupWorker env ds setup forceMediaSet n = backupWorker env ds setup forceMediaSet m ∧
      ∀ e t, backupWorker env ds setup forceMediaSet n [] = .error e t → e ≠ .outOfFuel := by
  refine ⟨backupWorker_fuel_congr env ds hw hn hm setup forceMediaSet, fun e t hr => ?_⟩
  have h := backupWorker_never_outOfFuel env ds hw hn setup forceMediaSet [] trivial
  rwa [wp, hr] at h

/-- Every reader of the steady collaborators on two chunks has two chunks. -/
theorem steadyEnv_fuelSuffices (fuel : Nat) (h : 2 < fuel) :
    FuelSuffices (steadyEnv twoChunks) fuel :=
  fun _ _ _ hr => (Except.ok.inj hr) ▸ h

theorem fuel_unobservable_three_five :
    ConsumesOkPrefix (steadyEnv twoChunks) ∧ FuelSuffices (steadyEnv twoChunks) 3 ∧
      FuelSuffices (steadyEnv twoChunks) 5 ∧
      backupWorker (steadyEnv twoChunks) (vmDatastore [0, 1]) plainSetup false 3 =
        backupWorker (steadyEnv twoChunks) (vmDatastore [0, 1]) plainSetup false 5 ∧
      ∀ e t, backupWorker (steadyEnv twoChunks) (vmDatastore [0, 1]) plainSetup false 3 [] =
        .error e t → e ≠ .outOfFuel :=
  have hw := steadyEnv_consumesOkPrefix twoChunks
  have h3 := steadyEnv_fuelSuffices 3 (by decide)
  have h5 := steadyEnv_fuelSuffices 5 (by decide)
  ⟨hw, h3, h5, fuel_unobservable _ _ _ _ hw h3 h5⟩

end PbsCloudBackup.Backup
