import PbsCloudBackup.Jobs
import Mathlib.Data.List.Sort
import Mathlib.Data.List.Lex
import Mathlib.Data.Prod.Lex
import Mathlib.Data.Char
/-!
# The backup job: data, collaborators and the job monad

`backup_worker` and `backup_snapshot` of `api2/cloud/backup.rs` read a datastore and call
the worker task and a `PoolWriter`. A run is a computation in `Job`, the error-and-state
monad whose state is the trace of the run: every call to the worker task or the pool
writer is appended to it with the answer it got, and so are the progress lines, the
pushes to the job summary, and the entry into and return from `backup_snapshot`. The
state survives an `Err`, as the trace of a failed run does.

The answers come from an `Env`, whose recorded calls see the whole trace before them, so a
statement over every `Env` holds for every behaviour of the collaborators. The datastore
is data: its listings, which can fail, and whether each snapshot can be opened.

`wp` reads a job's outcome as a predicate on the trace it starts from; its simp lemmas
push it through the combinators, so that proofs about a run follow the code's structure.
-/

namespace PbsCloudBackup.Backup

open Jobs

/-! ## Datastore content -/

/-- `BackupNamespace`: the path of namespace names below the root, which is the empty
path. -/
structure BackupNamespace where
  path : List (List Char)
  deriving DecidableEq, Repr

namespace BackupNamespace

/-- `BackupNamespace::default()`, the root namespace. -/
def root : BackupNamespace := ⟨[]⟩

/-- `BackupNamespace::is_root`. -/
def isRoot (ns : BackupNamespace) : Bool := ns.path.isEmpty

end BackupNamespace

/-- Modelled from the spec: `pbs_api_types::BackupGroup` (not in `src/`), the identity of
a group: a backup type and an id. -/
structure Api.BackupGroup where
  ty : BackupType
  id : List Char
  deriving DecidableEq, Repr

/-- Modelled from the spec: `Ord for BackupGroup` orders groups "by group identity (type
then id)". -/
def Api.BackupGroup.key (g : Api.BackupGroup) : Lex (ℕ × List Char) := toLex (g.ty.index, g.id)

/-- `pbs_datastore::BackupGroup`: a group identity inside a namespace. -/
structure BackupGroup where
  ns : BackupNamespace
  group : Api.BackupGroup
  deriving DecidableEq, Repr

/-- `pbs_datastore::BackupDir`: the snapshot of a group taken at `time`. -/
structure BackupDir where
  ns : BackupNamespace
  group : Api.BackupGroup
  time : Int
  deriving DecidableEq, Repr

/-- `BackupInfo`: a listed snapshot and whether `is_finished` holds of it. -/
structure BackupInfo where
  backupDir : BackupDir
  finished : Bool
  deriving DecidableEq, Repr

/-- The datastore as the job reads it: the namespaces `recursive_iter_backup_ns_ok`
yields, the groups of each namespace, the snapshots of each group, whether
`locked_reader` opens a snapshot, and whether its directory still exists. -/
structure Datastore where
  name : String
  recursiveIterBackupNsOk : BackupNamespace → Option Nat → Except String (List BackupNamespace)
  listBackupGroups : BackupNamespace → Except String (List BackupGroup)
  listBackups : BackupGroup → Except String (List BackupInfo)
  lockedReader : BackupDir → Except String Unit
  fullPathExists : BackupDir → Bool

/-- The fields of `TapeBackupJobSetup` that `backup_worker` reads. -/
structure Setup where
  drive : String
  ns : Option BackupNamespace
  maxDepth : Option Nat
  groupFilter : Option (List GroupFilter)
  latestOnly : Option Bool
  exportMediaSet : Option Bool
  ejectMedia : Option Bool

/-- `StoreProgress`: the groups done, the snapshots of the current group done and listed,
and the groups in total. -/
structure StoreProgress where
  doneGroups : Nat
  doneSnapshots : Nat
  groupSnapshots : Nat
  totalGroups : Nat
  deriving DecidableEq, Repr

/-- Modelled from the spec: `StoreProgress::new` counts nothing done yet. -/
def StoreProgress.new (totalGroups : Nat) : StoreProgress := ⟨0, 0, 0, totalGroups⟩

/-! ## The pool writer and the worker task -/

/-- A chunk the reader produced, named by its digest. -/
structure Chunk where
  digest : Nat
  deriving DecidableEq, Repr

/-- The chunk reader thread of one snapshot: the chunk read results its iterator yields,
in order, and whether joining the thread succeeds. -/
structure ChunkReader where
  chunks : List (Except String Chunk)
  joinOk : Bool

/-- The identity of a medium. -/
structure Uuid where
  id : Nat
  deriving DecidableEq, Repr

/-- `SnapshotBackupResult`. -/
inductive SnapshotBackupResult
  | success
  | error
  | ignored
  deriving DecidableEq, Repr

/-- One step of a run: a call to the worker task or the pool writer with the answer it
got, a progress line, a push to `summary.snapshot_list`, or the entry into and the `Ok`
return of `backup_snapshot`. -/
inductive Event
  | checkAbort (r : Except String Unit)
  | containsSnapshot (dir : BackupDir) (r : Bool)
  | backupSnapshot (dir : BackupDir)
  | spawnChunkReaderThread (r : Except String ChunkReader)
  | loadWritableMedia (r : Except String Uuid)
  | appendChunkArchive (r : Except String (Nat × Bool))
  | setMediaStatusFull (uuid : Uuid) (r : Except String Unit)
  | appendSnapshotArchive (r : Except String Bool)
  | snapshotResult (r : SnapshotBackupResult)
  | summaryPush (relPath : String)
  | percentageDone (progress : StoreProgress)
  | commit (r : Except String Unit)
  | appendCatalogArchive (r : Except String Bool)
  | exportMediaSet (r : Except String Unit)
  | ejectMedia (r : Except String Unit)
  | getUsedMediaLabels (r : Except String (List String))

/-- The steps of a run so far, oldest first. -/
abbrev Trace := List Event

/-- The collaborators of the job. The drive configuration, the changer, the media pool
and the pool writer's construction answer once, at the start; every recorded call answers
from the trace before it; `applyFilters` and `printNsAndSnapshot` are the
`pbs-api-types` functions of those names, which are not in `src/`. -/
structure Env where
  driveConfig : Except String Unit
  mediaChanger : String → Except String (Option String)
  onlineMediaLabelTexts : String → Except String Unit
  inventoryLoad : Except String Unit
  updateChangerOnlineStatus : String → Except String Unit
  mediaPoolWithConfig : Option String → Except String Unit
  poolWriterNew : Bool → Bool → Except String Unit
  checkAbort : Trace → Except String Unit
  containsSnapshot : Trace → BackupDir → Bool
  spawnChunkReaderThread : Trace → BackupDir → Except String ChunkReader
  loadWritableMedia : Trace → Except String Uuid
  appendChunkArchive : Trace → List (Except String Chunk) → Except String (Nat × Bool)
  setMediaStatusFull : Trace → Uuid → Except String Unit
  appendSnapshotArchive : Trace → BackupDir → Except String Bool
  commit : Trace → Except String Unit
  appendCatalogArchive : Trace → Except String Bool
  exportMediaSet : Trace → Except String Unit
  ejectMedia : Trace → Except String Unit
  getUsedMediaLabels : Trace → Except String (List String)
  applyFilters : Api.BackupGroup → List GroupFilter → Bool
  printNsAndSnapshot : BackupDir → String

/-! ## The job monad -/

/-- How a run ends with `Err`: an `anyhow::Error` with its text, or, in the model only,
out of fuel, which stands for a chunk loop that has not ended. -/
inductive Error
  | msg (text : String)
  | outOfFuel
  deriving DecidableEq, Repr

/-- A computation of the job: from the trace so far it ends in a value or an error, with
the trace extended by what it did. -/
abbrev Job := EStateM Error Trace

variable {α β : Type}

/-- A call whose answer on the trace `t` is `answer t`, recorded as `record` of the
answer; an `Err` is propagated, as `?` does. -/
def call (answer : Trace → Except String α) (record : Except String α → Event) : Job α :=
  fun t =>
    match answer t with
    | .ok a => .ok a (t ++ [record (.ok a)])
    | .error e => .error (.msg e) (t ++ [record (.error e)])

/-- A recorded call that returns its answer as a value, `Err` included. -/
def ask (answer : Trace → α) (record : α → Event) : Job α := fun t =>
  .ok (answer t) (t ++ [record (answer t)])

/-- Record a step that is not a call. -/
def emit (e : Event) : Job Unit := fun t => .ok () (t ++ [e])

/-- A call that is not recorded; an `Err` is propagated. -/
def lift (r : Except String α) : Job α := fun t =>
  match r with
  | .ok a => .ok a t
  | .error e => .error (.msg e) t

theorem lift_ok_bind (a : α) (f : α → Job β) : lift (.ok a) >>= f = f a := rfl

/-- `bail!`. -/
def bail (text : String) : Job α := fun t => .error (.msg text) t

/-- The trace `m` leaves when run from the start, whether it returns or fails. -/
def runTrace (m : Job α) : Trace :=
  match m [] with
  | .ok _ t => t
  | .error _ t => t

/-- The weakest precondition of `m` on the trace it starts from, for `Q` on `Ok` and `E`
on `Err`. -/
def wp (m : Job α) (Q : α → Trace → Prop) (E : Error → Trace → Prop) (t : Trace) : Prop :=
  match m t with
  | .ok a t' => Q a t'
  | .error e t' => E e t'

section Wp

variable {Q : β → Trace → Prop} {E : Error → Trace → Prop} {t : Trace}

@[simp] theorem wp_pure (b : β) : wp (pure b) Q E t = Q b t := rfl

@[simp] theorem wp_bind (x : Job α) (f : α → Job β) :
    wp (x >>= f) Q E t = wp x (fun a => wp (f a) Q E) E t := by
  simp only [wp, bind, EStateM.bind]
  cases x t <;> rfl

@[simp] theorem wp_map (f : α → β) (x : Job α) :
    wp (f <$> x) Q E t = wp x (fun a => Q (f a)) E t := by
  simp only [wp, Functor.map, EStateM.map]
  cases x t <;> rfl

@[simp] theorem wp_throw (e : Error) : wp (throw e : Job β) Q E t = E e t := rfl

@[simp] theorem wp_bail (text : String) : wp (bail text : Job β) Q E t = E (.msg text) t := rfl

@[simp] theorem wp_emit {Q : Unit → Trace → Prop} (e : Event) :
    wp (emit e) Q E t = Q () (t ++ [e]) := rfl

@[simp] theorem wp_ask (answer : Trace → β) (record : β → Event) :
    wp (ask answer record) Q E t = Q (answer t) (t ++ [record (answer t)]) := rfl

@[simp] theorem wp_call (answer : Trace → Except String β) (record : Except String β → Event) :
    wp (call answer record) Q E t =
      match answer t with
      | .ok b => Q b (t ++ [record (.ok b)])
      | .error e => E (.msg e) (t ++ [record (.error e)]) := by
  simp only [wp, call]
  cases answer t <;> rfl

@[simp] theorem wp_lift (r : Except String β) :
    wp (lift r) Q E t =
      match r with
      | .ok b => Q b t
      | .error e => E (.msg e) t := by
  cases r <;> rfl

theorem wp_ite (c : Prop) [Decidable c] (x y : Job β) :
    wp (if c then x else y) Q E t = if c then wp x Q E t else wp y Q E t := by
  split <;> rfl

/-- A property that every outcome of `m` leaves holds of its trace. -/
theorem runTrace_of_wp {m : Job β} (R : Trace → Prop) (h : wp m (fun _ => R) (fun _ => R) []) :
    R (runTrace m) := by
  unfold wp at h
  unfold runTrace
  split <;> simp_all

theorem wp_mono {m : Job β} {Q' : β → Trace → Prop} {E' : Error → Trace → Prop}
    (h : wp m Q E t) (hq : ∀ b t', Q b t' → Q' b t') (he : ∀ e t', E e t' → E' e t') :
    wp m Q' E' t := by
  revert h
  unfold wp
  split
  exacts [hq _ _, he _ _]

theorem wp_true (m : Job β) (t : Trace) : wp m (fun _ _ => True) (fun _ _ => True) t := by
  unfold wp
  split <;> trivial

theorem wp_and {m : Job β} {Q' : β → Trace → Prop} {E' : Error → Trace → Prop}
    (h : wp m Q E t) (h' : wp m Q' E' t) :
    wp m (fun b t' => Q b t' ∧ Q' b t') (fun e t' => E e t' ∧ E' e t') t := by
  revert h h'
  unfold wp
  split
  exacts [And.intro, And.intro]

end Wp

/-! ## Calls of the worker task and the pool writer -/

section Calls

variable (env : Env)

/-- `worker.check_abort()?`. -/
def checkAbort : Job Unit := call env.checkAbort .checkAbort

/-- `pool_writer.load_writable_media(worker)?`. -/
def loadWritableMedia : Job Uuid := call env.loadWritableMedia .loadWritableMedia

/-- `pool_writer.append_chunk_archive(worker, &mut chunk_iter, ..)?`: how many chunks of
the iterator it consumed, and whether it reached the logical end of the medium. -/
def appendChunkArchive (chunks : List (Except String Chunk)) : Job (Nat × Bool) :=
  call (env.appendChunkArchive · chunks) .appendChunkArchive

/-- `pool_writer.set_media_status_full(&uuid)?`. -/
def setMediaStatusFull (uuid : Uuid) : Job Unit :=
  call (env.setMediaStatusFull · uuid) (.setMediaStatusFull uuid)

/-- `pool_writer.append_snapshot_archive(worker, &snapshot_reader)?`: whether the archive
was written whole. -/
def appendSnapshotArchive (dir : BackupDir) : Job Bool :=
  call (env.appendSnapshotArchive · dir) .appendSnapshotArchive

/-- `pool_writer.append_catalog_archive(worker)?`: whether the catalog was written whole. -/
def appendCatalogArchive : Job Bool := call env.appendCatalogArchive .appendCatalogArchive

end Calls

/-- `sort_unstable_by` on a key, as the insertion sort Rust runs on slices of at most 20
elements, which keeps elements of equal key in their input order. On longer slices Rust sorts
with a quicksort that may reorder equal keys, and the order of equal keys there is not
modelled: the theorems about runs use only that the result is a permutation of the input
sorted by key (`sortUnstableBy_perm`, `sortUnstableBy_sorted`). -/
def sortUnstableBy {γ : Type} [LinearOrder γ] (key : α → γ) (l : List α) : List α :=
  l.insertionSort fun a b => key a ≤ key b

theorem sortUnstableBy_perm {γ : Type} [LinearOrder γ] (key : α → γ) (l : List α) :
    (sortUnstableBy key l).Perm l :=
  List.perm_insertionSort _ _

theorem sortUnstableBy_sorted {γ : Type} [LinearOrder γ] (key : α → γ) (l : List α) :
    (sortUnstableBy key l).Sorted fun a b => key a ≤ key b :=
  haveI : IsTotal α fun a b => key a ≤ key b := ⟨fun _ _ => le_total _ _⟩
  haveI : IsTrans α fun a b => key a ≤ key b := ⟨fun _ _ _ => le_trans⟩
  List.sorted_insertionSort _ _

end PbsCloudBackup.Backup
