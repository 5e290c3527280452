import PbsCloudBackup.Backup.Worker
import PbsCloudBackup.Backup.Trace
/-!
# Invariants of whole runs

`Keeps P Q m` says that the job `m`, started on a trace satisfying `P`, returns on a trace
satisfying `P` and fails on one satisfying `Q`. Sequencing keeps `P` when its parts do, so a
property of the pool writer's calls, proved once of `backup_snapshot` and once of the
catalog, holds of every run of `backup_worker` as soon as the steps the worker records
itself keep it (`backupWorker_keeps`). A run is the group loop over the selected groups, then
the commit and the end (`backupWorker_wp`, `backupWorker_phases`), and `OnlyAppends` says which
steps each part records. A property
that reads the result `backup_snapshot` returns is proved of a whole listed snapshot instead,
and the `_of_listed` forms of the loop lemmas lift it to the run.
-/

namespace PbsCloudBackup.Backup

/-! ## Who records which step -/

namespace Event

/-- A call `backup_snapshot` makes: the reader thread, and the worker task's and the pool
writer's calls of the chunk loop and the snapshot archive. -/
def isSnapshotCall : Event → Bool
  | spawnChunkReaderThread _ | checkAbort _ | loadWritableMedia _
  | appendChunkArchive _ | setMediaStatusFull _ _ | appendSnapshotArchive _ => true
  | _ => false

/-- A call of the chunk loop: the worker task's abort check and the pool writer's calls. -/
def isChunkLoopCall : Event → Bool
  | checkAbort _ | loadWritableMedia _ | appendChunkArchive _ | setMediaStatusFull _ _ => true
  | _ => false

theorem isSnapshotCall_of_isChunkLoopCall {e : Event} (h : e.isChunkLoopCall) :
    e.isSnapshotCall := by
  cases e <;> first | rfl | cases h

/-- A step of `backup_snapshot`: its entry or one of its calls. -/
def isSnapshotStep (e : Event) : Bool :=
  (match e with
    | backupSnapshot _ => true
    | _ => false) || e.isSnapshotCall

/-- A step of the catalog part of `backup_worker`. -/
def isCatalogStep : Event → Bool
  | loadWritableMedia _ | setMediaStatusFull _ _ | appendCatalogArchive _ => true
  | _ => false

/-- A step the group loop of `backup_worker` records itself, outside `backup_snapshot`. -/
def isLoopStep : Event → Bool
  | containsSnapshot _ _ | snapshotResult _ | summaryPush _ | percentageDone _ => true
  | _ => false

/-- A step of the end of `backup_worker` after the commit, outside the catalog. -/
def isFinishStep : Event → Bool
  | exportMediaSet _ | ejectMedia _ | getUsedMediaLabels _ => true
  | _ => false

end Event

/-! ## Jobs that keep a property of the trace -/

/-- `m` keeps `P` and fails as `E` says: started on a trace satisfying `P`, it returns on a
trace satisfying `P` and fails with `e` on a trace `t'` such that `E e t'`. -/
def KeepsE {α : Type} (P : Trace → Prop) (E : Error → Trace → Prop) (m : Job α) : Prop :=
  ∀ t, P t → wp m (fun _ => P) E t

namespace KeepsE

variable {α β : Type} {P : Trace → Prop} {E : Error → Trace → Prop}

theorem pure (a : α) : KeepsE P E (Pure.pure a : Job α) := fun _ h => h

theorem bind {x : Job α} {f : α → Job β} (hx : KeepsE P E x) (hf : ∀ a, KeepsE P E (f a)) :
    KeepsE P E (x >>= f) := fun t h => by
  rw [wp_bind]
  exact wp_mono (hx t h) (fun a t' h' => hf a t' h') (fun _ _ h => h)

theorem ite {c : Prop} [Decidable c] {x y : Job α} (hx : KeepsE P E x) (hy : KeepsE P E y) :
    KeepsE P E (if c then x else y) := by
  split <;> assumption

theorem emit {e : Event} (he : ∀ t, P t → P (t ++ [e])) : KeepsE P E (Backup.emit e) := he

theorem ask {answer : Trace → α} {record : α → Event} (hr : ∀ t a, P t → P (t ++ [record a])) :
    KeepsE P E (Backup.ask answer record) := fun _ h => hr _ _ h

theorem call {answer : Trace → Except String α} {record : Except String α → Event}
    (hok : ∀ t a, P t → P (t ++ [record (.ok a)]))
    (herr : ∀ t e, P t → E (.msg e) (t ++ [record (.error e)])) :
    KeepsE P E (Backup.call answer record) := fun t h => by
  rw [wp_call]
  split
  · exact hok _ _ h
  · exact herr _ _ h

theorem lift (hlift : ∀ t e, P t → E (.msg e) t) (r : Except String α) :
    KeepsE P E (Backup.lift r) := fun t h => by
  cases r
  · exact hlift t _ h
  · exact h

theorem bail {text : String} (hbail : ∀ t, P t → E (.msg text) t) :
    KeepsE P E (Backup.bail text : Job α) := hbail

theorem throw {e : Error} (hthrow : ∀ t, P t → E e t) :
    KeepsE P E (MonadExcept.throw e : Job α) := hthrow

end KeepsE

/-- `m` keeps `P` and fails into `Q`: started on a trace satisfying `P`, it returns on a
trace satisfying `P` and fails on one satisfying `Q`. -/
def Keeps {α : Type} (P Q : Trace → Prop) (m : Job α) : Prop :=
  ∀ t, P t → wp m (fun _ => P) (fun _ => Q) t

namespace Keeps

variable {α β : Type} {P Q : Trace → Prop}

theorem pure (a : α) : Keeps P Q (Pure.pure a : Job α) := KeepsE.pure a

theorem bind {x : Job α} {f : α → Job β} (hx : Keeps P Q x) (hf : ∀ a, Keeps P Q (f a)) :
    Keeps P Q (x >>= f) :=
  KeepsE.bind hx hf

theorem ite {c : Prop} [Decidable c] {x y : Job α} (hx : Keeps P Q x) (hy : Keeps P Q y) :
    Keeps P Q (if c then x else y) :=
  KeepsE.ite hx hy

theorem emit {e : Event} (he : ∀ t, P t → P (t ++ [e])) : Keeps P Q (Backup.emit e) := he

theorem ask {answer : Trace → α} {record : α → Event} (hr : ∀ t a, P t → P (t ++ [record a])) :
    Keeps P Q (Backup.ask answer record) := KeepsE.ask hr

theorem call {answer : Trace → Except String α} {record : Except String α → Event}
    (hok : ∀ t a, P t → P (t ++ [record (.ok a)]))
    (herr : ∀ t e, P t → Q (t ++ [record (.error e)])) :
    Keeps P Q (Backup.call answer record) :=
  KeepsE.call hok herr

/-- A call whose every answer keeps `P`. -/
theorem call' {answer : Trace → Except String α} {record : Except String α → Event}
    (hr : ∀ t r, P t → P (t ++ [record r])) : Keeps P P (Backup.call answer record) :=
  .call (fun _ _ => hr _ _) (fun _ _ => hr _ _)

section Fail

variable (hPQ : ∀ t, P t → Q t)
include hPQ

theorem lift (r : Except String α) : Keeps P Q (Backup.lift r) :=
  KeepsE.lift (fun t _ => hPQ t) r

theorem bail (text : String) : Keeps P Q (Backup.bail text : Job α) := hPQ

theorem throw (e : Error) : Keeps P Q (MonadExcept.throw e : Job α) := hPQ

end Fail

/-- A job that keeps `P` and fails into `Q`, run from the empty trace, leaves a trace
satisfying `P` or `Q`. -/
theorem runTrace {m : Job α} (hm : Keeps P Q m) (h0 : P []) :
    P (Backup.runTrace m) ∨ Q (Backup.runTrace m) :=
  runTrace_of_wp (fun T => P T ∨ Q T) (wp_mono (hm [] h0) (fun _ _ => .inl) (fun _ _ => .inr))

end Keeps

/-- `t` is `t₀` followed by steps that satisfy `c`. -/
def Appends (c : Event → Bool) (t₀ t : Trace) : Prop := ∃ Δ, t = t₀ ++ Δ ∧ ∀ e ∈ Δ, c e

/-- `m` records only steps that satisfy `c`. -/
def OnlyAppends {α : Type} (c : Event → Bool) (m : Job α) : Prop :=
  ∀ t₀, Keeps (Appends c t₀) (Appends c t₀) m

section OnlyAppends

variable {α : Type} {c : Event → Bool} {t₀ t : Trace}

theorem Appends.refl : Appends c t t := ⟨[], by simp, by simp⟩

theorem Appends.snoc {e : Event} (h : Appends c t₀ t) (he : c e) : Appends c t₀ (t ++ [e]) := by
  obtain ⟨Δ, rfl, hΔ⟩ := h
  exact ⟨Δ ++ [e], by simp, List.forall_mem_append.2 ⟨hΔ, List.forall_mem_singleton.2 he⟩⟩

namespace OnlyAppends

theorem pure (a : α) : OnlyAppends c (Pure.pure a : Job α) := fun _ => .pure a

theorem bind {β : Type} {x : Job α} {f : α → Job β} (hx : OnlyAppends c x)
    (hf : ∀ a, OnlyAppends c (f a)) : OnlyAppends c (x >>= f) :=
  fun t₀ => .bind (hx t₀) fun a => hf a t₀

theorem ite {p : Prop} [Decidable p] {x y : Job α} (hx : OnlyAppends c x) (hy : OnlyAppends c y) :
    OnlyAppends c (if p then x else y) := fun t₀ => .ite (hx t₀) (hy t₀)

theorem bail (text : String) : OnlyAppends c (Backup.bail text : Job α) :=
  fun _ => .bail (fun _ h => h) text

theorem throw (e : Error) : OnlyAppends c (MonadExcept.throw e : Job α) :=
  fun _ => .throw (fun _ h => h) e

theorem emit {e : Event} (he : c e) : OnlyAppends c (Backup.emit e) :=
  fun _ => .emit fun _ h => h.snoc he

theorem call {answer : Trace → Except String α} {record : Except String α → Event}
    (hr : ∀ r, c (record r)) : OnlyAppends c (Backup.call answer record) :=
  fun _ => .call' fun _ r h => h.snoc (hr r)

theorem ask {answer : Trace → α} {record : α → Event} (hr : ∀ a, c (record a)) :
    OnlyAppends c (Backup.ask answer record) :=
  fun _ => .ask fun _ a h => h.snoc (hr a)

end OnlyAppends

/-- A property that every step satisfying `c` keeps is kept by a job that records only such
steps. -/
theorem OnlyAppends.keeps {P : Trace → Prop} {m : Job α} (hm : OnlyAppends c m)
    (hP : ∀ t e, c e → P t → P (t ++ [e])) : Keeps P P m := by
  have hΔ : ∀ Δ t, P t → (∀ e ∈ Δ, c e) → P (t ++ Δ) := by
    intro Δ
    induction Δ with
    | nil => simp
    | cons e Δ ih =>
      intro t h he
      simpa using ih (t ++ [e]) (hP t e (he e (by simp)) h) fun x hx => he x (by simp [hx])
  intro t h
  refine wp_mono (hm t t Appends.refl) ?_ ?_ <;>
    exact fun _ _ ⟨Δ, hΔeq, hc⟩ => hΔeq ▸ hΔ Δ t h hc

theorem OnlyAppends.mono {c' : Event → Bool} {m : Job α} (hm : OnlyAppends c m)
    (hc : ∀ e, c e → c' e) : OnlyAppends c' m :=
  fun _ => hm.keeps fun _ e he h => h.snoc (hc e he)

end OnlyAppends

section Steps

variable (env : Env) (ds : Datastore)

theorem chunkLoop_only :
    ∀ fuel chunks, OnlyAppends Event.isChunkLoopCall (chunkLoop env fuel chunks)
  | 0, _ => .throw _
  | fuel + 1, chunks => .bind (.call fun _ => rfl) fun _ => by
    split
    · exact .pure _
    · exact .bail _
    · exact .bind (.call fun _ => rfl) fun _ => .bind (.call fun _ => rfl) fun _ =>
        .bind (.call fun _ => rfl) fun ⟨_, _⟩ =>
        .bind (.ite (.call fun _ => rfl) (.pure _)) fun _ => chunkLoop_only fuel _

theorem writeSnapshotArchive_only (dir : BackupDir) :
    OnlyAppends Event.isSnapshotCall (writeSnapshotArchive env dir) :=
  .bind (.call fun _ => rfl) fun _ => .bind (.call fun _ => rfl) fun _ =>
  .bind (.call fun _ => rfl) fun _ => .bind (.call fun _ => rfl) fun _ =>
  .bind (.ite (.bind (.call fun _ => rfl) fun _ => .bind (.call fun _ => rfl) fun _ =>
      .bind (.call fun _ => rfl) fun _ => .bind (.call fun _ => rfl) fun _ =>
      .ite (.bail _) (.pure _))
    (.pure _)) fun _ => .pure _

/-- `backup_snapshot` entered on a trace satisfying `P₀` returns into `P` and fails as `E`
says when its entry leads from `P₀` into `P`, the reader thread, the chunk loop over the
chunks of every reader the thread can yield and the snapshot archive keep `P` and fail as `E`
says, and so does a failed join. -/
theorem backupSnapshot_wp {P₀ P : Trace → Prop} {E : Error → Trace → Prop} (fuel : Nat)
    (dir : BackupDir) (hmsg : ∀ t s, P t → E (.msg s) t)
    (hentry : ∀ t, P₀ t → P (t ++ [.backupSnapshot dir]))
    (hspawn : KeepsE P E (call (env.spawnChunkReaderThread · dir) .spawnChunkReaderThread))
    (hchunk : ∀ t reader, env.spawnChunkReaderThread t dir = .ok reader →
      KeepsE P E (chunkLoop env fuel reader.chunks))
    (hwrite : KeepsE P E (writeSnapshotArchive env dir)) (t : Trace) (h : P₀ t) :
    wp (backupSnapshot env ds fuel dir) (fun _ => P) E t := by
  simp only [backupSnapshot, wp_bind, wp_emit]
  split
  · exact hentry t h
  · have hs := hspawn _ (hentry t h)
    rw [wp_call] at hs
    rw [wp_bind, wp_call]
    split
    next reader hr =>
      simp only [hr] at hs
      exact (KeepsE.bind (hchunk _ _ hr) fun _ =>
        .bind (.ite (.bail (hmsg · _)) (.pure _)) fun _ => hwrite) _ hs
    next hr => simpa only [hr] using hs

theorem backupSnapshot_keeps {P Q : Trace → Prop} (hPQ : ∀ t, P t → Q t) (fuel : Nat)
    (dir : BackupDir) (hentry : ∀ t, P t → P (t ++ [.backupSnapshot dir]))
    (hspawn : Keeps P Q (call (env.spawnChunkReaderThread · dir) .spawnChunkReaderThread))
    (hchunk : ∀ chunks, Keeps P Q (chunkLoop env fuel chunks))
    (hwrite : Keeps P Q (writeSnapshotArchive env dir)) :
    Keeps P Q (backupSnapshot env ds fuel dir) :=
  backupSnapshot_wp env ds fuel dir (fun t _ => hPQ t) hentry hspawn (fun _ _ _ => hchunk _) hwrite

/-- `backup_snapshot` records its entry, then its own calls only. -/
theorem backupSnapshot_entry (fuel : Nat) (dir : BackupDir) (t : Trace) :
    wp (backupSnapshot env ds fuel dir)
      (fun _ => Appends Event.isSnapshotCall (t ++ [.backupSnapshot dir]))
      (fun _ => Appends Event.isSnapshotCall (t ++ [.backupSnapshot dir])) t :=
  backupSnapshot_wp env ds fuel dir (fun _ _ h => h) (fun _ h => h ▸ Appends.refl)
    (OnlyAppends.call (fun _ => rfl) _)
    (fun _ _ _ => (chunkLoop_only env fuel _).mono (fun _ => Event.isSnapshotCall_of_isChunkLoopCall) _)
    (writeSnapshotArchive_only env dir _) t rfl

/-- `backup_snapshot` records its own steps only. -/
theorem backupSnapshot_only (fuel : Nat) (dir : BackupDir) :
    OnlyAppends Event.isSnapshotStep (backupSnapshot env ds fuel dir) := fun t₀ =>
  have hcall : ∀ e : Event, e.isSnapshotCall → e.isSnapshotStep := fun _ h =>
    Bool.or_eq_true_iff.2 (.inr h)
  backupSnapshot_keeps env ds (fun _ h => h) fuel dir (fun _ h => h.snoc rfl)
    ((OnlyAppends.call (fun _ => rfl)).mono hcall t₀)
    (fun _ => (chunkLoop_only env fuel _).mono
      (fun e h => hcall e (Event.isSnapshotCall_of_isChunkLoopCall h)) t₀)
    ((writeSnapshotArchive_only env dir).mono hcall t₀)

/-- The catalog part records catalog steps only. -/
theorem writeCatalog_only : OnlyAppends Event.isCatalogStep (writeCatalog env) :=
  .bind (.call fun _ => rfl) fun _ => .bind (.call fun _ => rfl) fun _ =>
  .ite (.bind (.call fun _ => rfl) fun _ => .bind (.call fun _ => rfl) fun _ =>
      .bind (.call fun _ => rfl) fun _ => .ite (.bail _) (.pure _))
    (.pure _)

theorem updateMediaOnlineStatus_keeps {P : Trace → Prop} {E : Error → Trace → Prop}
    (hmsg : ∀ t s, P t → E (.msg s) t) (drive : String) :
    KeepsE P E (updateMediaOnlineStatus env drive) := by
  refine .bind (.lift hmsg _) fun _ => ?_
  split
  · exact .bind (.lift hmsg _) fun _ => .bind (.lift hmsg _) fun _ => .bind (.lift hmsg _) fun _ =>
      .pure _
  · exact .pure _

end Steps

/-! ## The loops of `backup_worker` -/

section Listed

variable (env : Env) (ds : Datastore) (fuel : Nat) {P : Trace → Prop} {E : Error → Trace → Prop}
  (hlisted : ∀ st info, KeepsE P E (backupListed env ds fuel st info))
  (hprogress : ∀ t p, P t → P (t ++ [.percentageDone p]))
include hlisted hprogress

/-- The snapshot loop keeps what each listed snapshot and each progress line keep. -/
theorem snapshotLoop_keeps_of_listed :
    ∀ st infos n, KeepsE P E (snapshotLoop env ds fuel st infos n)
  | _, [], _ => .pure _
  | st, info :: rest, _ => .bind (hlisted st info) fun
    | none => snapshotLoop_keeps_of_listed _ rest _
    | some _ => .bind (.emit (hprogress · _)) fun _ => snapshotLoop_keeps_of_listed _ rest _

theorem backupGroup_keeps_of_listed (hmsg : ∀ t s, P t → E (.msg s) t) (latestOnly : Bool)
    (st : LoopState) (groupNumber : Nat) (group : BackupGroup) :
    KeepsE P E (backupGroup env ds fuel latestOnly st groupNumber group) := by
  refine .bind (.lift hmsg _) fun _ =>
    .ite (.pure _) (.ite ?_ (snapshotLoop_keeps_of_listed env ds fuel hlisted hprogress _ _ _))
  split
  · exact .pure _
  · exact .bind (hlisted _ _) fun
      | none => .pure _
      | some _ => .bind (.emit (hprogress · _)) fun _ => .pure _

theorem groupLoop_keeps_of_listed (hmsg : ∀ t s, P t → E (.msg s) t) (latestOnly : Bool) :
    ∀ st groups n, KeepsE P E (groupLoop env ds fuel latestOnly st groups n)
  | _, [], _ => .pure _
  | st, group :: rest, n =>
    .bind (backupGroup_keeps_of_listed env ds fuel hlisted hprogress hmsg latestOnly st n group)
      fun _ => groupLoop_keeps_of_listed hmsg latestOnly _ rest _

end Listed

section Loops

variable (env : Env) (ds : Datastore) (fuel : Nat) {P : Trace → Prop} {E : Error → Trace → Prop}
  (hsnap : ∀ dir, KeepsE P E (backupSnapshot env ds fuel dir))
  (hloop : ∀ t e, e.isLoopStep → P t → P (t ++ [e]))
include hsnap hloop

theorem backupListed_keeps (st : LoopState) (info : BackupInfo) :
    KeepsE P E (backupListed env ds fuel st info) := by
  refine .bind (.ask fun _ _ => hloop _ (.containsSnapshot _ _) rfl) fun _ => .ite (.pure _) ?_
  refine .bind (hsnap _) fun r =>
    .bind (.emit fun _ => hloop _ (.snapshotResult r) rfl) fun _ => ?_
  cases r
  · exact .bind (.emit fun _ => hloop _ (.summaryPush _) rfl) fun _ => .pure _
  · exact .pure _
  · exact .pure _

/-- The group loop keeps what `backup_snapshot` and the loop's own steps keep. -/
theorem groupLoop_keeps (hmsg : ∀ t s, P t → E (.msg s) t) (latestOnly : Bool) :
    ∀ st groups n, KeepsE P E (groupLoop env ds fuel latestOnly st groups n) :=
  groupLoop_keeps_of_listed env ds fuel (backupListed_keeps env ds fuel hsnap hloop)
    (fun t _ => hloop t _ rfl) hmsg latestOnly

end Loops

section Finish

variable (env : Env) (setup : Setup) (st : LoopState)

/-- The end of `backup_worker`, entered on a trace satisfying `P₀`, returns into `P` and fails
as `E` says when the catalog part, if the loop needs one, leads from `P₀` into `P`, a trace of
a run that needs none is in `P` already, and the export or eject, the failed run's `bail!`
and the query of the used media keep `P` and fail as `E` says. -/
theorem finishBackup_wpE {P₀ P : Trace → Prop} {E : Error → Trace → Prop}
    (hmsg : ∀ t s, P t → E (.msg s) t)
    (hcat : st.needCatalog = true → ∀ t, P₀ t → wp (writeCatalog env) (fun _ => P) E t)
    (hskip : st.needCatalog = false → ∀ t, P₀ t → P t)
    (hexport : KeepsE P E (call env.exportMediaSet .exportMediaSet))
    (heject : KeepsE P E (call env.ejectMedia .ejectMedia))
    (hlabels : ∀ t r, P t → P (t ++ [.getUsedMediaLabels r])) (t : Trace) (h : P₀ t) :
    wp (finishBackup env setup st) (fun _ => P) E t := by
  rw [finishBackup, wp_bind]
  refine wp_mono (?_ : wp (if st.needCatalog then writeCatalog env else pure ()) (fun _ => P) E t)
    (fun _ => KeepsE.bind (.ite hexport (.ite heject (.pure _))) fun _ =>
      .bind (.ite (.bail (hmsg · _)) (.pure _)) fun _ => .bind (.ask hlabels) fun _ => .pure _)
    (fun _ _ h => h)
  cases hneed : st.needCatalog
  · exact hskip hneed t h
  · exact hcat hneed t h

/-- `finishBackup_wpE` for a failure property that does not read the error. -/
theorem finishBackup_wp {P₀ P Q : Trace → Prop} (hPQ : ∀ t, P t → Q t)
    (hcat : st.needCatalog = true → ∀ t, P₀ t → wp (writeCatalog env) (fun _ => P) (fun _ => Q) t)
    (hskip : st.needCatalog = false → ∀ t, P₀ t → P t)
    (hexport : Keeps P Q (call env.exportMediaSet .exportMediaSet))
    (heject : Keeps P Q (call env.ejectMedia .ejectMedia))
    (hlabels : ∀ t r, P t → P (t ++ [.getUsedMediaLabels r])) (t : Trace) (h : P₀ t) :
    wp (finishBackup env setup st) (fun _ => P) (fun _ => Q) t :=
  finishBackup_wpE env setup st (fun t _ => hPQ t) hcat hskip hexport heject hlabels t h

/-- The end of `backup_worker` keeps what the catalog, the export or eject, and the query of
the used media keep. -/
theorem finishBackup_keeps {P Q : Trace → Prop} (hPQ : ∀ t, P t → Q t)
    (hcat : Keeps P Q (writeCatalog env))
    (hexport : Keeps P Q (call env.exportMediaSet .exportMediaSet))
    (heject : Keeps P Q (call env.ejectMedia .ejectMedia))
    (hlabels : ∀ t r, P t → P (t ++ [.getUsedMediaLabels r])) :
    Keeps P Q (finishBackup env setup st) :=
  finishBackup_wp env setup st hPQ (fun _ => hcat) (fun _ _ h => h) hexport heject hlabels

/-- The end of `backup_worker` records catalog steps and its own steps only. -/
theorem finishBackup_only :
    OnlyAppends (fun e => e.isCatalogStep || e.isFinishStep) (finishBackup env setup st) :=
  .bind (.ite ((writeCatalog_only env).mono fun _ h => by simp [h]) (.pure _)) fun _ =>
  .bind (.ite (.call fun _ => rfl) (.ite (.call fun _ => rfl) (.pure _))) fun _ =>
  .bind (.ite (.bail _) (.pure _)) fun _ => .bind (.ask fun _ => rfl) fun _ => .pure _

/-- The end of a run whose loop set `errors` fails. -/
theorem finishBackup_fails (h : st.errors = true) (t : Trace) :
    wp (finishBackup env setup st) (fun _ _ => False) (fun _ _ => True) t := by
  simp only [finishBackup, wp_bind, h, ↓reduceIte]
  refine wp_mono (wp_true _ t) (fun _ t₁ _ => ?_) (fun _ _ h => h)
  rw [wp_bind]
  exact wp_mono (wp_true _ t₁) (fun _ t₂ _ => by simp only [wp_bind, wp_bail]) (fun _ _ h => h)

end Finish

/-! ## The two phases of a run -/

/-- `backup_worker` entered on a trace satisfying `P`: the steps before the group loop record
nothing and fail into `E`; the group loop runs over the selected groups of the listed
namespaces from the initial loop state; the commit follows the state it returns, and the end
follows a commit that returned. -/
theorem backupWorker_wp (env : Env) (ds : Datastore) {P : Trace → Prop}
    {L : LoopState → Trace → Prop} {R : Unit → Trace → Prop} {E : Error → Trace → Prop}
    (setup : Setup) (forceMediaSet : Bool) (fuel : Nat) (hfail : ∀ s t, P t → E (.msg s) t)
    (hloop : ∀ namespaces groups,
      ds.recursiveIterBackupNsOk (setup.ns.getD .root) setup.maxDepth = .ok namespaces →
      listGroups ds namespaces = .ok groups → ∀ t, P t →
      wp (groupLoop env ds fuel (setup.latestOnly.getD false)
          ⟨StoreProgress.new (selectGroups env groups setup.groupFilter).length, false, false⟩
          (selectGroups env groups setup.groupFilter) 0) L E t)
    (hcommit : ∀ st t, L st t →
      wp (finishBackup env setup st) R E (t ++ [.commit (.ok ())]))
    (hcommitErr : ∀ st t e, L st t → E (.msg e) (t ++ [.commit (.error e)]))
    (t : Trace) (h : P t) :
    wp (backupWorker env ds setup forceMediaSet fuel) R E t := by
  simp only [backupWorker, wp_bind]
  refine wp_mono (updateMediaOnlineStatus_keeps env (fun t s h => hfail s t h) setup.drive t h)
    (fun _ t h => ?_) (fun _ _ h => h)
  simp only [wp_bind, wp_lift]
  repeat' split
  all_goals try exact hfail _ _ h
  next hns _ _ hgroups =>
    refine wp_mono (hloop _ _ hns hgroups t h) (fun st t₁ h₁ => ?_) (fun _ _ h => h)
    simp only [wp_bind, wp_call]
    split
    · exact hcommit st t₁ h₁
    · exact hcommitErr st t₁ _ h₁

section PhasesListed

variable (env : Env) (ds : Datastore) {P₁ Q₁ P₂ Q₂ P₃ : Trace → Prop} (hPQ : ∀ t, P₁ t → Q₁ t)
  (hlisted : ∀ fuel st info, Keeps P₁ Q₁ (backupListed env ds fuel st info))
  (hprogress : ∀ t p, P₁ t → P₁ (t ++ [.percentageDone p]))
  (hcommit : ∀ t a, P₁ t → P₂ (t ++ [.commit (.ok a)]))
  (hcommitErr : ∀ t e, P₁ t → Q₂ (t ++ [.commit (.error e)]))
  (hfinish : ∀ setup st t, P₂ t → wp (finishBackup env setup st) (fun _ => P₃) (fun _ => Q₂) t)
include hPQ hlisted hprogress hcommit hcommitErr hfinish

/-- A run of `backup_worker` is the group loop, then the commit and the end. Properties of the
first phase, kept by each listed snapshot and each progress line, that the commit carries
into a property from which the end leads to `P₃` hold of every run: `P₃` of a run that
returns, and `Q₁` or `Q₂` of one that fails before or after the commit. -/
theorem backupWorker_phases_of_listed (setup : Setup) (forceMediaSet : Bool) (fuel : Nat)
    (t : Trace) (h : P₁ t) :
    wp (backupWorker env ds setup forceMediaSet fuel) (fun _ => P₃) (fun _ t' => Q₁ t' ∨ Q₂ t')
      t :=
  backupWorker_wp env ds setup forceMediaSet fuel (fun _ _ h => .inl (hPQ _ h))
    (fun _ _ _ _ t h => wp_mono
      (groupLoop_keeps_of_listed env ds fuel (hlisted fuel) hprogress (fun t _ => hPQ t) _ _ _ _ t h)
      (fun _ _ h => h) (fun _ _ h => .inl h))
    (fun st _ h => wp_mono (hfinish setup st _ (hcommit _ _ h)) (fun _ _ h => h) (fun _ _ h => .inr h))
    (fun _ _ _ h => .inr (hcommitErr _ _ h)) t h

end PhasesListed

section Phases

variable (env : Env) (ds : Datastore) {P₁ Q₁ P₂ Q₂ : Trace → Prop} (hPQ : ∀ t, P₁ t → Q₁ t)
  (hsnap : ∀ fuel dir, Keeps P₁ Q₁ (backupSnapshot env ds fuel dir))
  (hloop : ∀ t e, e.isLoopStep → P₁ t → P₁ (t ++ [e]))
  (hcommit : ∀ t a, P₁ t → P₂ (t ++ [.commit (.ok a)]))
  (hcommitErr : ∀ t e, P₁ t → Q₂ (t ++ [.commit (.error e)]))
  (hfinish : ∀ setup st, Keeps P₂ Q₂ (finishBackup env setup st))
include hPQ hsnap hloop hcommit hcommitErr hfinish

/-- A run of `backup_worker` is the group loop, with the steps of `backup_snapshot` and its
own, then the commit and the end. Properties of the first phase that the commit carries into
properties kept by the end hold of every run: `P₂` of a run that returns, and `Q₁` or `Q₂`
of one that fails before or after the commit. -/
theorem backupWorker_phases (setup : Setup) (forceMediaSet : Bool) (fuel : Nat) (t : Trace)
    (h : P₁ t) :
    wp (backupWorker env ds setup forceMediaSet fuel) (fun _ => P₂) (fun _ t' => Q₁ t' ∨ Q₂ t')
      t :=
  backupWorker_phases_of_listed env ds hPQ (fun fuel => backupListed_keeps env ds fuel (hsnap fuel) hloop)
    (fun t _ => hloop t _ rfl) hcommit hcommitErr hfinish setup forceMediaSet fuel t h

end Phases

/-- Every run of `backup_worker` keeps a property of the trace that `backup_snapshot`, the
group loop's own steps, the commit and the end keep. -/
theorem backupWorker_keeps (env : Env) (ds : Datastore) {P Q : Trace → Prop}
    (hPQ : ∀ t, P t → Q t) (hsnap : ∀ fuel dir, Keeps P Q (backupSnapshot env ds fuel dir))
    (hloop : ∀ t e, e.isLoopStep → P t → P (t ++ [e]))
    (hcommit : ∀ t a, P t → P (t ++ [.commit (.ok a)]))
    (hcommitErr : ∀ t e, P t → Q (t ++ [.commit (.error e)]))
    (hfinish : ∀ setup st, Keeps P Q (finishBackup env setup st))
    (setup : Setup) (forceMediaSet : Bool) (fuel : Nat) :
    Keeps P Q (backupWorker env ds setup forceMediaSet fuel) := fun t h =>
  wp_mono (backupWorker_phases env ds hPQ hsnap hloop hcommit hcommitErr hfinish
      setup forceMediaSet fuel t h)
    (fun _ _ h => h) (fun _ _ h => h.elim id id)

end PbsCloudBackup.Backup
