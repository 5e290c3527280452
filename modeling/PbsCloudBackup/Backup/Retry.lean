import PbsCloudBackup.Backup.Invariant
/-!
# Archives written whole, with one retry

`write_snapshot_archive` and the catalog part of `backup_worker` append an archive; when it
did not fit on the medium (`done = false`) they mark that medium full, load a fresh one and
append once more, and a second `done = false` fails the job. `attempts k t` lists the
answers of the appends of kind `k` since the most recent entry into `backup_snapshot`, for a
snapshot archive, or since the commit, for the catalog.

`RetryStep` says what each step needs of the trace before it: an append is the first, or the
second after a first that did not fit, with the medium of the load before it marked full and
a fresh load between them; nothing follows two appends that did not fit; and a snapshot is
reported a success, and pushed to the summary, only after its last append fitted. Every run
of `backup_worker` keeps it, and no archive is appended more than twice
(`archive_retried_once`).
-/

namespace PbsCloudBackup.Backup

/-- The two archives written whole: a snapshot's, and the catalog. -/
inductive ArchiveKind
  | snapshot
  | catalog
  deriving DecidableEq, Repr

namespace ArchiveKind

/-- The recorded append of an archive of the kind. -/
@[simp] def append : ArchiveKind → Except String Bool → Event
  | snapshot => .appendSnapshotArchive
  | catalog => .appendCatalogArchive

/-- The answer a step records for an append of the kind. -/
@[simp] def answer? : ArchiveKind → Event → Option (Except String Bool)
  | snapshot, .appendSnapshotArchive r => some r
  | catalog, .appendCatalogArchive r => some r
  | _, _ => none

/-- The steps after which the appends of the kind are counted afresh: the entry into
`backup_snapshot`, and the commit before the catalog. -/
@[simp] def starts : ArchiveKind → Event → Bool
  | snapshot, .backupSnapshot _ => true
  | catalog, .commit _ => true
  | _, _ => false

/-- How one step changes `attempts`. -/
@[simp] def attemptsStep (k : ArchiveKind) (acc : List (Except String Bool)) (e : Event) :
    List (Except String Bool) :=
  if k.starts e then [] else acc ++ (k.answer? e).toList

theorem append_inj {k k' : ArchiveKind} {r r' : Except String Bool} :
    k.append r = k'.append r' ↔ k = k' ∧ r = r' := by
  cases k <;> cases k' <;> simp

theorem eq_append_of_answer? {k : ArchiveKind} {e : Event} {r : Except String Bool}
    (h : k.answer? e = some r) : e = k.append r := by
  cases k <;> cases e <;> simp_all

end ArchiveKind

/-- The answers of the appends of kind `k` since the most recent start. -/
def attempts (k : ArchiveKind) (t : Trace) : List (Except String Bool) :=
  t.foldl k.attemptsStep []

@[simp] theorem attempts_nil (k : ArchiveKind) : attempts k [] = [] := rfl

@[simp] theorem attempts_append (k : ArchiveKind) (t l : Trace) :
    attempts k (t ++ l) = l.foldl k.attemptsStep (attempts k t) :=
  List.foldl_append _ _ _ _

theorem attempts_append_other {k k' : ArchiveKind} (h : k ≠ k') (t : Trace)
    (r : Except String Bool) : attempts k' (t ++ [k.append r]) = attempts k' t := by
  cases k <;> cases k' <;> simp_all

/-- A step `RetryStep` asks more of than that no archive missed twice: a start, an append,
or a snapshot's success. -/
def Event.isArchiveStep : Event → Bool
  | backupSnapshot _ | commit _ | appendSnapshotArchive _ | appendCatalogArchive _
  | snapshotResult .success | summaryPush _ => true
  | _ => false

theorem Event.isArchiveStep_append (k : ArchiveKind) (r : Except String Bool) :
    (k.append r).isArchiveStep = true := by
  cases k <;> rfl

theorem attempts_of_not_isArchiveStep {e : Event} (he : e.isArchiveStep = false)
    (k : ArchiveKind) (t : Trace) : attempts k (t ++ [e]) = attempts k t := by
  cases k <;> cases e <;> simp_all [Event.isArchiveStep]

theorem attempts_of_report {e : Event} (he : (∃ r, e = .snapshotResult r) ∨ ∃ p, e = .summaryPush p)
    (k : ArchiveKind) (t : Trace) : attempts k (t ++ [e]) = attempts k t := by
  rcases he with ⟨_, rfl⟩ | ⟨_, rfl⟩ <;> cases k <;> simp

/-! ## The step condition -/

/-- No archive missed the medium twice since its start. -/
def NoDoubleMiss (t : Trace) : Prop := ∀ k, attempts k t ≠ [.ok false, .ok false]

/-- The steps between an append of kind `k` that did not fit and the next one: the medium
the load before the append returned is marked full, abort checks pass, and a fresh load
returns. -/
def RetriedOnFreshMedium (k : ArchiveKind) (pre : Trace) : Prop :=
  ∃ A C u u', pre = A ++ k.append (.ok false) :: .setMediaStatusFull u (.ok ()) ::
      (C ++ [.loadWritableMedia (.ok u')]) ∧
    lastLoad A = some (.ok u) ∧ ∀ x ∈ C, x = .checkAbort (.ok ())

/-- What a step of archives written whole with one retry needs of the trace before it. -/
def RetryStep (pre : Trace) (e : Event) : Prop :=
  NoDoubleMiss pre ∧
  (∀ k r, e = k.append r →
    attempts k pre = [] ∨ attempts k pre = [.ok false] ∧ RetriedOnFreshMedium k pre) ∧
  (e = .snapshotResult .success ∨ (∃ p, e = .summaryPush p) →
    (attempts .snapshot pre).getLast? = some (.ok true))

/-- Every step of the trace writes archives whole with one retry. -/
def RetrySound (t : Trace) : Prop := AllSteps RetryStep t

/-- A trace a job goes on from: sound, and no archive missed twice. -/
def RetryClear (t : Trace) : Prop := RetrySound t ∧ NoDoubleMiss t

theorem retryClear_nil : RetryClear [] := ⟨allSteps_nil, fun k => by simp⟩

theorem NoDoubleMiss.append {t : Trace} {k : ArchiveKind} {r : Except String Bool}
    (h : NoDoubleMiss t) (hr : attempts k t ++ [r] ≠ [.ok false, .ok false]) :
    NoDoubleMiss (t ++ [k.append r]) := fun k' => by
  by_cases hk : k = k'
  · subst hk
    cases k <;> simpa using hr
  · rw [attempts_append_other hk]
    exact h k'

theorem retryStep_of_not_isArchiveStep {t : Trace} {e : Event} (h : NoDoubleMiss t)
    (he : e.isArchiveStep = false) : RetryStep t e := by
  refine ⟨h, fun k r hk => ?_, fun h' => ?_⟩
  · rw [hk, Event.isArchiveStep_append] at he
    cases he
  · rcases h' with rfl | ⟨_, rfl⟩ <;> cases he

/-- An append that is the first of its archive, or the second on a fresh medium. -/
theorem retryStep_append {t : Trace} {k : ArchiveKind} (h : NoDoubleMiss t)
    (ha : attempts k t = [] ∨ attempts k t = [.ok false] ∧ RetriedOnFreshMedium k t)
    (r : Except String Bool) : RetryStep t (k.append r) := by
  refine ⟨h, fun k' r' he => ?_, ?_⟩
  · obtain ⟨rfl, -⟩ := ArchiveKind.append_inj.1 he
    exact ha
  · rintro (he | ⟨_, he⟩) <;> cases k <;> cases he

theorem RetryClear.snoc {t : Trace} {e : Event} (h : RetryClear t)
    (he : e.isArchiveStep = false) : RetryClear (t ++ [e]) :=
  ⟨allSteps_append_singleton.2 ⟨h.1, retryStep_of_not_isArchiveStep h.2 he⟩,
    fun k => attempts_of_not_isArchiveStep he k t ▸ h.2 k⟩

/-- The entry into `backup_snapshot` and the commit count appends afresh. -/
theorem RetryClear.snoc_start {t : Trace} {e : Event} (h : RetryClear t)
    (he : (∃ dir, e = .backupSnapshot dir) ∨ ∃ r, e = .commit r) :
    RetryClear (t ++ [e]) ∧ ∀ k, k.starts e → attempts k (t ++ [e]) = [] := by
  refine ⟨⟨allSteps_append_singleton.2 ⟨h.1, h.2, fun k r hk => ?_, ?_⟩, fun k => ?_⟩, ?_⟩
  · rcases he with ⟨_, rfl⟩ | ⟨_, rfl⟩ <;> cases k <;> cases hk
  · rintro (hs | ⟨_, hs⟩) <;> rcases he with ⟨_, rfl⟩ | ⟨_, rfl⟩ <;> cases hs
  · have hk := h.2 k
    rcases he with ⟨_, rfl⟩ | ⟨_, rfl⟩ <;> cases k <;> simp [hk]
  · intro k hk
    simp only [attempts_append, List.foldl_cons, List.foldl_nil, ArchiveKind.attemptsStep, hk,
      ↓reduceIte]

/-- A recorded call of the chunk loop or the archive parts that starts nothing and answers
no append, followed by a job that writes archives whole. -/
theorem RetryClear.call_bind {β γ : Type} {t : Trace} {answer : Trace → Except String β}
    {record : Except String β → Event} {f : β → Job γ} {Q : γ → Trace → Prop}
    (h : RetryClear t) (hs : ∀ r, (record r).isArchiveStep = false)
    (hk : ∀ b, RetryClear (t ++ [record (.ok b)]) →
      wp (f b) Q (fun _ => RetrySound) (t ++ [record (.ok b)])) :
    wp (Backup.call answer record >>= f) Q (fun _ => RetrySound) t := by
  rw [wp_bind, wp_call]
  split
  · exact hk _ (h.snoc (hs _))
  · exact (h.snoc (hs _)).1

/-- A recorded append that `RetryStep` allows, followed by a job that writes archives
whole. -/
theorem RetrySound.call_bind {β γ : Type} {t : Trace} {answer : Trace → Except String β}
    {record : Except String β → Event} {f : β → Job γ} {Q : γ → Trace → Prop}
    (h : RetrySound t) (hs : ∀ r, RetryStep t (record r))
    (hk : ∀ b, RetrySound (t ++ [record (.ok b)]) →
      wp (f b) Q (fun _ => RetrySound) (t ++ [record (.ok b)])) :
    wp (Backup.call answer record >>= f) Q (fun _ => RetrySound) t := by
  rw [wp_bind, wp_call]
  split
  · exact hk _ (allSteps_append_singleton.2 ⟨h, hs _⟩)
  · exact allSteps_append_singleton.2 ⟨h, hs _⟩

/-- A report of a snapshot's result or a summary push, where a success comes only after the
snapshot archive's last append fitted. -/
theorem RetryClear.snoc_report {t : Trace} {e : Event} (h : RetryClear t)
    (he : (∃ r, e = .snapshotResult r) ∨ ∃ p, e = .summaryPush p)
    (hok : e = .snapshotResult .success ∨ (∃ p, e = .summaryPush p) →
      (attempts .snapshot t).getLast? = some (.ok true)) :
    RetryClear (t ++ [e]) :=
  ⟨allSteps_append_singleton.2 ⟨h.1, h.2, fun k _ hk => (by
      rcases he with ⟨_, rfl⟩ | ⟨_, rfl⟩ <;> cases k <;> cases hk), hok⟩,
    fun k => attempts_of_report he k t ▸ h.2 k⟩

/-! ## The chunk loop and the archives -/

section

variable (env : Env) (ds : Datastore)

theorem Event.isArchiveStep_of_isChunkLoopCall {e : Event} (h : e.isChunkLoopCall) :
    e.isArchiveStep = false := by
  cases e <;> first | rfl | cases h

/-- The chunk loop keeps the trace clear and the appends of the snapshot archive as they
are. -/
theorem chunkLoop_retry (fuel : Nat) (chunks : List (Except String Chunk))
    (a : List (Except String Bool)) :
    Keeps (fun t => RetryClear t ∧ attempts .snapshot t = a)
      (fun t => RetryClear t ∧ attempts .snapshot t = a) (chunkLoop env fuel chunks) :=
  (chunkLoop_only env fuel chunks).keeps fun t _ he h =>
    have he' := Event.isArchiveStep_of_isChunkLoopCall he
    ⟨h.1.snoc he', (attempts_of_not_isArchiveStep he' _ t).trans h.2⟩

/-- The snapshot archive, written when no append of it came since the entry into
`backup_snapshot`, returns on a clear trace whose last append fitted. -/
theorem writeSnapshotArchive_retry (dir : BackupDir) (t : Trace) (h : RetryClear t)
    (ha : attempts .snapshot t = []) :
    wp (writeSnapshotArchive env dir)
      (fun _ t' => RetryClear t' ∧ (attempts .snapshot t').getLast? = some (.ok true))
      (fun _ => RetrySound) t := by
  refine h.call_bind (fun _ => rfl) fun ⟨⟩ h₁ => ?_
  refine h₁.call_bind (fun _ => rfl) fun u h₂ => ?_
  refine h₂.call_bind (fun _ => rfl) fun ⟨⟩ h₃ => ?_
  refine h₃.1.call_bind (retryStep_append (k := .snapshot) h₃.2 (.inl (by simpa using ha)))
    fun done h₄ => ?_
  rw [wp_bind]
  cases done
  · simp only [Bool.not_false, ↓reduceIte]
    refine RetryClear.call_bind ⟨h₄, h₃.2.append (k := .snapshot) (by simp [ha])⟩
      (fun _ => rfl) fun ⟨⟩ h₅ => ?_
    refine h₅.call_bind (fun _ => rfl) fun ⟨⟩ h₆ => ?_
    refine h₆.call_bind (fun _ => rfl) fun u' h₇ => ?_
    refine h₇.1.call_bind (retryStep_append (k := .snapshot) h₇.2
      (.inr ⟨by simp [ha], t ++ [.checkAbort (.ok ()), .loadWritableMedia (.ok u), .checkAbort (.ok ())],
        [.checkAbort (.ok ())], u, u', by simp, by simp, by simp⟩))
      fun done h₈ => ?_
    cases done
    · exact h₈
    · exact .intro ⟨h₈, h₇.2.append (k := .snapshot) (by simp [ha])⟩ (by simp [ha])
  · exact .intro ⟨h₄, h₃.2.append (k := .snapshot) (by simp [ha])⟩ (by simp [ha])

/-- `backup_snapshot` entered on a clear trace returns on a clear trace, and returns
`Success` only after the last append of its archive fitted. -/
theorem backupSnapshot_retry (fuel : Nat) (dir : BackupDir) (t : Trace) (h : RetryClear t) :
    wp (backupSnapshot env ds fuel dir)
      (fun r t' => RetryClear t' ∧
        (r = .success → (attempts .snapshot t').getLast? = some (.ok true)))
      (fun _ => RetrySound) t := by
  obtain ⟨h₀, ha₀⟩ := h.snoc_start (.inl ⟨dir, rfl⟩)
  simp only [backupSnapshot, wp_bind, wp_emit]
  split
  · exact .intro h₀ fun hr => by split at hr <;> cases hr
  · refine h₀.call_bind (fun _ => rfl) fun reader h₁ => ?_
    rw [wp_bind]
    refine wp_mono (chunkLoop_retry env fuel reader.chunks [] _ ⟨h₁, ?_⟩) (fun _ t₂ h₂ => ?_)
      (fun _ _ h => h.1.1)
    · simp
    rw [wp_bind]
    split
    · exact h₂.1.1
    · simp only [wp_pure]
      exact wp_mono (writeSnapshotArchive_retry env dir t₂ h₂.1 h₂.2)
        (fun _ _ h => ⟨h.1, fun _ => h.2⟩) (fun _ _ h => h)

/-- A listed snapshot keeps the trace clear: its result is reported a success, and pushed to
the summary, only after its archive fitted. -/
theorem backupListed_retry (fuel : Nat) (st : LoopState) (info : BackupInfo) :
    Keeps RetryClear RetrySound (backupListed env ds fuel st info) := fun t h => by
  simp only [backupListed, wp_bind, wp_ask]
  split
  · exact h.snoc (by rfl)
  · rw [wp_bind]
    refine wp_mono (backupSnapshot_retry env ds fuel _ _ (h.snoc (by rfl))) (fun r t₁ h₁ => ?_)
      (fun _ _ h => h)
    have hr := h₁.1.snoc_report (.inl ⟨r, rfl⟩) fun hs => by
      rcases hs with hs | ⟨_, hs⟩ <;> cases hs
      exact h₁.2 rfl
    simp only [wp_bind, wp_emit]
    split
    · exact hr.snoc_report (.inr ⟨_, rfl⟩) fun _ => by
        rw [attempts_of_report (.inl ⟨_, rfl⟩)]
        exact h₁.2 rfl
    · exact hr
    · exact hr

end

/-! ## The catalog and the run -/

/-- A recorded call that starts nothing and answers no append keeps the trace clear. -/
theorem RetryClear.keeps_call {α : Type} {answer : Trace → Except String α}
    {record : Except String α → Event} (hs : ∀ r, (record r).isArchiveStep = false) :
    Keeps RetryClear RetrySound (Backup.call answer record) :=
  .call (fun _ _ h => h.snoc (hs _)) (fun _ _ h => (h.snoc (hs _)).1)

section

variable (env : Env) (ds : Datastore)

/-- The catalog, written when no append of it came since the commit, returns on a clear
trace. -/
theorem writeCatalog_retry (t : Trace) (h : RetryClear t) (ha : attempts .catalog t = []) :
    wp (writeCatalog env) (fun _ => RetryClear) (fun _ => RetrySound) t := by
  refine h.call_bind (fun _ => rfl) fun u h₁ => ?_
  refine h₁.1.call_bind (retryStep_append (k := .catalog) h₁.2 (.inl (by simpa using ha)))
    fun done h₂ => ?_
  cases done
  · simp only [Bool.not_false, ↓reduceIte]
    refine RetryClear.call_bind ⟨h₂, h₁.2.append (k := .catalog) (by simp [ha])⟩
      (fun _ => rfl) fun ⟨⟩ h₃ => ?_
    refine h₃.call_bind (fun _ => rfl) fun u' h₄ => ?_
    refine h₄.1.call_bind (retryStep_append (k := .catalog) h₄.2
      (.inr ⟨by simp [ha], t ++ [.loadWritableMedia (.ok u)], [], u, u', by simp, by simp,
        by simp⟩)) fun done h₅ => ?_
    cases done
    · exact h₅
    · exact (⟨h₅, h₄.2.append (k := .catalog) (by simp [ha])⟩ : RetryClear _)
  · exact (⟨h₂, h₁.2.append (k := .catalog) (by simp [ha])⟩ : RetryClear _)

/-- The end of `backup_worker`, entered when no catalog append came since the commit,
returns on a clear trace. -/
theorem finishBackup_retry (setup : Setup) (st : LoopState) (t : Trace) (h : RetryClear t)
    (ha : attempts .catalog t = []) :
    wp (finishBackup env setup st) (fun _ => RetryClear) (fun _ => RetrySound) t :=
  finishBackup_wp env setup st (fun _ h => h.1)
    (fun _ t (h : RetryClear t ∧ attempts .catalog t = []) => writeCatalog_retry env t h.1 h.2)
    (fun _ _ h => h.1) (RetryClear.keeps_call fun _ => by rfl)
    (RetryClear.keeps_call fun _ => by rfl) (fun _ _ h => h.snoc (by rfl)) t ⟨h, ha⟩

/-- Every run of `backup_worker` returns on a clear trace and fails on a sound one. -/
theorem backupWorker_retry (setup : Setup) (forceMediaSet : Bool) (fuel : Nat) :
    wp (backupWorker env ds setup forceMediaSet fuel) (fun _ => RetryClear)
      (fun _ => RetrySound) [] :=
  wp_mono (@backupWorker_phases_of_listed env ds RetryClear RetrySound
      (fun t => RetryClear t ∧ attempts .catalog t = []) RetrySound RetryClear (fun _ h => h.1)
      (backupListed_retry env ds) (fun _ _ h => h.snoc (by rfl))
      (fun _ _ h => have hc := h.snoc_start (.inr ⟨_, rfl⟩); ⟨hc.1, hc.2 .catalog rfl⟩)
      (fun _ _ h => (h.snoc_start (.inr ⟨_, rfl⟩)).1.1)
      (fun setup st t h => finishBackup_retry env setup st t h.1 h.2)
      setup forceMediaSet fuel [] retryClear_nil)
    (fun _ _ h => h) (fun _ _ h => h.elim id id)

end

/-- In a sound trace no archive is appended more than twice since its start. -/
theorem attempts_length_le_two {T : Trace} (h : RetrySound T) (k : ArchiveKind) :
    ∀ pre post, T = pre ++ post → (attempts k pre).length ≤ 2 := by
  intro pre
  induction pre using List.reverseRecOn with
  | nil => simp
  | append_singleton pre e ih =>
    intro post hT
    have hstep : RetryStep pre e := h pre e post (by simp [hT])
    simp only [attempts_append, List.foldl_cons, List.foldl_nil, ArchiveKind.attemptsStep]
    split
    · simp
    · cases hans : k.answer? e with
      | none => simpa using ih (e :: post) (by simp [hT])
      | some r =>
        rcases hstep.2.1 k r (ArchiveKind.eq_append_of_answer? hans) with ha | ⟨ha, -⟩ <;>
          simp [ha]

/-- Every run of `backup_worker`, on every answer of the media and the archive appends,
writes each archive whole with at most one retry. `backup_snapshot`, entered on a clear
trace, returns on a clear trace, and `Success` only after its last append fitted; a run
returns only when no archive missed twice, and every step of every run satisfies
`RetryStep`; no archive is appended more than twice since its start. -/
theorem archive_retried_once (env : Env) (ds : Datastore) (setup : Setup)
    (forceMediaSet : Bool) (fuel : Nat) :
    (∀ fuel' dir t, RetryClear t → wp (backupSnapshot env ds fuel' dir)
      (fun r t' => RetryClear t' ∧
        (r = .success → (attempts .snapshot t').getLast? = some (.ok true)))
      (fun _ => RetrySound) t) ∧
    wp (backupWorker env ds setup forceMediaSet fuel) (fun _ => RetryClear)
      (fun _ => RetrySound) [] ∧
    ∀ k pre post, runTrace (backupWorker env ds setup forceMediaSet fuel) = pre ++ post →
      (attempts k pre).length ≤ 2 :=
  have hrun := backupWorker_retry env ds setup forceMediaSet fuel
  ⟨backupSnapshot_retry env ds, hrun, attempts_length_le_two
    (runTrace_of_wp RetrySound (wp_mono hrun (fun _ _ h => h.1) (fun _ _ h => h)))⟩


/-- A snapshot of two chunks on collaborators that always answer: its archive fits at once. -/
theorem archive_retried_once_steady :
    RetryClear [] ∧
    wp (backupSnapshot (steadyEnv twoChunks) (vmDatastore [0]) 3 (vmSnapshot 0))
      (fun r t' => RetryClear t' ∧
        (r = .success → (attempts .snapshot t').getLast? = some (.ok true)))
      (fun _ => RetrySound) [] :=
  ⟨retryClear_nil, (archive_retried_once (steadyEnv twoChunks) (vmDatastore [0]) plainSetup false
    3).1 3 (vmSnapshot 0) [] retryClear_nil⟩

end PbsCloudBackup.Backup
