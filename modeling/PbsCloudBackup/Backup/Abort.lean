import PbsCloudBackup.Backup.Commit
/-!
# Abort checks

`backup_snapshot` calls `worker.check_abort()?` before every load of a writable medium and
after every archive append, and a check that finds the abort flag set ends the run with its
`Err`. `AbortStep` says what this asks of each step of a run before the commit: no check
before it failed, a load directly follows a check that returned `Ok`, and a load or an
append comes after a check since the most recent append. The catalog after the commit
makes no check.

So an abort flag set after an append returned stops every load and append of the run before
the commit (`abort_stops_snapshot_writes`); the catalog is still written, and the run can
still return `Ok` (`catalog_written_after_abort`).
-/

namespace PbsCloudBackup.Backup

namespace Event

/-- A `check_abort` call. -/
@[simp] def isCheck : Event → Bool
  | checkAbort _ => true
  | _ => false


/-- A `check_abort` call that returned `Err`. -/
@[simp] def isFailedCheck : Event → Bool
  | checkAbort (.error _) => true
  | _ => false

end Event

/-- How one step changes `checkedSinceAppend`. -/
@[simp] def checkedStep (acc : Bool) : Event → Bool
  | .checkAbort _ => true
  | .appendChunkArchive _ | .appendSnapshotArchive _ | .appendCatalogArchive _ => false
  | _ => acc

/-- Whether a `check_abort` call came after the most recent append, or no append came yet. -/
def checkedSinceAppend (t : Trace) : Bool := t.foldl checkedStep true

@[simp] theorem checkedSinceAppend_append (t l : Trace) :
    checkedSinceAppend (t ++ l) = l.foldl checkedStep (checkedSinceAppend t) :=
  List.foldl_append _ _ _ _

theorem checkedSinceAppend_of_getLast? {pre : Trace} {r : Except String Unit}
    (h : pre.getLast? = some (.checkAbort r)) : checkedSinceAppend pre = true := by
  rw [← List.dropLast_append_getLast? _ h, checkedSinceAppend_append]
  rfl

/-- What the abort checks ask of a load or an append, given the trace before it. -/
@[simp] def CheckedStep (pre : Trace) : Event → Prop
  | .loadWritableMedia _ => pre.getLast? = some (.checkAbort (.ok ()))
  | .appendChunkArchive _ | .appendSnapshotArchive _ | .appendCatalogArchive _ =>
    checkedSinceAppend pre = true
  | _ => True

/-- What a step of a run before the commit needs of the trace before it: no failed check, and
the abort checks a load or an append asks for. -/
@[simp] def AbortStep (pre : Trace) (e : Event) : Prop :=
  pre.any Event.isFailedCheck = false ∧ CheckedStep pre e

/-- Every step of the trace is checked for abort as it needs. -/
def AbortSound (t : Trace) : Prop := AllSteps AbortStep t

/-- An abort-sound trace with no failed check, from which a run can go on. -/
def AbortClear (t : Trace) : Prop := AbortSound t ∧ t.any Event.isFailedCheck = false

namespace AbortClear

variable {t : Trace}

theorem sound (h : AbortClear t) : AbortSound t := h.1

theorem snoc {e : Event} (h : AbortClear t) (he : CheckedStep t e) (hf : e.isFailedCheck = false) :
    AbortClear (t ++ [e]) :=
  ⟨allSteps_append_singleton.2 ⟨h.1, h.2, he⟩, by
    simp only [List.any_append, List.any_cons, List.any_nil, h.2, hf, Bool.or_false]⟩

theorem snoc_sound {e : Event} (h : AbortClear t) (he : CheckedStep t e) : AbortSound (t ++ [e]) :=
  allSteps_append_singleton.2 ⟨h.1, h.2, he⟩

/-- A recorded call that the abort checks allow and that records no failed check, followed by
a job that keeps the trace clear. -/
theorem call_bind {β γ : Type} {answer : Trace → Except String β}
    {record : Except String β → Event} {f : β → Job γ} {Q : γ → Trace → Prop}
    (h : AbortClear t) (hc : ∀ r, CheckedStep t (record r))
    (hf : ∀ b, (record (.ok b)).isFailedCheck = false)
    (hk : ∀ b, AbortClear (t ++ [record (.ok b)]) →
      wp (f b) Q (fun _ => AbortSound) (t ++ [record (.ok b)])) :
    wp (Backup.call answer record >>= f) Q (fun _ => AbortSound) t := by
  rw [wp_bind, wp_call]
  split
  · exact hk _ (h.snoc (hc _) (hf _))
  · exact h.snoc_sound (hc _)

end AbortClear

section

variable (env : Env) (ds : Datastore)

theorem chunkLoop_abort : ∀ fuel chunks, Keeps AbortClear AbortSound (chunkLoop env fuel chunks)
  | 0, _ => fun _ h => h.1
  | fuel + 1, chunks => fun t h => by
    simp only [chunkLoop]
    refine h.call_bind (fun _ => trivial) (fun _ => rfl) fun _ h₁ => ?_
    rcases chunks with _ | ⟨_ | c, rest⟩
    · exact h₁
    · exact h₁.1
    refine h₁.call_bind (fun _ => List.getLast?_concat _) (fun _ => rfl) fun _ h₂ => ?_
    refine h₂.call_bind (fun _ => trivial) (fun _ => rfl) fun _ h₃ => ?_
    refine h₃.call_bind (fun _ => checkedSinceAppend_of_getLast? (List.getLast?_concat _))
      (fun _ => rfl) fun ⟨_, leom⟩ h₄ => ?_
    cases leom
    · exact chunkLoop_abort fuel _ _ h₄
    · exact h₄.call_bind (fun _ => trivial) (fun _ => rfl) fun _ h₅ => chunkLoop_abort fuel _ _ h₅

theorem writeSnapshotArchive_abort (dir : BackupDir) :
    Keeps AbortClear AbortSound (writeSnapshotArchive env dir) := fun t h => by
  refine h.call_bind (fun _ => trivial) (fun _ => rfl) fun _ h₁ => ?_
  refine h₁.call_bind (fun _ => List.getLast?_concat _) (fun _ => rfl) fun _ h₂ => ?_
  refine h₂.call_bind (fun _ => trivial) (fun _ => rfl) fun _ h₃ => ?_
  refine h₃.call_bind (fun _ => checkedSinceAppend_of_getLast? (List.getLast?_concat _))
    (fun _ => rfl) fun done h₄ => ?_
  rw [wp_bind]
  cases done
  · simp only [Bool.not_false, ↓reduceIte]
    refine h₄.call_bind (fun _ => trivial) (fun _ => rfl) fun _ h₅ => ?_
    refine h₅.call_bind (fun _ => trivial) (fun _ => rfl) fun _ h₆ => ?_
    refine h₆.call_bind (fun _ => List.getLast?_concat _) (fun _ => rfl) fun _ h₇ => ?_
    refine h₇.call_bind (fun _ => by simp) (fun _ => rfl) fun done h₈ => ?_
    cases done
    · exact h₈.1
    · exact h₈
  · exact h₄

theorem backupSnapshot_abort (fuel : Nat) (dir : BackupDir) :
    Keeps AbortClear AbortSound (backupSnapshot env ds fuel dir) :=
  backupSnapshot_keeps env ds (fun _ => AbortClear.sound) fuel dir (fun _ h => h.snoc trivial rfl)
    (.call (fun _ _ h => h.snoc trivial rfl) fun _ _ h => h.snoc_sound trivial)
    (chunkLoop_abort env fuel) (writeSnapshotArchive_abort env dir)

end

/-- A run that has committed: abort-clear up to the commit, then steps of the end only. -/
def AbortCommitted (T : Trace) : Prop :=
  ∃ A r B, T = A ++ .commit r :: B ∧ AbortClear A ∧ ∀ e ∈ B, e.isAfterCommit

theorem abortCommitted_snoc {T : Trace} {e : Event} (h : AbortCommitted T) (he : e.isAfterCommit) :
    AbortCommitted (T ++ [e]) := by
  obtain ⟨A, r, B, rfl, hA, hB⟩ := h
  exact ⟨A, r, B ++ [e], by simp, hA, List.forall_mem_append.2 ⟨hB, List.forall_mem_singleton.2 he⟩⟩

/-- A step, other than a commit, with no commit before it comes before the commit. -/
theorem exists_of_before_commit {A B pre post : Trace} {e : Event} {r : Except String Unit}
    (h : pre ++ e :: post = A ++ .commit r :: B) (hpre : ∀ r, .commit r ∉ pre)
    (he : ∀ r, e ≠ .commit r) : ∃ post', A = pre ++ e :: post' := by
  rcases List.append_eq_append_iff.1 h with ⟨a', rfl, ha'⟩ | ⟨c', rfl, hc'⟩
  · cases a' with
    | nil => exact absurd (List.cons.inj ha').1 (he r)
    | cons x a' => exact ⟨a', by rw [(List.cons.inj ha').1]⟩
  · cases c' with
    | nil => exact absurd (List.cons.inj hc').1.symm (he r)
    | cons x c' => exact absurd (by simp [(List.cons.inj hc').1]) (hpre r)

/-- The abort checks of a run: before the commit, a load directly follows a check that
returned `Ok`, and a load or an append comes after a check since the most recent append; no
step follows a check that returned `Err`. -/
structure AbortChecked (T : Trace) : Prop where
  load_after_check : ∀ pre e post, T = pre ++ e :: post → (∀ r, .commit r ∉ pre) → e.isLoad →
    pre.getLast? = some (.checkAbort (.ok ()))
  checked_before_write : ∀ pre e post, T = pre ++ e :: post → (∀ r, .commit r ∉ pre) →
    e.isLoad ∨ e.isAppend → checkedSinceAppend pre = true
  ends_at_failed_check : ∀ pre m post, T = pre ++ .checkAbort (.error m) :: post → post = []

theorem AbortSound.checked {T : Trace} (h : AbortSound T) : AbortChecked T where
  load_after_check pre e post hT _ he := by
    have := (h pre e post hT).2
    cases e <;> first | exact this | cases he
  checked_before_write pre e post hT _ he := by
    have := (h pre e post hT).2
    cases e <;> first
      | exact this
      | exact checkedSinceAppend_of_getLast? this
      | exact he.elim nofun nofun
  ends_at_failed_check pre m post hT := by
    cases post with
    | nil => rfl
    | cons x post =>
      exact absurd (h (pre ++ [.checkAbort (.error m)]) x post (by simp [hT])).1 (by simp)

theorem Event.isFailedCheck_of_isAfterCommit {e : Event} (h : e.isAfterCommit) :
    e.isFailedCheck = false := by
  cases e <;> first | rfl | cases h

theorem AbortCommitted.checked {T : Trace} (h : AbortCommitted T) :
    AbortChecked T ∧ T.any Event.isFailedCheck = false := by
  obtain ⟨A, r, B, rfl, ⟨hA, hA'⟩, hB⟩ := h
  have hT : (A ++ .commit r :: B).any Event.isFailedCheck = false := by
    simp only [List.any_append, List.any_cons, hA', Bool.false_or]
    exact List.any_eq_false.2 fun x hx => by
      simp only [Event.isFailedCheck_of_isAfterCommit (hB x hx), Bool.false_eq_true,
        not_false_eq_true]
  refine ⟨⟨fun pre e post h' hpre he => ?_, fun pre e post h' hpre he => ?_,
    fun pre m post h' => ?_⟩, hT⟩
  · obtain ⟨post', rfl⟩ := exists_of_before_commit h'.symm hpre (by rintro _ rfl; cases he)
    exact (hA.checked).load_after_check pre e post' rfl hpre he
  · obtain ⟨post', rfl⟩ := exists_of_before_commit h'.symm hpre
      (by rintro _ rfl; simp [Event.isAppend] at he)
    exact (hA.checked).checked_before_write pre e post' rfl hpre he
  · have hfail : (pre ++ .checkAbort (.error m) :: post).any Event.isFailedCheck = true := by simp
    rw [← h', hT] at hfail
    exact absurd hfail Bool.false_ne_true

/-- An abort flag set after an append returned and before the next check, which every later
check sees, stops every load and append before the commit: each one after it has a commit
before it. -/
def StopsAfterAbort (T : Trace) : Prop :=
  ∀ A B, T = A ++ B → checkedSinceAppend A = false → (∀ e ∈ B, e.isCheck → e.isFailedCheck) →
    ∀ B₁ e B₂, B = B₁ ++ e :: B₂ → e.isLoad ∨ e.isAppend → ∃ r, .commit r ∈ A ++ B₁

theorem Event.eq_failedCheck {e : Event} (h : e.isFailedCheck) :
    ∃ m, e = .checkAbort (.error m) := by
  cases e with
  | checkAbort r =>
    cases r with
    | error m => exact ⟨m, rfl⟩
    | ok _ => cases h
  | _ => cases h

theorem AbortChecked.stops {T : Trace} (h : AbortChecked T) : StopsAfterAbort T := by
  intro A B hT hA hB B₁ e B₂ hB₁ he
  by_contra hno
  push_neg at hno
  have hc := h.checked_before_write (A ++ B₁) e B₂ (by simp [hT, hB₁]) hno he
  rw [checkedSinceAppend_append, hA] at hc
  have hne : B₁.foldl checkedStep false ≠ false := by simp [hc]
  obtain ⟨x, hx, hcheck⟩ : ∃ x ∈ B₁, x.isCheck = true :=
    exists_mem_of_foldl_ne hne fun x hx => by cases x <;> first | rfl | exact absurd rfl hx
  obtain ⟨m, rfl⟩ :=
    Event.eq_failedCheck (hB x (by rw [hB₁]; exact List.mem_append_left _ hx) hcheck)
  obtain ⟨X, Y, rfl⟩ := List.append_of_mem hx
  simpa using h.ends_at_failed_check (A ++ X) m (Y ++ e :: B₂) (by simp [hT, hB₁])

section

variable (env : Env) (ds : Datastore)

theorem abort_stops_snapshot_writes (setup : Setup) (forceMediaSet : Bool) (fuel : Nat) :
    wp (backupWorker env ds setup forceMediaSet fuel)
      (fun _ T => AbortChecked T ∧ StopsAfterAbort T ∧ T.any Event.isFailedCheck = false)
      (fun _ T => AbortChecked T ∧ StopsAfterAbort T) [] := by
  have hloop : ∀ t e, e.isLoopStep → AbortClear t → AbortClear (t ++ [e]) := fun t e he h => by
    cases e <;> first | exact h.snoc trivial rfl | cases he
  refine wp_mono (backupWorker_phases env ds (fun _ => AbortClear.sound)
    (backupSnapshot_abort env ds)
    hloop (fun t _ h => ⟨t, _, [], rfl, h, List.forall_mem_nil _⟩)
    (fun t _ h => ⟨t, _, [], rfl, h, List.forall_mem_nil _⟩)
    (fun setup st =>
      (finishBackup_only env setup st).keeps fun _ _ he h => abortCommitted_snoc h he)
    setup forceMediaSet fuel [] ⟨allSteps_nil, rfl⟩) (fun _ T h => ?_) (fun _ T h => ?_)
  · obtain ⟨hc, hf⟩ := h.checked
    exact ⟨hc, hc.stops, hf⟩
  · have hc := h.elim AbortSound.checked fun h => h.checked.1
    exact ⟨hc, hc.stops⟩

end

/-- Collaborators whose abort flag is set once a snapshot archive has been appended. -/
def abortAfterArchiveEnv : Env :=
  { steadyEnv twoChunks with
    checkAbort := fun t => if t.any Event.isSnapshotAppend then .error "aborted" else .ok () }

/-- A run whose abort flag is set right after its only snapshot archive still loads a medium,
appends the catalog, and returns `Ok`. -/
theorem catalog_written_after_abort :
    ∃ A B, backupWorker abortAfterArchiveEnv (vmDatastore [0]) plainSetup false 3 [] =
        .ok () (A ++ B) ∧ (∃ a, A.getLast? = some a ∧ a.isSnapshotAppend) ∧
      (∀ t, abortAfterArchiveEnv.checkAbort (A ++ t) = .error "aborted") ∧
      (∃ e ∈ B, e.isLoad) ∧ ∃ e ∈ B, e.isCatalogAppend := by
  refine ⟨[.containsSnapshot (vmSnapshot 0) false, .backupSnapshot (vmSnapshot 0),
      .spawnChunkReaderThread (.ok ⟨twoChunks, true⟩),
      .checkAbort (.ok ()), .loadWritableMedia (.ok ⟨0⟩), .checkAbort (.ok ()),
      .appendChunkArchive (.ok (1, false)),
      .checkAbort (.ok ()), .loadWritableMedia (.ok ⟨0⟩), .checkAbort (.ok ()),
      .appendChunkArchive (.ok (1, false)), .checkAbort (.ok ()),
      .checkAbort (.ok ()), .loadWritableMedia (.ok ⟨0⟩), .checkAbort (.ok ()),
      .appendSnapshotArchive (.ok true)],
    [.snapshotResult .success, .summaryPush "", .percentageDone ⟨0, 1, 1, 1⟩, .commit (.ok ()),
      .loadWritableMedia (.ok ⟨0⟩), .appendCatalogArchive (.ok true), .getUsedMediaLabels (.ok [])],
    rfl, ⟨_, rfl, rfl⟩, fun t => ?_, ⟨.loadWritableMedia (.ok ⟨0⟩), by simp, rfl⟩,
    ⟨.appendCatalogArchive (.ok true), by simp, rfl⟩⟩
  simp only [abortAfterArchiveEnv, List.any_append]
  rfl

end PbsCloudBackup.Backup
