import PbsCloudBackup.Backup.Commit
import PbsCloudBackup.Backup.Selection
/-!
# When the catalog is written

`backup_worker` sets `need_catalog` before it passes a snapshot to `backup_snapshot`, and
after the commit writes the catalog when the flag is set. `NeedsCatalog need t` ties the
flag to the trace of the group loop: only loop and snapshot steps, the flag set exactly when
a snapshot was passed, and every chunk or snapshot archive appended after one was.
`CatalogPart need B` says what the end of the run records after the commit: catalog steps
exactly when the flag is set, and the catalog appended exactly when also its load returned a
medium. Every run that gets past the commit has both (`catalog_iff_snapshot_passed`).

A snapshot that vanished, or cannot be opened, is passed without any append, so a run can
write a catalog with no chunk or snapshot archive (`catalog_written_without_archive`).
-/

namespace PbsCloudBackup.Backup

/-- An append of a chunk archive or a snapshot archive. -/
def Event.isArchiveAppend (e : Event) : Bool := e.isChunkAppend || e.isSnapshotAppend

/-- An archive appended after a snapshot was passed to `backup_snapshot`. -/
def AppendedAfterPass (pre : Trace) (e : Event) : Prop :=
  e.isArchiveAppend → passedSnapshots pre ≠ []

/-- The trace of the group loop for a loop state whose `needCatalog` is `need`: only steps of
the loop and of `backup_snapshot`, `need` set exactly when a snapshot was passed to
`backup_snapshot`, and every archive appended after one was. -/
def NeedsCatalog (need : Bool) (t : Trace) : Prop :=
  (∀ e ∈ t, e.isBeforeCommit) ∧ (need = true ↔ passedSnapshots t ≠ []) ∧
  AllSteps AppendedAfterPass t

/-- The steps the end of a run records after the commit, for a loop whose `needCatalog` is
`need`: steps of the end only; catalog steps exactly when `need` is set; and the catalog
appended exactly when also the first step, the catalog's load, returned a medium. -/
def CatalogPart (need : Bool) (B : Trace) : Prop :=
  (∀ e ∈ B, e.isAfterCommit) ∧ ((∃ e ∈ B, e.isCatalogStep) ↔ need = true) ∧
  ((∃ e ∈ B, e.isCatalogAppend) ↔ need = true ∧ ∃ u B', B = .loadWritableMedia (.ok u) :: B')

@[simp] theorem passedSnapshots_append (t l : Trace) :
    passedSnapshots (t ++ l) = passedSnapshots t ++ passedSnapshots l :=
  List.filterMap_append _ _ _

theorem needsCatalog_nil : NeedsCatalog false [] :=
  ⟨List.forall_mem_nil _, by simp [passedSnapshots], allSteps_nil⟩

theorem NeedsCatalog.snoc_loop {need : Bool} {t : Trace} {e : Event} (h : NeedsCatalog need t)
    (he : e.isLoopStep) : NeedsCatalog need (t ++ [e]) := by
  have hpass : passedSnapshots [e] = [] := by cases e <;> first | rfl | cases he
  have happ : e.isArchiveAppend = false := by cases e <;> first | rfl | cases he
  obtain ⟨hbefore, hneed, hafter⟩ := h
  refine ⟨List.forall_mem_append.2 ⟨hbefore, List.forall_mem_singleton.2
      (by simp [Event.isBeforeCommit, he])⟩, ?_,
    allSteps_append_singleton.2 ⟨hafter, fun h' => absurd (happ.symm.trans h') Bool.false_ne_true⟩⟩
  rwa [passedSnapshots_append, hpass, List.append_nil]

/-- Every step after a snapshot was passed appends, if at all, after a pass. -/
theorem stepsFrom_appendedAfterPass :
    ∀ {t : Trace} (Δ : Trace), passedSnapshots t ≠ [] → StepsFrom AppendedAfterPass t Δ
  | _, [], _ => trivial
  | _, _ :: Δ, h => ⟨fun _ => h, stepsFrom_appendedAfterPass Δ
      (by rw [passedSnapshots_append]; exact List.append_ne_nil_of_left_ne_nil h _)⟩

/-- After the entry into `backup_snapshot` a snapshot has been passed. -/
theorem needsCatalog_of_entry {need : Bool} {t Δ : Trace} {dir : BackupDir}
    (h : NeedsCatalog need t) (hΔ : ∀ e ∈ Δ, e.isSnapshotCall) :
    NeedsCatalog true (t ++ [.backupSnapshot dir] ++ Δ) := by
  have hentry : passedSnapshots (t ++ [.backupSnapshot dir]) ≠ [] := by
    rw [passedSnapshots_append]
    exact List.append_ne_nil_of_right_ne_nil _ (List.cons_ne_nil dir [])
  have hpass : passedSnapshots (t ++ [.backupSnapshot dir] ++ Δ) ≠ [] := by
    rw [passedSnapshots_append]
    exact List.append_ne_nil_of_left_ne_nil hentry _
  refine ⟨?_, iff_of_true rfl hpass, allSteps_append.2
    ⟨allSteps_append_singleton.2 ⟨h.2.2, nofun⟩, stepsFrom_appendedAfterPass Δ hentry⟩⟩
  simp only [List.append_assoc, List.singleton_append, List.forall_mem_append,
    List.forall_mem_cons]
  exact ⟨h.1, rfl, fun e he =>
    Bool.or_eq_true_iff.2 (.inr (Bool.or_eq_true_iff.2 (.inr (hΔ e he))))⟩

/-! ## The group loop -/

section Loops

variable (env : Env) (ds : Datastore)

/-- A listed snapshot either is skipped, leaving the flag, or is passed to `backup_snapshot`
with the flag set. -/
theorem backupListed_catalog (fuel : Nat) (st : LoopState) (info : BackupInfo) (t : Trace)
    (h : NeedsCatalog st.needCatalog t) :
    wp (backupListed env ds fuel st info) (fun o => NeedsCatalog (o.getD st).needCatalog)
      (fun _ t' => ∀ e ∈ t', e.isBeforeCommit) t := by
  simp only [backupListed, wp_bind, wp_ask]
  split
  · exact h.snoc_loop (by rfl)
  · rw [wp_bind]
    have hpre := h.snoc_loop
      (e := .containsSnapshot info.backupDir (env.containsSnapshot t info.backupDir)) rfl
    refine wp_mono (backupSnapshot_entry env ds fuel _ _) (fun r _ ⟨_, ht, hΔ⟩ => ?_)
      (fun _ _ ⟨_, ht, hΔ⟩ => ht ▸ (needsCatalog_of_entry hpre hΔ).1)
    have h₁ := ht ▸ needsCatalog_of_entry hpre hΔ
    cases r <;> simp only [wp_bind, wp_emit, wp_pure]
    · exact (h₁.snoc_loop (by rfl)).snoc_loop (by rfl)
    all_goals exact h₁.snoc_loop (by rfl)

theorem snapshotLoop_catalog (fuel : Nat) :
    ∀ (st : LoopState) (infos : List BackupInfo) (n : Nat) (t : Trace),
      NeedsCatalog st.needCatalog t →
      wp (snapshotLoop env ds fuel st infos n) (fun st' => NeedsCatalog st'.needCatalog)
        (fun _ t' => ∀ e ∈ t', e.isBeforeCommit) t
  | _, [], _, _, h => h
  | st, info :: rest, n, t, h => by
    simp only [snapshotLoop, wp_bind]
    refine wp_mono (backupListed_catalog env ds fuel st info t h) (fun o t₁ h₁ => ?_)
      (fun _ _ h => h)
    rcases o with _ | st'
    · exact snapshotLoop_catalog fuel st rest _ t₁ h₁
    · simp only [wp_bind, wp_emit]
      exact snapshotLoop_catalog fuel _ rest _ _ (h₁.snoc_loop (by rfl))

theorem backupGroup_catalog (fuel : Nat) (latestOnly : Bool) (st : LoopState) (groupNumber : Nat)
    (group : BackupGroup) (t : Trace) (h : NeedsCatalog st.needCatalog t) :
    wp (backupGroup env ds fuel latestOnly st groupNumber group)
      (fun st' => NeedsCatalog st'.needCatalog) (fun _ t' => ∀ e ∈ t', e.isBeforeCommit) t := by
  simp only [backupGroup, wp_bind, wp_lift]
  split
  swap
  · exact h.1
  split
  · exact h
  split
  · split
    · exact h
    rw [wp_bind]
    refine wp_mono (backupListed_catalog env ds fuel _ _ t h) (fun o t₁ h₁ => ?_) (fun _ _ h => h)
    rcases o with _ | st'
    · exact h₁
    · simp only [wp_bind, wp_emit, wp_pure]
      exact h₁.snoc_loop (by rfl)
  · exact snapshotLoop_catalog env ds fuel _ _ _ t h

theorem groupLoop_catalog (fuel : Nat) (latestOnly : Bool) :
    ∀ (st : LoopState) (groups : List BackupGroup) (n : Nat) (t : Trace),
      NeedsCatalog st.needCatalog t →
      wp (groupLoop env ds fuel latestOnly st groups n) (fun st' => NeedsCatalog st'.needCatalog)
        (fun _ t' => ∀ e ∈ t', e.isBeforeCommit) t
  | _, [], _, _, h => h
  | st, group :: rest, n, t, h => by
    simp only [groupLoop, wp_bind]
    exact wp_mono (backupGroup_catalog env ds fuel latestOnly st n group t h)
      (fun st₁ t₁ h₁ => groupLoop_catalog fuel latestOnly st₁ rest (n + 1) t₁ h₁) (fun _ _ h => h)

end Loops

/-! ## The end of the run -/

section Finish

variable (env : Env)

/-- `t'` is `t` followed by a load that returned a medium, an append of the catalog, and any
steps. -/
def AppendedAfterLoad (t t' : Trace) : Prop :=
  ∃ u r B, t' = t ++ .loadWritableMedia (.ok u) :: .appendCatalogArchive r :: B

theorem AppendedAfterLoad.snoc {t t' : Trace} (h : AppendedAfterLoad t t') (e : Event) :
    AppendedAfterLoad t (t' ++ [e]) :=
  have ⟨u, r, B, h⟩ := h
  ⟨u, r, B ++ [e], by simp [h]⟩

/-- The catalog part starts with its load, and appends the catalog right after a load that
returned a medium. -/
theorem writeCatalog_head (t : Trace) :
    wp (writeCatalog env) (fun _ => AppendedAfterLoad t)
      (fun _ t' => (∃ e, t' = t ++ [.loadWritableMedia (.error e)]) ∨ AppendedAfterLoad t t') t := by
  rw [writeCatalog, wp_bind, loadWritableMedia, wp_call]
  split
  next _ u _ =>
    rw [wp_bind, appendCatalogArchive, wp_call]
    split
    next _ done _ =>
      refine wp_mono ((OnlyAppends.ite (c := fun _ => true) (.bind (.call fun _ => rfl) fun _ =>
          .bind (.call fun _ => rfl) fun _ => .bind (.call fun _ => rfl) fun _ =>
          .ite (.bail _) (.pure _)) (.pure _)) _ _ Appends.refl)
        (fun _ _ ⟨Δ, h, _⟩ => ⟨u, .ok done, Δ, by simp [h]⟩)
        (fun _ _ ⟨Δ, h, _⟩ => .inr ⟨u, .ok done, Δ, by simp [h]⟩)
    next _ e _ => exact .inr ⟨u, .error e, [], by simp⟩
  · exact .inl ⟨_, rfl⟩

theorem Event.isCatalogStep_of_isFinishStep {e : Event} (h : e.isFinishStep) :
    e.isCatalogStep = false := by
  cases e <;> first | rfl | cases h

theorem Event.isCatalogStep_of_isCatalogAppend {e : Event} (h : e.isCatalogAppend) :
    e.isCatalogStep := by
  cases e <;> first | rfl | cases h

/-- A run that needs no catalog records steps of the end only. -/
theorem catalogPart_skip {B : Trace} (hf : ∀ e ∈ B, e.isFinishStep) : CatalogPart false B := by
  have hnone : ¬∃ e ∈ B, e.isCatalogStep := fun ⟨e, he, hc⟩ => by
    rw [Event.isCatalogStep_of_isFinishStep (hf e he)] at hc
    cases hc
  refine ⟨fun e he => by simp [Event.isAfterCommit, hf e he], iff_of_false hnone nofun,
    iff_of_false (fun ⟨e, he, hc⟩ => hnone ⟨e, he, Event.isCatalogStep_of_isCatalogAppend hc⟩)
      fun h => Bool.false_ne_true h.1⟩

/-- A catalog whose load returned a medium is appended right after it. -/
theorem catalogPart_written {u : Uuid} {r : Except String Bool} {B : Trace}
    (h : ∀ e ∈ .loadWritableMedia (.ok u) :: .appendCatalogArchive r :: B, e.isAfterCommit) :
    CatalogPart true (.loadWritableMedia (.ok u) :: .appendCatalogArchive r :: B) :=
  ⟨h, iff_of_true ⟨_, List.mem_cons_self _ _, rfl⟩ rfl,
    iff_of_true ⟨_, List.mem_cons_of_mem _ (List.mem_cons_self _ _), rfl⟩ ⟨rfl, u, _, rfl⟩⟩

/-- A catalog whose load failed ends the run before its append. -/
theorem catalogPart_load_failed (e : String) : CatalogPart true [.loadWritableMedia (.error e)] :=
  ⟨List.forall_mem_singleton.2 rfl, iff_of_true ⟨_, List.mem_singleton_self _, rfl⟩ rfl,
    iff_of_false (fun ⟨_, hm, hc⟩ => by rw [List.mem_singleton.1 hm] at hc; cases hc)
      fun ⟨_, _, _, h⟩ => by cases h⟩

/-- The end of a run records after `t` what `CatalogPart` says for the loop's flag. -/
theorem finishBackup_catalog (setup : Setup) (st : LoopState) (t : Trace) :
    wp (finishBackup env setup st) (fun _ t' => ∃ B, t' = t ++ B ∧ CatalogPart st.needCatalog B)
      (fun _ t' => ∃ B, t' = t ++ B ∧ CatalogPart st.needCatalog B) t := by
  cases hneed : st.needCatalog
  · have hfin : wp (finishBackup env setup st) (fun _ => Appends Event.isFinishStep t)
        (fun _ => Appends Event.isFinishStep t) t :=
      @finishBackup_wp env setup st (· = t) _ _ (fun _ h => h)
        (fun h => absurd (hneed.symm.trans h) Bool.false_ne_true) (fun _ _ h => h ▸ Appends.refl)
        (OnlyAppends.call (fun _ => rfl) t) (OnlyAppends.call (fun _ => rfl) t)
        (fun _ _ h => h.snoc rfl) t rfl
    exact wp_mono hfin (fun _ _ ⟨B, hB, hf⟩ => ⟨B, hB, catalogPart_skip hf⟩)
      (fun _ _ ⟨B, hB, hf⟩ => ⟨B, hB, catalogPart_skip hf⟩)
  · have hhead := @finishBackup_wp env setup st (· = t) (AppendedAfterLoad t)
      (fun t' => (∃ e, t' = t ++ [.loadWritableMedia (.error e)]) ∨ AppendedAfterLoad t t')
      (fun _ h => .inr h) (fun _ _ h => h ▸ writeCatalog_head env t)
      (fun h => by simp [hneed] at h)
      (.call (fun _ _ h => h.snoc _) fun _ _ h => .inr (h.snoc _))
      (.call (fun _ _ h => h.snoc _) fun _ _ h => .inr (h.snoc _)) (fun _ _ h => h.snoc _) t rfl
    refine wp_mono (wp_and hhead (finishBackup_only env setup st t t Appends.refl))
      (fun _ _ ⟨⟨u, r, B, h⟩, ⟨B', h', hB'⟩⟩ => ?_) (fun _ _ ⟨hh, ⟨B', h', hB'⟩⟩ => ?_)
    · obtain rfl : B' = _ := List.append_cancel_left (h'.symm.trans h)
      exact ⟨_, h, catalogPart_written hB'⟩
    · refine ⟨B', h', ?_⟩
      rcases hh with ⟨e, h⟩ | ⟨u, r, B, h⟩ <;> obtain rfl := List.append_cancel_left (h'.symm.trans h)
      · exact catalogPart_load_failed e
      · exact catalogPart_written hB'

end Finish

/-! ## The run -/

/-- `T` records the commit between the trace of the group loop and the end of the run, as
`NeedsCatalog` and `CatalogPart` say for one flag. -/
def CommittedWithCatalog (T : Trace) : Prop :=
  ∃ need A B, T = A ++ .commit (.ok ()) :: B ∧ NeedsCatalog need A ∧ CatalogPart need B

/-- A split of a trace at a step that occurs nowhere else is the only one. -/
theorem append_cons_unique {x : Event} :
    ∀ {A B A' B' : Trace}, x ∉ A → x ∉ B → A ++ x :: B = A' ++ x :: B' → A = A' ∧ B = B'
  | [], _, [], _, _, _, h => ⟨rfl, (List.cons.inj h).2⟩
  | [], _, _ :: _, _, _, hB, h => by
    obtain ⟨rfl, rfl⟩ := List.cons.inj h
    simp at hB
  | _ :: _, _, [], _, hA, _, h => by
    obtain ⟨rfl, -⟩ := List.cons.inj h
    simp at hA
  | _ :: _, _, _ :: _, _, hA, hB, h => by
    obtain ⟨rfl, h'⟩ := List.cons.inj h
    obtain ⟨rfl, rfl⟩ := append_cons_unique (List.not_mem_of_not_mem_cons hA) hB h'
    exact ⟨rfl, rfl⟩

section

variable (env : Env) (ds : Datastore)

/-- Every run of `backup_worker` stops before the commit with steps of the loop and of
`backup_snapshot` only, fails in the commit, or records the commit as
`CommittedWithCatalog` says. -/
theorem backupWorker_catalog (setup : Setup) (forceMediaSet : Bool) (fuel : Nat) :
    wp (backupWorker env ds setup forceMediaSet fuel) (fun _ => CommittedWithCatalog)
      (fun _ T => (∀ e ∈ T, e.isBeforeCommit) ∨
        (∃ A e, T = A ++ [.commit (.error e)] ∧ ∀ x ∈ A, x.isBeforeCommit) ∨
        CommittedWithCatalog T) [] :=
  backupWorker_wp env ds setup forceMediaSet fuel (P := (· = []))
    (L := fun st A => NeedsCatalog st.needCatalog A) (fun _ _ h => .inl (h ▸ List.forall_mem_nil _))
    (fun _ _ _ _ _ h => wp_mono (groupLoop_catalog env ds fuel _ _ _ 0 _ (h ▸ needsCatalog_nil))
      (fun _ _ h => h) (fun _ _ h => .inl h))
    (fun st A hA => wp_mono (finishBackup_catalog env setup st _)
      (fun _ _ ⟨B, hB, hpart⟩ => ⟨_, A, B, by simpa using hB, hA, hpart⟩)
      (fun _ _ ⟨B, hB, hpart⟩ => .inr (.inr ⟨_, A, B, by simpa using hB, hA, hpart⟩)))
    (fun _ A _ hA => .inr (.inl ⟨A, _, rfl, hA.1⟩)) [] rfl

end

/-- Every run of `backup_worker` that gets past the commit of the pool has catalog steps
after it exactly when a snapshot was passed to `backup_snapshot` before it, and appends the
catalog exactly when also the catalog's load, the first step after the commit, returned a
medium; every chunk or snapshot archive is appended after a snapshot was passed. -/
theorem catalog_iff_snapshot_passed (env : Env) (ds : Datastore) (setup : Setup)
    (forceMediaSet : Bool) (fuel : Nat) (A B : Trace)
    (hT : runTrace (backupWorker env ds setup forceMediaSet fuel) = A ++ .commit (.ok ()) :: B) :
    ((∃ e ∈ B, e.isCatalogStep) ↔ passedSnapshots A ≠ []) ∧
    ((∃ e ∈ B, e.isCatalogAppend) ↔
      passedSnapshots A ≠ [] ∧ ∃ u B', B = .loadWritableMedia (.ok u) :: B') ∧
    (∀ pre e post, A = pre ++ e :: post → e.isArchiveAppend → passedSnapshots pre ≠ []) := by
  have h := runTrace_of_wp _ (wp_mono (backupWorker_catalog env ds setup forceMediaSet fuel)
    (fun _ _ h => .inr (.inr h)) (fun _ _ h => h))
  rw [hT] at h
  rcases h with h | ⟨A', e, h, hA'⟩ | ⟨need, A', B', h, hneed, hpart⟩
  · exact absurd (h _ (List.mem_append_right _ (List.mem_cons_self _ _))) Bool.false_ne_true
  · rcases List.mem_append.1 (h ▸ List.mem_append_right A (List.mem_cons_self _ B)) with hm | hm
    · exact absurd (hA' _ hm) Bool.false_ne_true
    · cases List.mem_singleton.1 hm
  obtain ⟨rfl, rfl⟩ := append_cons_unique (x := .commit (.ok ()))
    (fun hm => Bool.false_ne_true (hneed.1 _ hm))
    (fun hm => Bool.false_ne_true (hpart.1 _ hm)) h.symm
  exact ⟨hpart.2.1.trans hneed.2.1, hpart.2.2.trans (and_congr_left fun _ => hneed.2.1),
    hneed.2.2⟩

/-- A datastore whose only snapshot vanished after it was listed: it cannot be opened, and
its directory is gone. -/
def vanishedDatastore : Datastore :=
  { vmDatastore [0] with lockedReader := fun _ => .error "not found", fullPathExists := fun _ => false }

theorem vanished_catalog_iff_passed :
    ∃ A B, runTrace (backupWorker (steadyEnv twoChunks) vanishedDatastore plainSetup false 3) =
        A ++ .commit (.ok ()) :: B ∧
      ((∃ e ∈ B, e.isCatalogStep) ↔ passedSnapshots A ≠ []) ∧
      ((∃ e ∈ B, e.isCatalogAppend) ↔
        passedSnapshots A ≠ [] ∧ ∃ u B', B = .loadWritableMedia (.ok u) :: B') ∧
      (∀ pre e post, A = pre ++ e :: post → e.isArchiveAppend → passedSnapshots pre ≠ []) :=
  have hT : runTrace (backupWorker (steadyEnv twoChunks) vanishedDatastore plainSetup false 3) =
      [.containsSnapshot (vmSnapshot 0) false, .backupSnapshot (vmSnapshot 0),
        .snapshotResult .ignored, .percentageDone ⟨0, 1, 1, 1⟩] ++ .commit (.ok ()) ::
      [.loadWritableMedia (.ok ⟨0⟩), .appendCatalogArchive (.ok true),
        .getUsedMediaLabels (.ok [])] := rfl
  ⟨_, _, hT, catalog_iff_snapshot_passed _ _ _ _ _ _ _ hT⟩

/-- A run whose only snapshot vanished appends no chunk or snapshot archive, yet gets past
the commit and appends the catalog. -/
theorem catalog_written_without_archive :
    ∃ A B, runTrace (backupWorker (steadyEnv twoChunks) vanishedDatastore plainSetup false 3) =
        A ++ .commit (.ok ()) :: B ∧
      (∀ e ∈ A ++ .commit (.ok ()) :: B, e.isArchiveAppend = false) ∧
      ∃ e ∈ B, e.isCatalogAppend :=
  ⟨[.containsSnapshot (vmSnapshot 0) false, .backupSnapshot (vmSnapshot 0),
      .snapshotResult .ignored, .percentageDone ⟨0, 1, 1, 1⟩],
    [.loadWritableMedia (.ok ⟨0⟩), .appendCatalogArchive (.ok true), .getUsedMediaLabels (.ok [])],
    rfl, @of_decide_eq_true _ (List.decidableBAll _ _) rfl, _,
    List.mem_cons_of_mem _ (List.mem_cons_self _ _), rfl⟩

end PbsCloudBackup.Backup
