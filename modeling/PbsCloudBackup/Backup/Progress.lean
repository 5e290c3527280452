import PbsCloudBackup.Backup.Invariant
import Mathlib.Algebra.Order.Field.Rat
import Mathlib.Tactic.Positivity
/-!
# Progress of the store

The group loop of `backup_worker` logs a `StoreProgress` ('percentage done') after each
snapshot it backed up: the index of the current group, and how many of its snapshots are
done out of how many it lists, one in latest-only mode. Read as the rational `fraction`, the
logged values grow strictly and stay at most one (`progress_never_backwards`).

`ProgressBelow T b t` says that the values logged in `t` are well formed for `T` groups, grow
strictly, and are at most `b`. Before snapshot `m` of group `g` of `n` the bound is
`fraction ⟨g, m, n, T⟩`, and after group `g` it is `(g + 1) / T`. A listed snapshot logs
nothing and keeps the loop state's progress (`backupListed_progress`), so each logged value
exceeds the bound before it.
-/

namespace PbsCloudBackup.Backup

namespace StoreProgress

/-- Modelled from the spec: the share of the job done, `done_groups / total_groups` plus the
share of the current group, `done_snapshots / (group_snapshots * total_groups)`. -/
def fraction (p : StoreProgress) : ℚ :=
  p.doneGroups / p.totalGroups + p.doneSnapshots / (p.groupSnapshots * p.totalGroups)

/-- Modelled from the spec: a logged value names one of the groups, and at least one and at
most all of its snapshots. -/
def WellFormed (p : StoreProgress) : Prop :=
  p.doneGroups < p.totalGroups ∧ 1 ≤ p.doneSnapshots ∧ p.doneSnapshots ≤ p.groupSnapshots

instance : DecidablePred WellFormed := fun _ => inferInstanceAs (Decidable (_ ∧ _ ∧ _))

@[simp] theorem fraction_mk (g k n T : Nat) :
    fraction ⟨g, k, n, T⟩ = g / T + k / (n * T) := rfl

theorem fraction_le_fraction {g m m' n T : Nat} (h : m ≤ m') :
    fraction ⟨g, m, n, T⟩ ≤ fraction ⟨g, m', n, T⟩ :=
  add_le_add_left (div_le_div_of_nonneg_right (Nat.cast_le.2 h) (by positivity)) _

theorem fraction_lt_fraction {g m m' n T : Nat} (h : m < m') (hn : 0 < n) (hT : 0 < T) :
    fraction ⟨g, m, n, T⟩ < fraction ⟨g, m', n, T⟩ :=
  add_lt_add_left (div_lt_div_of_pos_right (Nat.cast_lt.2 h) (by positivity)) _

/-- All snapshots of group `g` done is group `g` done. -/
theorem fraction_full {g n : Nat} (T : Nat) (hn : 0 < n) :
    fraction ⟨g, n, n, T⟩ = (g + 1) / T := by
  rw [fraction_mk, add_div, mul_comm, ← div_div, div_right_comm,
    div_self (Nat.cast_ne_zero.2 hn.ne')]

theorem fraction_le_next_group {g m n T : Nat} (h : m ≤ n) :
    fraction ⟨g, m, n, T⟩ ≤ (g + 1) / T := by
  rcases Nat.eq_zero_or_pos n with rfl | hn
  · simp only [Nat.le_zero.1 h, fraction_mk, Nat.cast_zero, zero_div, add_zero]
    exact div_le_div_of_nonneg_right (le_add_of_nonneg_right zero_le_one) (Nat.cast_nonneg _)
  · exact fraction_full T hn ▸ fraction_le_fraction h

theorem fraction_le_one {p : StoreProgress} (h : p.WellFormed) : p.fraction ≤ 1 := by
  obtain ⟨g, k, n, T⟩ := p
  calc fraction ⟨g, k, n, T⟩ ≤ (g + 1) / T := fraction_le_next_group h.2.2
    _ ≤ 1 := div_le_one_of_le₀ (by exact_mod_cast h.1) (Nat.cast_nonneg _)

end StoreProgress

open StoreProgress

/-- The progress a step logs. -/
@[simp] def Event.progress? : Event → Option StoreProgress
  | .percentageDone p => some p
  | _ => none

/-- The progress values logged, oldest first. -/
def progressLog (t : Trace) : List StoreProgress := t.filterMap Event.progress?

@[simp] theorem progressLog_nil : progressLog [] = [] := rfl

@[simp] theorem progressLog_append (t l : Trace) :
    progressLog (t ++ l) = progressLog t ++ progressLog l :=
  List.filterMap_append _ _ _

@[simp] theorem progressLog_cons (e : Event) (t : Trace) :
    progressLog (e :: t) = e.progress?.toList ++ progressLog t := by
  simp only [progressLog, List.filterMap_cons]
  cases e.progress? <;> rfl

theorem progressLog_snoc_quiet {e : Event} (he : e.progress? = none) (t : Trace) :
    progressLog (t ++ [e]) = progressLog t := by
  rw [progressLog_append, progressLog_cons, he, Option.toList_none, progressLog_nil,
    List.append_nil, List.append_nil]

/-! ## The invariant -/

/-- The values logged in `t` are well formed for `T` groups, and their fractions grow
strictly. -/
def ProgressSound (T : Nat) (t : Trace) : Prop :=
  (∀ p ∈ progressLog t, p.WellFormed ∧ p.totalGroups = T) ∧
  ((progressLog t).map fraction).Sorted (· < ·)

/-- The values logged in `t` are sound for `T` groups, and none exceeds `b`. -/
def ProgressBelow (T : Nat) (b : ℚ) (t : Trace) : Prop :=
  ProgressSound T t ∧ ∀ p ∈ progressLog t, p.fraction ≤ b

section

variable {T : Nat} {b : ℚ} {t : Trace}

theorem ProgressBelow.mono (h : ProgressBelow T b t) {b' : ℚ} (hb : b ≤ b') :
    ProgressBelow T b' t :=
  ⟨h.1, fun p hp => (h.2 p hp).trans hb⟩

theorem ProgressSound.snoc (h : ProgressSound T t) {e : Event} (he : e.progress? = none) :
    ProgressSound T (t ++ [e]) := by
  unfold ProgressSound
  rwa [progressLog_snoc_quiet he]

theorem ProgressBelow.snoc (h : ProgressBelow T b t) {e : Event} (he : e.progress? = none) :
    ProgressBelow T b (t ++ [e]) := by
  unfold ProgressBelow ProgressSound
  rwa [progressLog_snoc_quiet he]

/-- Logging a well-formed value above the bound keeps the log sound, with the value as the
new bound. -/
theorem ProgressBelow.log (h : ProgressBelow T b t) {p : StoreProgress} (hwf : p.WellFormed)
    (hT : p.totalGroups = T) (hlt : b < p.fraction) :
    ProgressBelow T p.fraction (t ++ [.percentageDone p]) := by
  obtain ⟨⟨hall, hsorted⟩, hle⟩ := h
  have hlog : progressLog (t ++ [.percentageDone p]) = progressLog t ++ [p] := by simp
  refine ⟨⟨?_, ?_⟩, ?_⟩ <;> rw [hlog]
  · exact List.forall_mem_append.2 ⟨hall, List.forall_mem_singleton.2 ⟨hwf, hT⟩⟩
  · rw [List.map_append, List.map_singleton]
    refine List.pairwise_append.2 ⟨hsorted, List.pairwise_singleton _ _, fun a ha c hc => ?_⟩
    obtain ⟨q, hq, rfl⟩ := List.mem_map.1 ha
    exact List.mem_singleton.1 hc ▸ (hle q hq).trans_lt hlt
  · exact List.forall_mem_append.2
      ⟨fun q hq => (hle q hq).trans hlt.le, List.forall_mem_singleton.2 le_rfl⟩

/-- A job that records only steps logging nothing keeps the log. -/
theorem ProgressSound.keeps {α : Type} {c : Event → Bool} {m : Job α} (hm : OnlyAppends c m)
    (hc : ∀ e, c e → e.progress? = none) : Keeps (ProgressSound T) (ProgressSound T) m :=
  hm.keeps fun _ e he h => h.snoc (hc e he)

theorem ProgressBelow.keeps {α : Type} {c : Event → Bool} {m : Job α} (hm : OnlyAppends c m)
    (hc : ∀ e, c e → e.progress? = none) : Keeps (ProgressBelow T b) (ProgressBelow T b) m :=
  hm.keeps fun _ e he h => h.snoc (hc e he)

end

/-! ## The loops -/

theorem Event.progress?_of_isSnapshotStep {e : Event} (h : e.isSnapshotStep) :
    e.progress? = none := by
  cases e <;> first | rfl | cases h

theorem Event.progress?_of_isFinishPart {e : Event} (h : e.isCatalogStep || e.isFinishStep) :
    e.progress? = none := by
  cases e <;> first | rfl | cases h

section

variable (env : Env) (ds : Datastore) {T : Nat}

/-- A listed snapshot logs no progress, and returns the loop state with the progress it was
given. -/
theorem backupListed_progress {b : ℚ} (fuel : Nat) (st : LoopState) (info : BackupInfo)
    (t : Trace) (h : ProgressBelow T b t) :
    wp (backupListed env ds fuel st info)
      (fun o t' => ProgressBelow T b t' ∧ ∀ st', o = some st' → st'.progress = st.progress)
      (fun _ => ProgressBelow T b) t := by
  simp only [backupListed, wp_bind, wp_ask]
  split
  · exact ⟨h.snoc (by rfl), nofun⟩
  · rw [wp_bind]
    refine wp_mono (ProgressBelow.keeps (backupSnapshot_only env ds fuel _)
      (fun _ => Event.progress?_of_isSnapshotStep) _ (h.snoc (by rfl))) (fun r t₁ h₁ => ?_)
      (fun _ _ h => h)
    cases r <;> simp only [wp_bind, wp_emit, wp_pure]
    · exact ⟨(h₁.snoc (by rfl)).snoc (by rfl), fun _ h => by cases h; rfl⟩
    all_goals exact ⟨h₁.snoc (by rfl), fun _ h => by cases h; rfl⟩

/-- The snapshot loop over snapshots `m` to `n - 1` of group `g` logs values above
`fraction ⟨g, m, n, T⟩` and at most `(g + 1) / T`, and keeps the group in the state. -/
theorem snapshotLoop_progress (fuel g n : Nat) (hg : g < T) :
    ∀ (st : LoopState) (infos : List BackupInfo) (m : Nat) (t : Trace),
      (∃ k, st.progress = ⟨g, k, n, T⟩) → m + infos.length = n →
      ProgressBelow T (fraction ⟨g, m, n, T⟩) t →
      wp (snapshotLoop env ds fuel st infos m)
        (fun st' t' => (∃ k, st'.progress = ⟨g, k, n, T⟩) ∧ ProgressBelow T ((g + 1) / T) t')
        (fun _ => ProgressBelow T ((g + 1) / T)) t
  | _, [], _, _, hst, hm, h => ⟨hst, h.mono (fraction_le_next_group (by simp at hm; omega))⟩
  | st, info :: rest, m, t, ⟨k, hst⟩, hm, h => by
    simp only [List.length_cons] at hm
    simp only [snapshotLoop, wp_bind]
    refine wp_mono (backupListed_progress env ds fuel st info t h) (fun o t₁ ⟨h₁, hst₁⟩ => ?_)
      (fun _ _ h => h.mono (fraction_le_next_group (by omega)))
    rcases o with _ | st'
    · exact snapshotLoop_progress fuel g n hg st rest (m + 1) t₁ ⟨k, hst⟩ (by omega)
        (h₁.mono (fraction_le_fraction (Nat.le_succ m)))
    · simp only [wp_bind, wp_emit, (hst₁ st' rfl).trans hst]
      exact snapshotLoop_progress fuel g n hg _ rest (m + 1) _ ⟨m + 1, rfl⟩ (by omega)
        (h₁.log ⟨hg, Nat.succ_pos m, by dsimp only; omega⟩ rfl
          (fraction_lt_fraction (Nat.lt_succ_self m) (by omega) (by omega)))

/-- Group `g` of the loop logs values above `g / T` and at most `(g + 1) / T`. -/
theorem backupGroup_progress (fuel : Nat) (latestOnly : Bool) (st : LoopState) (g : Nat)
    (group : BackupGroup) (t : Trace) (hT : st.progress.totalGroups = T) (hg : g < T)
    (h : ProgressBelow T (g / T) t) :
    wp (backupGroup env ds fuel latestOnly st g group)
      (fun st' t' => st'.progress.totalGroups = T ∧ ProgressBelow T ((g + 1) / T) t')
      (fun _ => ProgressBelow T ((g + 1) / T)) t := by
  have hstep : (g / T : ℚ) < (g + 1) / T :=
    div_lt_div_of_pos_right (lt_add_one _) (Nat.cast_pos.2 (Nat.zero_lt_of_lt hg))
  simp only [backupGroup, wp_bind, wp_lift]
  split
  swap
  · exact h.mono hstep.le
  split
  · exact ⟨hT, h.mono hstep.le⟩
  split
  · split
    · exact ⟨hT, h.mono hstep.le⟩
    rw [wp_bind]
    refine wp_mono (backupListed_progress env ds fuel _ _ t h) (fun o t₁ ⟨h₁, hst₁⟩ => ?_)
      (fun _ _ h => h.mono hstep.le)
    rcases o with _ | st'
    · exact ⟨hT, h₁.mono hstep.le⟩
    simp only [wp_bind, wp_emit, wp_pure, hst₁ st' rfl, hT]
    exact ⟨trivial, fraction_full T one_pos ▸
      h₁.log ⟨hg, le_rfl, le_rfl⟩ rfl (fraction_full T one_pos ▸ hstep)⟩
  · exact wp_mono (snapshotLoop_progress env ds fuel g _ hg _ _ 0 t ⟨0, by rw [hT]⟩ (by simp)
      (by simpa using h)) (fun _ _ h' => ⟨h'.1.elim fun _ hk => by rw [hk], h'.2⟩) (fun _ _ h => h)

/-- The group loop from group `n` of `T` logs values above `n / T`. -/
theorem groupLoop_progress (fuel : Nat) (latestOnly : Bool) :
    ∀ (st : LoopState) (groups : List BackupGroup) (n : Nat) (t : Trace),
      st.progress.totalGroups = T → n + groups.length = T → ProgressBelow T (n / T) t →
      wp (groupLoop env ds fuel latestOnly st groups n) (fun _ => ProgressSound T)
        (fun _ => ProgressSound T) t
  | _, [], _, _, _, _, h => h.1
  | st, group :: rest, n, t, hT, hn, h => by
    simp only [List.length_cons] at hn
    simp only [groupLoop, wp_bind]
    exact wp_mono (backupGroup_progress env ds fuel latestOnly st n group t hT (by omega) h)
      (fun st₁ t₁ ⟨hT₁, h₁⟩ => groupLoop_progress fuel latestOnly st₁ rest (n + 1) t₁ hT₁
        (by omega) (by rwa [Nat.cast_succ]))
      (fun _ _ h => h.1)

/-- Every run of `backup_worker` logs sound progress for the number of its groups. -/
theorem backupWorker_progress (setup : Setup) (forceMediaSet : Bool) (fuel : Nat) :
    wp (backupWorker env ds setup forceMediaSet fuel) (fun _ t => ∃ T, ProgressSound T t)
      (fun _ t => ∃ T, ProgressSound T t) [] := by
  have hquiet : ∀ {T : Nat} {b : ℚ} {t : Trace}, progressLog t = [] → ProgressBelow T b t :=
    fun h => by simp [ProgressBelow, ProgressSound, h]
  exact backupWorker_wp env ds setup forceMediaSet fuel (P := fun t => progressLog t = [])
    (L := fun _ t => ∃ T, ProgressSound T t) (fun _ _ h => ⟨0, (hquiet (b := 0) h).1⟩)
    (fun _ _ _ _ t h => wp_mono (groupLoop_progress env ds fuel _ _ _ 0 t rfl
      (by simp [StoreProgress.new]) (hquiet h)) (fun _ _ h => ⟨_, h⟩) (fun _ _ h => ⟨_, h⟩))
    (fun st _ ⟨_, h₁⟩ => wp_mono (ProgressSound.keeps (finishBackup_only env setup st)
      (fun _ => Event.progress?_of_isFinishPart) _ (h₁.snoc rfl)) (fun _ _ h => ⟨_, h⟩)
      (fun _ _ h => ⟨_, h⟩))
    (fun _ _ _ ⟨_, h₁⟩ => ⟨_, h₁.snoc rfl⟩) [] rfl

end

/-- In every run of `backup_worker`, in both modes and whether it returns or fails, every
logged progress names one of the run's `T` groups and at least one and at most all of the
group's snapshots, so `group_snapshots` is never zero; the logged fractions grow strictly,
and none exceeds one. -/
theorem progress_never_backwards (env : Env) (ds : Datastore) (setup : Setup)
    (forceMediaSet : Bool) (fuel : Nat) :
    ∃ T, (∀ p ∈ progressLog (runTrace (backupWorker env ds setup forceMediaSet fuel)),
        p.WellFormed ∧ p.totalGroups = T ∧ p.fraction ≤ 1) ∧
      ((progressLog (runTrace (backupWorker env ds setup forceMediaSet fuel))).map
        fraction).Sorted (· < ·) :=
  have ⟨T, hall, hsorted⟩ := runTrace_of_wp _ (backupWorker_progress env ds setup forceMediaSet fuel)
  ⟨T, fun p hp => ⟨(hall p hp).1, (hall p hp).2, fraction_le_one (hall p hp).1⟩, hsorted⟩

end PbsCloudBackup.Backup
