import PbsCloudBackup.Backup.Invariant
/-!
# Which snapshots the group loop passes on

The group loop of `backup_worker` walks the groups of the enumerated namespaces, sorted by
identity and filtered, and of each group its finished snapshots, oldest first or the newest
alone. It asks the media set about each, passes those it does not hold to `backup_snapshot`,
and pushes the path of each that returned success to `summary.snapshot_list`.

The selection steps of a trace (`selection`) are the four kinds of event that show this.
`Handled` says, constructor by constructor, what the steps of a loop that handled a list of
snapshots to its end are, and `HandledUntilFailure` what they are when a `backup_snapshot`
call failed. Each layer of the loop records one of the two (`backupListed_selection`,
`snapshotLoop_selection`, `backupGroup_selection`, `groupLoop_selection`), and
`backupWorker_selection` lifts this to the run. `ReferenceSelection` is the selection as the
spec words it, up to the order of equal keys; `loopCandidates_reference` proves that the
code's candidates are one, and `backupWorker_follows_reference` states the result in the
words of the code.
-/

namespace PbsCloudBackup.Backup

namespace Event

/-- A step that shows how the group loop handled a listed snapshot: the media set's answer,
the entry into `backup_snapshot`, its result, and the push to the summary. -/
def isSelectionStep : Event → Bool
  | containsSnapshot _ _ | backupSnapshot _ | snapshotResult _ | summaryPush _ => true
  | _ => false

/-- The snapshot the media set was asked about, with its answer. -/
@[simp] def asked? : Event → Option (BackupDir × Bool)
  | containsSnapshot d r => some (d, r)
  | _ => none

/-- The snapshot passed to `backup_snapshot`. -/
@[simp] def passed? : Event → Option BackupDir
  | backupSnapshot d => some d
  | _ => none

/-- The result `backup_snapshot` returned. -/
@[simp] def result? : Event → Option SnapshotBackupResult
  | snapshotResult r => some r
  | _ => none

/-- The path pushed to `summary.snapshot_list`. -/
@[simp] def pushed? : Event → Option String
  | summaryPush p => some p
  | _ => none

/-- A result of `backup_snapshot` that sets the run's `errors`. -/
@[simp] def isErrorResult : Event → Bool
  | snapshotResult .error => true
  | _ => false

end Event

/-- The snapshots the media set was asked about with `contains_snapshot`, with its answers. -/
def askedSnapshots (T : Trace) : List (BackupDir × Bool) := T.filterMap Event.asked?

/-- The snapshots passed to `backup_snapshot`. -/
def passedSnapshots (T : Trace) : List BackupDir := T.filterMap Event.passed?

/-- The results `backup_snapshot` returned. -/
def snapshotResults (T : Trace) : List SnapshotBackupResult := T.filterMap Event.result?

/-- `summary.snapshot_list`. -/
def snapshotList (T : Trace) : List String := T.filterMap Event.pushed?

/-- The snapshots passed to `backup_snapshot` are those the media set was asked about and did
not hold, in order, and `summary.snapshot_list` holds the paths of those that returned
success. -/
def PassedAsAnswered (relPath : BackupDir → String) (T : Trace) : Prop :=
  passedSnapshots T = ((askedSnapshots T).filter (!·.2)).map Prod.fst ∧
    snapshotList T =
      (((passedSnapshots T).zip (snapshotResults T)).filter (·.2 = .success)).map (relPath ·.1)

/-- The selection steps of a trace. -/
def selection (t : Trace) : List Event := t.filter Event.isSelectionStep

@[simp] theorem selection_append (t l : Trace) :
    selection (t ++ l) = selection t ++ selection l := by
  simp [selection]

@[simp] theorem selection_nil : selection [] = [] := rfl

@[simp] theorem selection_cons (e : Event) (t : Trace) :
    selection (e :: t) = if e.isSelectionStep then e :: selection t else selection t :=
  List.filter_cons

theorem selection_snoc_of_not {t : Trace} {e : Event} (he : e.isSelectionStep = false) :
    selection (t ++ [e]) = selection t := by
  rw [selection_append, selection_cons, he, if_neg Bool.false_ne_true, selection_nil,
    List.append_nil]

/-- What the summary gets for a snapshot at `relPath` that `backup_snapshot` returned `r`
for. -/
def pushFor (relPath : String) : SnapshotBackupResult → List Event
  | .success => [.summaryPush relPath]
  | _ => []

/-- The selection steps of a group loop that handled each of the listed snapshots `cs` to its
end: one the media set holds is skipped; any other is passed to `backup_snapshot`, whose
result is recorded, and pushed to the summary under its path when the result is success. -/
inductive Handled (relPath : BackupDir → String) : List BackupDir → List Event → Prop
  | nil : Handled relPath [] []
  | skip {d : BackupDir} {cs : List BackupDir} {l : List Event} :
    Handled relPath cs l → Handled relPath (d :: cs) (.containsSnapshot d true :: l)
  | pass {d : BackupDir} {cs : List BackupDir} {l : List Event} (r : SnapshotBackupResult) :
    Handled relPath cs l →
    Handled relPath (d :: cs) (.containsSnapshot d false :: .backupSnapshot d ::
      .snapshotResult r :: (pushFor (relPath d) r ++ l))

/-- The selection steps of a group loop that stopped in `backup_snapshot`: it handled the
listed snapshots up to some point, then passed the next one to `backup_snapshot`, which
failed. -/
def HandledUntilFailure (relPath : BackupDir → String) (cs : List BackupDir) (l : List Event) :
    Prop :=
  ∃ cs₁ d cs₂ l₁, cs = cs₁ ++ d :: cs₂ ∧ Handled relPath cs₁ l₁ ∧
    l = l₁ ++ [.containsSnapshot d false, .backupSnapshot d]

section Handled

variable {relPath : BackupDir → String}

theorem Handled.append {cs₁ cs₂ : List BackupDir} {l₁ l₂ : List Event}
    (h₁ : Handled relPath cs₁ l₁) (h₂ : Handled relPath cs₂ l₂) :
    Handled relPath (cs₁ ++ cs₂) (l₁ ++ l₂) := by
  induction h₁ with
  | nil => exact h₂
  | skip _ ih => exact .skip ih
  | pass r _ ih => simpa using Handled.pass r ih

theorem HandledUntilFailure.first (d : BackupDir) (cs : List BackupDir) :
    HandledUntilFailure relPath (d :: cs) [.containsSnapshot d false, .backupSnapshot d] :=
  ⟨[], d, cs, [], rfl, .nil, rfl⟩

theorem Handled.append_failure {cs₁ cs₂ : List BackupDir} {l₁ l₂ : List Event}
    (h₁ : Handled relPath cs₁ l₁) (h₂ : HandledUntilFailure relPath cs₂ l₂) :
    HandledUntilFailure relPath (cs₁ ++ cs₂) (l₁ ++ l₂) := by
  obtain ⟨c₁, d, c₂, l, rfl, hl, rfl⟩ := h₂
  exact ⟨cs₁ ++ c₁, d, c₂, l₁ ++ l, by simp, h₁.append hl, by simp⟩

/-- Handling the listed snapshots to their end, in the words of the code: the media set was
asked about each of them in order, and each snapshot passed to `backup_snapshot` returned a
result. -/
theorem Handled.words {cs : List BackupDir} {l : List Event} (h : Handled relPath cs l) :
    (askedSnapshots l).map Prod.fst = cs ∧
      (passedSnapshots l).length = (snapshotResults l).length ∧ PassedAsAnswered relPath l := by
  simp only [PassedAsAnswered, askedSnapshots, passedSnapshots, snapshotResults, snapshotList]
  induction h with
  | nil => simp
  | skip _ ih => simpa using ih
  | pass r _ ih =>
    obtain ⟨h₁, h₂, h₃, h₄⟩ := ih
    cases r <;> simp_all [pushFor]

/-- A loop that stopped in `backup_snapshot`, in the words of the code: the media set was
asked about a prefix of the listed snapshots, and the last snapshot passed to
`backup_snapshot` got no result and is the last selection step. -/
theorem HandledUntilFailure.words {cs : List BackupDir} {l : List Event}
    (h : HandledUntilFailure relPath cs l) :
    (askedSnapshots l).map Prod.fst <+: cs ∧
      (passedSnapshots l).length = (snapshotResults l).length + 1 ∧
      (∃ d, l.getLast? = some (.backupSnapshot d)) ∧ PassedAsAnswered relPath l := by
  obtain ⟨cs₁, d, cs₂, l₁, rfl, hl, rfl⟩ := h
  obtain ⟨h₁, h₃, h₂, h₄⟩ := hl.words
  simp only [PassedAsAnswered, askedSnapshots, passedSnapshots, snapshotResults,
    snapshotList] at *
  refine ⟨⟨cs₂, by simp [h₁]⟩, by simp [h₃], ⟨d, by simp⟩, by simp [h₂], ?_⟩
  have hz := @List.zip_append _ _ _ [d] _ [] h₃
  simp only [List.append_nil, List.zip_nil_right] at hz
  simp [h₄, hz]

theorem HandledUntilFailure.append_right {cs : List BackupDir} {l : List Event}
    (h : HandledUntilFailure relPath cs l) (cs' : List BackupDir) :
    HandledUntilFailure relPath (cs ++ cs') l := by
  obtain ⟨c₁, d, c₂, l₁, rfl, hl, rfl⟩ := h
  exact ⟨c₁, d, c₂ ++ cs', l₁, by simp, hl, rfl⟩

end Handled

theorem selection_eq_nil {Δ : Trace} (h : ∀ e ∈ Δ, e.isSnapshotCall) : selection Δ = [] :=
  List.filter_eq_nil_iff.2 fun e he => by
    have := h e he
    cases e <;> first | exact Bool.false_ne_true | cases this

section Loops

variable (env : Env) (ds : Datastore)

/-- `backup_snapshot` adds its entry to the selection steps, and nothing else. -/
theorem backupSnapshot_selection (fuel : Nat) (dir : BackupDir) (t : Trace) :
    wp (backupSnapshot env ds fuel dir)
      (fun _ t' => selection t' = selection t ++ [.backupSnapshot dir])
      (fun _ t' => selection t' = selection t ++ [.backupSnapshot dir]) t := by
  have key : ∀ t', Appends Event.isSnapshotCall (t ++ [.backupSnapshot dir]) t' →
      selection t' = selection t ++ [.backupSnapshot dir] := by
    rintro _ ⟨Δ, rfl, hΔ⟩
    simp [Event.isSelectionStep, selection_eq_nil hΔ]
  exact wp_mono (backupSnapshot_entry env ds fuel dir t) (fun _ => key) (fun _ => key)

/-- One listed snapshot: skipped, or passed to `backup_snapshot` with its result recorded and,
on success, its path pushed; a failing `backup_snapshot` stops after its entry. -/
theorem backupListed_selection (fuel : Nat) (st : LoopState) (info : BackupInfo) (t : Trace) :
    wp (backupListed env ds fuel st info)
      (fun o t' =>
        (o = none ∧ selection t' = selection t ++ [.containsSnapshot info.backupDir true]) ∨
          ∃ r st', o = some st' ∧
            st'.errors = (st.errors || (Event.snapshotResult r).isErrorResult) ∧
            selection t' = selection t ++ .containsSnapshot info.backupDir false ::
              .backupSnapshot info.backupDir :: .snapshotResult r ::
              pushFor (env.printNsAndSnapshot info.backupDir) r)
      (fun _ t' => selection t' = selection t ++
        [.containsSnapshot info.backupDir false, .backupSnapshot info.backupDir]) t := by
  simp only [backupListed, wp_bind, wp_ask]
  split
  · rename_i hc
    exact .inl ⟨rfl, by simp [Event.isSelectionStep, hc]⟩
  · rename_i hc
    simp only [Bool.not_eq_true] at hc
    rw [wp_bind]
    refine wp_mono (backupSnapshot_selection env ds fuel _ _) (fun r t₁ hs => ?_)
      (fun _ t₁ hs => by simp [hs, Event.isSelectionStep, hc])
    cases r
    · exact .inr ⟨.success, _, rfl, by simp, by simp [hs, hc, pushFor, Event.isSelectionStep]⟩
    · exact .inr ⟨.error, _, rfl, by simp, by simp [hs, hc, pushFor, Event.isSelectionStep]⟩
    · exact .inr ⟨.ignored, _, rfl, by simp, by simp [hs, hc, pushFor, Event.isSelectionStep]⟩

/-- The snapshot loop handles every listed snapshot in order, or stops in `backup_snapshot`
after the ones before it; `errors` records every error result. -/
theorem snapshotLoop_selection (fuel : Nat) :
    ∀ (st : LoopState) (infos : List BackupInfo) (n : Nat) (t : Trace),
    wp (snapshotLoop env ds fuel st infos n)
      (fun st' t' => ∃ l, selection t' = selection t ++ l ∧
        Handled env.printNsAndSnapshot (infos.map (·.backupDir)) l ∧
        st'.errors = (st.errors || l.any Event.isErrorResult))
      (fun _ t' => ∃ l, selection t' = selection t ++ l ∧
        HandledUntilFailure env.printNsAndSnapshot (infos.map (·.backupDir)) l) t
  | st, [], _, t => ⟨[], by simp, .nil, by simp⟩
  | st, info :: rest, n, t => by
    simp only [snapshotLoop, wp_bind]
    refine wp_mono (backupListed_selection env ds fuel st info t) (fun o t₁ h₁ => ?_)
      (fun _ t₁ h₁ => ⟨_, h₁, HandledUntilFailure.first _ _⟩)
    rcases h₁ with ⟨rfl, h₁⟩ | ⟨r, st', rfl, herr, h₁⟩
    · exact wp_mono (snapshotLoop_selection fuel st rest (n + 1) _)
        (fun _ _ ⟨l, hl, h₂, he₂⟩ => ⟨_, by simp [hl, h₁], h₂.skip, by simp [he₂]⟩)
        (fun _ _ ⟨l, hl, h₂⟩ => ⟨_, by simp [hl, h₁],
          (Handled.skip (d := info.backupDir) .nil).append_failure h₂⟩)
    · exact wp_mono (snapshotLoop_selection fuel _ rest (n + 1) _)
        (fun _ _ ⟨l, hl, h₂, he₂⟩ =>
          ⟨_, by simp [hl, h₁, Event.isSelectionStep], h₂.pass r,
            by cases r <;> simp [he₂, herr, pushFor]⟩)
        (fun _ _ ⟨l, hl, h₂⟩ => ⟨_, by simp [hl, h₁, Event.isSelectionStep],
          (Handled.pass (d := info.backupDir) r .nil).append_failure h₂⟩)

/-- The listed snapshots of a group that the group loop handles, in order: its finished
snapshots oldest first, or the newest alone in latest-only mode. -/
def groupCandidates (latestOnly : Bool) (infos : List BackupInfo) : List BackupInfo :=
  let sorted := sortUnstableBy (·.backupDir.time) (infos.filter (·.finished))
  if latestOnly then sorted.getLast?.toList else sorted

/-- One group: its candidates handled in order, or a stop in `backup_snapshot`. -/
theorem backupGroup_selection (fuel : Nat) (latestOnly : Bool) (st : LoopState)
    (groupNumber : Nat) (group : BackupGroup) {infos : List BackupInfo}
    (hlist : ds.listBackups group = .ok infos) (t : Trace) :
    wp (backupGroup env ds fuel latestOnly st groupNumber group)
      (fun st' t' => ∃ l, selection t' = selection t ++ l ∧
        Handled env.printNsAndSnapshot ((groupCandidates latestOnly infos).map (·.backupDir)) l ∧
        st'.errors = (st.errors || l.any Event.isErrorResult))
      (fun _ t' => ∃ l, selection t' = selection t ++ l ∧
        HandledUntilFailure env.printNsAndSnapshot
          ((groupCandidates latestOnly infos).map (·.backupDir)) l) t := by
  simp only [backupGroup, wp_bind, wp_lift, hlist]
  split
  · rename_i hempty
    rw [List.isEmpty_iff] at hempty
    simp only [groupCandidates, hempty, sortUnstableBy]
    exact ⟨[], by simp, by cases latestOnly <;> exact .nil, by simp⟩
  · split
    · rename_i hlatest
      simp only [groupCandidates, hlatest, if_true]
      split
      · rename_i hnone
        exact ⟨[], by simp, by simpa [hnone] using Handled.nil, by simp⟩
      · rename_i info hsome
        simp only [hsome, Option.toList_some, List.map_cons, List.map_nil]
        rw [wp_bind]
        refine wp_mono (backupListed_selection env ds fuel _ info t) (fun o t₁ h₁ => ?_)
          (fun _ t₁ h₁ => ⟨_, h₁, HandledUntilFailure.first _ _⟩)
        rcases h₁ with ⟨rfl, h₁⟩ | ⟨r, st', rfl, herr, h₁⟩
        · exact ⟨_, h₁, .skip .nil, by simp⟩
        refine ⟨.containsSnapshot info.backupDir false :: .backupSnapshot info.backupDir ::
          .snapshotResult r :: pushFor (env.printNsAndSnapshot info.backupDir) r, ?_, ?_, ?_⟩
        · simp [h₁, Event.isSelectionStep]
        · simpa using Handled.pass r .nil
        · cases r <;> simp [herr, pushFor]
    · rename_i hlatest
      simp only [Bool.not_eq_true] at hlatest
      simp only [groupCandidates, hlatest]
      exact snapshotLoop_selection env ds fuel _ _ 0 t

/-- The listed snapshots the group loop handles, in order: the candidates of each group. -/
def loopCandidates (latestOnly : Bool) (groups : List BackupGroup)
    (snapshots : BackupGroup → List BackupInfo) : List BackupDir :=
  groups.flatMap fun g => (groupCandidates latestOnly (snapshots g)).map (·.backupDir)

/-- The group loop handles the candidates of all groups in order, or stops in
`backup_snapshot`. -/
theorem groupLoop_selection (fuel : Nat) (latestOnly : Bool)
    (snapshots : BackupGroup → List BackupInfo) :
    ∀ (groups : List BackupGroup), (∀ g ∈ groups, ds.listBackups g = .ok (snapshots g)) →
    ∀ (st : LoopState) (n : Nat) (t : Trace),
    wp (groupLoop env ds fuel latestOnly st groups n)
      (fun st' t' => ∃ l, selection t' = selection t ++ l ∧
        Handled env.printNsAndSnapshot (loopCandidates latestOnly groups snapshots) l ∧
        st'.errors = (st.errors || l.any Event.isErrorResult))
      (fun _ t' => ∃ l, selection t' = selection t ++ l ∧
        HandledUntilFailure env.printNsAndSnapshot (loopCandidates latestOnly groups snapshots) l) t
  | [], _, _, _, _ => ⟨[], by simp, .nil, by simp⟩
  | g :: rest, hlist, st, n, t => by
    simp only [groupLoop, wp_bind, loopCandidates, List.flatMap_cons]
    refine wp_mono (backupGroup_selection env ds fuel latestOnly st n g (hlist g (by simp)) t)
      (fun st₁ t₁ ⟨l₁, h₁, hh₁, he₁⟩ => ?_)
      (fun _ _ ⟨l, h, hf⟩ => ⟨l, h, hf.append_right _⟩)
    exact wp_mono (groupLoop_selection fuel latestOnly snapshots rest
        (fun g hg => hlist g (by simp [hg])) st₁ (n + 1) t₁)
      (fun _ _ ⟨l₂, h₂, hh₂, he₂⟩ => ⟨l₁ ++ l₂, by simp [h₂, h₁], hh₁.append hh₂,
        by simp [he₂, he₁, Bool.or_assoc]⟩)
      (fun _ _ ⟨l₂, h₂, hf₂⟩ =>
        ⟨l₁ ++ l₂, by simp [h₂, h₁], hh₁.append_failure hf₂⟩)

end Loops

theorem Event.isSelectionStep_eq_false {e : Event} (h : e.isCatalogStep || e.isFinishStep) :
    e.isSelectionStep = false := by
  cases e <;> first | rfl | cases h

section Worker

variable (env : Env) (ds : Datastore)

/-- A run of `backup_worker` whose namespace and group listings succeed, and the snapshot
listings of the groups it selects, handles the candidates of the selected groups to their
end, stops in `backup_snapshot` after some of them, or stops before the group loop; nothing
before or after the loop is a selection step, and a run that returns got no error result. -/
theorem backupWorker_selection (setup : Setup) (forceMediaSet : Bool) (fuel : Nat)
    {namespaces : List BackupNamespace} {groups : List BackupGroup}
    {snapshots : BackupGroup → List BackupInfo}
    (hns : ds.recursiveIterBackupNsOk (setup.ns.getD .root) setup.maxDepth = .ok namespaces)
    (hgroups : listGroups ds namespaces = .ok groups)
    (hsnaps : ∀ g ∈ selectGroups env groups setup.groupFilter,
      ds.listBackups g = .ok (snapshots g)) :
    wp (backupWorker env ds setup forceMediaSet fuel)
      (fun _ T => Handled env.printNsAndSnapshot (loopCandidates (setup.latestOnly.getD false)
          (selectGroups env groups setup.groupFilter) snapshots) (selection T) ∧
        (selection T).any Event.isErrorResult = false)
      (fun _ T => Handled env.printNsAndSnapshot (loopCandidates (setup.latestOnly.getD false)
          (selectGroups env groups setup.groupFilter) snapshots) (selection T) ∨
        HandledUntilFailure env.printNsAndSnapshot (loopCandidates (setup.latestOnly.getD false)
          (selectGroups env groups setup.groupFilter) snapshots) (selection T) ∨
        selection T = []) [] := by
  apply backupWorker_wp env ds setup forceMediaSet fuel (P := (· = []))
    (fun _ _ ht => .inr (.inr (by rw [ht]; rfl)))
  · intro ns gs hns' hgroups' t ht
    obtain rfl : namespaces = ns := Except.ok.inj (hns.symm.trans hns')
    obtain rfl : groups = gs := Except.ok.inj (hgroups.symm.trans hgroups')
    subst ht
    exact wp_mono (groupLoop_selection env ds fuel (setup.latestOnly.getD false) snapshots
        (selectGroups env groups setup.groupFilter) hsnaps _ 0 [])
      (fun _ _ h => h) (fun _ _ ⟨l, hl, hf⟩ => .inr (.inl (by simpa [hl] using hf)))
  · rintro st t ⟨l, hl, hh, he⟩
    have hkeep : Keeps (fun T => selection T = l) (fun T => selection T = l)
        (finishBackup env setup st) :=
      (finishBackup_only env setup st).keeps fun _ _ he h =>
        (selection_snoc_of_not (Event.isSelectionStep_eq_false he)).trans h
    have hcommit : selection (t ++ [.commit (.ok ())]) = l :=
      (selection_snoc_of_not (e := .commit (.ok ())) rfl).trans hl
    cases herr : st.errors
    · refine wp_mono (hkeep _ hcommit) (fun _ _ h => ⟨by simpa [h] using hh, ?_⟩)
        (fun _ _ h => .inl (by simpa [h] using hh))
      rw [h]
      exact (Bool.false_or _).symm.trans (he.symm.trans herr)
    · exact wp_mono (wp_and (hkeep _ hcommit) (finishBackup_fails env setup st herr _))
        (fun _ _ h => h.2.elim) (fun _ _ h => .inl (by simpa [h.1] using hh))
  · rintro _ _ _ ⟨l, hl, hh, -⟩
    refine .inl ?_
    rw [selection_snoc_of_not, hl]
    exacts [hh, rfl]
  · rfl

end Worker

/-! ## The reference selection -/

/-- The spec's reference selection, before the media set's answers: the groups of all
enumerated namespaces sorted by group identity, those the group filter keeps, and of each kept
group its finished snapshots oldest first, or only the newest of them in latest-only mode.
Groups or snapshots of equal key may come in either order. -/
def ReferenceSelection (env : Env) (setup : Setup) (groups : List BackupGroup)
    (snapshots : BackupGroup → List BackupInfo) (cs : List BackupDir) : Prop :=
  ∃ sorted : List BackupGroup, sorted.Perm groups ∧
    sorted.Sorted (fun a b => a.group.key ≤ b.group.key) ∧
  ∃ parts : List (List BackupDir),
    List.Forall₂ (fun g part => ∃ snaps : List BackupInfo,
        snaps.Perm ((snapshots g).filter (·.finished)) ∧
        snaps.Sorted (fun a b => a.backupDir.time ≤ b.backupDir.time) ∧
        part = (if setup.latestOnly.getD false then snaps.getLast?.toList else snaps).map
          (·.backupDir))
      (sorted.filter fun g => setup.groupFilter.all (env.applyFilters g.group)) parts ∧
    cs = parts.flatten

theorem selectGroups_eq_filter (env : Env) (groups : List BackupGroup)
    (groupFilter : Option (List Jobs.GroupFilter)) :
    selectGroups env groups groupFilter =
      (sortUnstableBy (fun g : BackupGroup => g.group.key) groups).filter
        fun g => groupFilter.all (env.applyFilters g.group) := by
  cases groupFilter <;> simp [selectGroups]

/-- The candidates of the group loop are the reference selection. -/
theorem loopCandidates_reference (env : Env) (setup : Setup) (groups : List BackupGroup)
    (snapshots : BackupGroup → List BackupInfo) :
    ReferenceSelection env setup groups snapshots (loopCandidates (setup.latestOnly.getD false)
      (selectGroups env groups setup.groupFilter) snapshots) := by
  refine ⟨_, sortUnstableBy_perm _ groups, sortUnstableBy_sorted _ groups, _,
    List.forall₂_map_right_iff.2 (List.forall₂_same.2 fun g _ =>
      ⟨_, sortUnstableBy_perm _ _, sortUnstableBy_sorted _ _, rfl⟩), ?_⟩
  rw [loopCandidates, List.flatMap_def, selectGroups_eq_filter]
  rfl

theorem listGroups_eq_ok (ds : Datastore) {groupsOf : BackupNamespace → List BackupGroup} :
    ∀ {namespaces : List BackupNamespace},
      (∀ ns ∈ namespaces, ds.listBackupGroups ns = .ok (groupsOf ns)) →
      listGroups ds namespaces = .ok (namespaces.flatMap groupsOf)
  | [], _ => rfl
  | ns :: rest, h => by
    have hrest := listGroups_eq_ok ds fun n hn => h n (List.mem_cons_of_mem ns hn)
    rw [listGroups, h ns (List.mem_cons_self ns rest), hrest]
    rfl

theorem filterMap_selection {β : Type} {f : Event → Option β}
    (hf : ∀ e, e.isSelectionStep = false → f e = none) (T : Trace) :
    (selection T).filterMap f = T.filterMap f := by
  rw [selection, List.filterMap_filter]
  congr 1
  funext e
  cases h : e.isSelectionStep <;> simp [hf e, h]

section Words

variable (T : Trace)

@[simp] theorem askedSnapshots_selection : askedSnapshots (selection T) = askedSnapshots T :=
  filterMap_selection (fun e he => by cases e <;> simp_all [Event.isSelectionStep]) T

@[simp] theorem passedSnapshots_selection : passedSnapshots (selection T) = passedSnapshots T :=
  filterMap_selection (fun e he => by cases e <;> simp_all [Event.isSelectionStep]) T

@[simp] theorem snapshotResults_selection : snapshotResults (selection T) = snapshotResults T :=
  filterMap_selection (fun e he => by cases e <;> simp_all [Event.isSelectionStep]) T

@[simp] theorem snapshotList_selection : snapshotList (selection T) = snapshotList T :=
  filterMap_selection (fun e he => by cases e <;> simp_all [Event.isSelectionStep]) T

@[simp] theorem passedAsAnswered_selection (relPath : BackupDir → String) :
    PassedAsAnswered relPath (selection T) ↔ PassedAsAnswered relPath T := by
  simp [PassedAsAnswered]

end Words

/-- No `Error` result among the selection steps means none among the results. -/
theorem error_not_mem_snapshotResults {T : Trace}
    (h : (selection T).any Event.isErrorResult = false) :
    SnapshotBackupResult.error ∉ snapshotResults T := by
  rw [← snapshotResults_selection]
  intro hmem
  obtain ⟨e, he, hr⟩ := List.mem_filterMap.1 hmem
  cases e <;> simp only [Event.result?, Option.some.injEq, reduceCtorEq] at hr
  subst hr
  simp only [List.any_eq_false] at h
  exact h _ he rfl

/-- `backupWorker_selection` in the words of the code: a run that returns asked the media set
about all candidates, got a result for every snapshot it passed, none of them `Error`; a run
that fails asked about all of them, or about a prefix and stopped in a `backup_snapshot` call
that returned no result, its last selection step, or about none. -/
theorem backupWorker_words (env : Env) (ds : Datastore) (setup : Setup) (forceMediaSet : Bool)
    (fuel : Nat) {namespaces : List BackupNamespace}
    {groupsOf : BackupNamespace → List BackupGroup} {snapshots : BackupGroup → List BackupInfo}
    (hns : ds.recursiveIterBackupNsOk (setup.ns.getD .root) setup.maxDepth = .ok namespaces)
    (hgroups : ∀ ns ∈ namespaces, ds.listBackupGroups ns = .ok (groupsOf ns))
    (hsnaps : ∀ g ∈ selectGroups env (namespaces.flatMap groupsOf) setup.groupFilter,
      ds.listBackups g = .ok (snapshots g)) :
    let cs := loopCandidates (setup.latestOnly.getD false)
      (selectGroups env (namespaces.flatMap groupsOf) setup.groupFilter) snapshots
    wp (backupWorker env ds setup forceMediaSet fuel)
      (fun _ T => (askedSnapshots T).map Prod.fst = cs ∧
        (passedSnapshots T).length = (snapshotResults T).length ∧
        SnapshotBackupResult.error ∉ snapshotResults T ∧
        PassedAsAnswered env.printNsAndSnapshot T)
      (fun _ T => ((askedSnapshots T).map Prod.fst = cs ∧
          (passedSnapshots T).length = (snapshotResults T).length ∨
        (askedSnapshots T).map Prod.fst <+: cs ∧
          (passedSnapshots T).length = (snapshotResults T).length + 1 ∧
          (∃ d, (selection T).getLast? = some (.backupSnapshot d)) ∨
        askedSnapshots T = []) ∧
        PassedAsAnswered env.printNsAndSnapshot T) [] := by
  refine wp_mono (backupWorker_selection env ds setup forceMediaSet fuel hns
    (listGroups_eq_ok ds hgroups) hsnaps) (fun _ T h => ?_) (fun _ T h => ?_)
  · obtain ⟨h₁, h₂, h₃⟩ := h.1.words
    simp only [askedSnapshots_selection, passedSnapshots_selection, snapshotResults_selection,
      passedAsAnswered_selection] at h₁ h₂ h₃
    exact ⟨h₁, h₂, error_not_mem_snapshotResults h.2, h₃⟩
  rcases h with h | h | h
  · obtain ⟨h₁, h₂, h₃⟩ := h.words
    simp only [askedSnapshots_selection, passedSnapshots_selection, snapshotResults_selection,
      passedAsAnswered_selection] at h₁ h₂ h₃
    exact ⟨.inl ⟨h₁, h₂⟩, h₃⟩
  · obtain ⟨h₁, h₂, h₄, h₃⟩ := h.words
    simp only [askedSnapshots_selection, passedSnapshots_selection, snapshotResults_selection,
      passedAsAnswered_selection] at h₁ h₂ h₃
    exact ⟨.inr (.inl ⟨h₁, h₂, h₄⟩), h₃⟩
  · simp only [PassedAsAnswered]
    rw [← askedSnapshots_selection, ← passedSnapshots_selection, ← snapshotResults_selection,
      ← snapshotList_selection, h]
    exact ⟨.inr (.inr rfl), rfl, rfl⟩

/-- A run of `backup_worker` whose namespace and group listings succeed, and the snapshot
listings of the groups it selects (it lists no other), in the words of the code and the spec:
the media set is asked, in order, about the reference selection (of which the snapshots it
does not hold are passed to `backup_snapshot` and those that return success are pushed to
`summary.snapshot_list`); a run that returns has asked about all of it, and one that fails has
asked about all of it, or stopped in a `backup_snapshot` that returned no result after asking
about a prefix, or stopped before the group loop. -/
theorem backupWorker_follows_reference (env : Env) (ds : Datastore) (setup : Setup)
    (forceMediaSet : Bool) (fuel : Nat) (namespaces : List BackupNamespace)
    (groupsOf : BackupNamespace → List BackupGroup) (snapshots : BackupGroup → List BackupInfo)
    (hns : ds.recursiveIterBackupNsOk (setup.ns.getD .root) setup.maxDepth = .ok namespaces)
    (hgroups : ∀ ns ∈ namespaces, ds.listBackupGroups ns = .ok (groupsOf ns))
    (hsnaps : ∀ g ∈ selectGroups env (namespaces.flatMap groupsOf) setup.groupFilter,
      ds.listBackups g = .ok (snapshots g)) :
    ∃ cs, ReferenceSelection env setup (namespaces.flatMap groupsOf) snapshots cs ∧
      wp (backupWorker env ds setup forceMediaSet fuel)
        (fun _ T => (askedSnapshots T).map Prod.fst = cs ∧
          (passedSnapshots T).length = (snapshotResults T).length ∧
          PassedAsAnswered env.printNsAndSnapshot T)
        (fun _ T => ((askedSnapshots T).map Prod.fst = cs ∧
            (passedSnapshots T).length = (snapshotResults T).length ∨
          (askedSnapshots T).map Prod.fst <+: cs ∧
            (passedSnapshots T).length = (snapshotResults T).length + 1 ∨
          askedSnapshots T = []) ∧
          PassedAsAnswered env.printNsAndSnapshot T) [] :=
  ⟨_, loopCandidates_reference env setup _ snapshots,
    wp_mono (backupWorker_words env ds setup forceMediaSet fuel hns hgroups hsnaps)
      (fun _ _ ⟨h₁, h₂, _, h₃⟩ => ⟨h₁, h₂, h₃⟩)
      (fun _ _ ⟨h, h₃⟩ =>
        ⟨h.imp_right (Or.imp_left fun ⟨h₁, h₂, _⟩ => ⟨h₁, h₂⟩), h₃⟩)⟩

theorem vmStore_follows_reference :
    ∃ cs, ReferenceSelection (steadyEnv twoChunks) plainSetup
        ([BackupNamespace.root].flatMap fun _ => [vmGroup])
        (fun _ => [0, 1].map fun time => ⟨vmSnapshot time, true⟩) cs ∧
      wp (backupWorker (steadyEnv twoChunks) (vmDatastore [0, 1]) plainSetup false 3)
        (fun _ T => (askedSnapshots T).map Prod.fst = cs ∧
          (passedSnapshots T).length = (snapshotResults T).length ∧
          PassedAsAnswered (steadyEnv twoChunks).printNsAndSnapshot T)
        (fun _ T => ((askedSnapshots T).map Prod.fst = cs ∧
            (passedSnapshots T).length = (snapshotResults T).length ∨
          (askedSnapshots T).map Prod.fst <+: cs ∧
            (passedSnapshots T).length = (snapshotResults T).length + 1 ∨
          askedSnapshots T = []) ∧
          PassedAsAnswered (steadyEnv twoChunks).printNsAndSnapshot T) [] :=
  backupWorker_follows_reference _ _ _ _ _ [.root] (fun _ => [vmGroup]) _ rfl (fun _ _ => rfl)
    (fun _ _ => rfl)

end PbsCloudBackup.Backup
