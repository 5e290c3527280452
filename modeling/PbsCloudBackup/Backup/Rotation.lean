import PbsCloudBackup.Backup.Invariant
/-!
# Media rotation

The pool writer marks a medium full only right after an append on it reported the logical
end of the medium, and writes nothing more to a medium marked full. `RotationSound` says
what each step needs of the trace before it: a `set_media_status_full u` comes directly
after an append that reported the end of medium, and `u` is the medium the most recent
load returned; an append comes after no `set_media_status_full` since the most recent load.

The chunk loop, the snapshot archive and the catalog each keep `RotationSound`, so every
run of `backup_worker` does (`media_rotation`).
-/

namespace PbsCloudBackup.Backup

/-- What a step of a sound media rotation needs of the trace before it. -/
@[simp] def RotationStep (pre : Trace) : Event → Prop
  | .setMediaStatusFull u _ =>
    (∃ a, pre.getLast? = some a ∧ a.reportsEom) ∧ lastLoad pre.dropLast = some (.ok u)
  | .appendChunkArchive _ | .appendSnapshotArchive _ | .appendCatalogArchive _ =>
    fullSinceLoad pre = false
  | _ => True

/-- Every step of the trace rotates media soundly. -/
def RotationSound (t : Trace) : Prop := AllSteps RotationStep t

theorem Event.isAppend_of_reportsEom {e : Event} (h : e.reportsEom) : e.isAppend := by
  cases e <;> simp_all [Event.isAppend]

theorem rotationSound_snoc {t : Trace} {e : Event} (h : RotationSound t) (he : RotationStep t e) :
    RotationSound (t ++ [e]) :=
  allSteps_append_singleton.2 ⟨h, he⟩

/-- A recorded call whose every record rotates media soundly, followed by a job that keeps
the rotation sound. -/
theorem RotationSound.call_bind {β γ : Type} {t : Trace} {answer : Trace → Except String β}
    {record : Except String β → Event} {f : β → Job γ} {Q : γ → Trace → Prop}
    (h : RotationSound t) (hs : ∀ r, RotationStep t (record r))
    (hk : ∀ b, RotationSound (t ++ [record (.ok b)]) →
      wp (f b) Q (fun _ => RotationSound) (t ++ [record (.ok b)])) :
    wp (Backup.call answer record >>= f) Q (fun _ => RotationSound) t := by
  rw [wp_bind, wp_call]
  split
  · exact hk _ (rotationSound_snoc h (hs _))
  · exact rotationSound_snoc h (hs _)

section

variable (env : Env) (ds : Datastore)

theorem chunkLoop_rotation :
    ∀ fuel chunks, Keeps RotationSound RotationSound (chunkLoop env fuel chunks)
  | 0, _ => fun _ h => h
  | fuel + 1, chunks => fun t h => by
    simp only [chunkLoop]
    refine h.call_bind (fun _ => trivial) fun _ h₁ => ?_
    rcases chunks with _ | ⟨_ | c, rest⟩
    · exact h₁
    · exact h₁
    refine h₁.call_bind (fun _ => trivial) fun _ h₂ => ?_
    refine h₂.call_bind (fun _ => trivial) fun _ h₃ => ?_
    refine h₃.call_bind (fun _ => by simp) fun ⟨_, leom⟩ h₄ => ?_
    cases leom
    · exact chunkLoop_rotation fuel _ _ h₄
    · exact h₄.call_bind (fun _ => ⟨⟨_, List.getLast?_concat _, rfl⟩, by simp⟩)
        fun _ h₅ => chunkLoop_rotation fuel _ _ h₅

theorem writeSnapshotArchive_rotation (dir : BackupDir) :
    Keeps RotationSound RotationSound (writeSnapshotArchive env dir) := fun t h => by
  refine h.call_bind (fun _ => trivial) fun _ h₁ => ?_
  refine h₁.call_bind (fun _ => trivial) fun _ h₂ => ?_
  refine h₂.call_bind (fun _ => trivial) fun _ h₃ => ?_
  refine h₃.call_bind (fun _ => by simp) fun done h₄ => ?_
  rw [wp_bind]
  cases done
  · simp only [Bool.not_false, ↓reduceIte]
    refine h₄.call_bind (fun _ => ⟨⟨_, List.getLast?_concat _, rfl⟩, by simp⟩) fun _ h₅ => ?_
    refine h₅.call_bind (fun _ => trivial) fun _ h₆ => ?_
    refine h₆.call_bind (fun _ => trivial) fun _ h₇ => ?_
    refine h₇.call_bind (fun _ => by simp) fun done h₈ => ?_
    cases done <;> exact h₈
  · exact h₄

theorem backupSnapshot_rotation (fuel : Nat) (dir : BackupDir) :
    Keeps RotationSound RotationSound (backupSnapshot env ds fuel dir) :=
  backupSnapshot_keeps env ds (fun _ h => h) fuel dir (fun _ h => rotationSound_snoc h trivial)
    (.call' fun _ _ h => rotationSound_snoc h trivial) (chunkLoop_rotation env fuel)
    (writeSnapshotArchive_rotation env dir)

theorem writeCatalog_rotation :
    Keeps RotationSound RotationSound (writeCatalog env) := fun t h => by
  refine h.call_bind (fun _ => trivial) fun _ h₁ => ?_
  refine h₁.call_bind (fun _ => by simp) fun done h₂ => ?_
  cases done
  · simp only [Bool.not_false, ↓reduceIte]
    refine h₂.call_bind (fun _ => ⟨⟨_, List.getLast?_concat _, rfl⟩, by simp⟩) fun _ h₃ => ?_
    refine h₃.call_bind (fun _ => trivial) fun _ h₄ => ?_
    refine h₄.call_bind (fun _ => by simp) fun done h₅ => ?_
    cases done <;> exact h₅
  · exact h₂

theorem rotationSound_backupWorker (setup : Setup) (forceMediaSet : Bool) (fuel : Nat) :
    RotationSound (runTrace (backupWorker env ds setup forceMediaSet fuel)) :=
  have hnote : ∀ {t : Trace} (e : Event), RotationStep t e = True → RotationSound t →
      RotationSound (t ++ [e]) := fun _ he h => rotationSound_snoc h (he ▸ trivial)
  ((backupWorker_keeps env ds (fun _ h => h) (backupSnapshot_rotation env ds)
    (fun _ e he => hnote e (by cases e <;> first | rfl | cases he))
    (fun _ _ => hnote _ rfl) (fun _ _ => hnote _ rfl)
    (fun setup st => finishBackup_keeps env setup st (fun _ h => h) (writeCatalog_rotation env)
      (.call' fun _ _ => hnote _ rfl) (.call' fun _ _ => hnote _ rfl) fun _ _ => hnote _ rfl)
    setup forceMediaSet fuel).runTrace allSteps_nil).elim id id

/-- In every run of `backup_worker`, a medium is marked full directly after an append on it,
the medium of the most recent load, reported its end; no append follows before the next
load. -/
theorem media_rotation (setup : Setup) (forceMediaSet : Bool) (fuel : Nat) :
    ∀ pre u r post, runTrace (backupWorker env ds setup forceMediaSet fuel) =
        pre ++ .setMediaStatusFull u r :: post →
      lastLoad pre = some (.ok u) ∧
      (∃ pre' a, pre = pre' ++ [a] ∧ a.isAppend ∧ a.reportsEom ∧ lastLoad pre' = some (.ok u)) ∧
      ∀ mid e post', post = mid ++ e :: post' → e.isAppend → ∃ x ∈ mid, x.isLoad := by
  intro pre u r post hT
  have hs := rotationSound_backupWorker env ds setup forceMediaSet fuel
  rw [hT] at hs
  obtain ⟨⟨a, ha, heom⟩, hload⟩ := hs pre _ post rfl
  have hpre : pre = pre.dropLast ++ [a] := (List.dropLast_append_getLast? _ ha).symm
  have hlast : lastLoad pre = lastLoad pre.dropLast := by
    rw [hpre, lastLoad_append, List.dropLast_concat]
    cases a <;> simp at heom ⊢
  refine ⟨hlast ▸ hload, ⟨_, a, hpre, Event.isAppend_of_reportsEom heom, heom, hload⟩, ?_⟩
  rintro mid e post' rfl happ
  have he := hs (pre ++ .setMediaStatusFull u r :: mid) e post' (by simp)
  have hfull : fullSinceLoad (pre ++ .setMediaStatusFull u r :: mid) = false := by
    cases e <;> first | exact he | simp [Event.isAppend] at happ
  exact exists_load_of_fullSinceLoad_eq_false hfull

end

/-- Collaborators whose every chunk archive reports the end of its medium. -/
def fillingEnv : Env := { steadyEnv twoChunks with appendChunkArchive := fun _ _ => .ok (1, true) }

theorem media_rotation_filling_chunks :
    ∃ pre post, runTrace (backupWorker fillingEnv (vmDatastore [0]) plainSetup false 3) =
        pre ++ .setMediaStatusFull ⟨0⟩ (.ok ()) :: post ∧
      lastLoad pre = some (.ok ⟨0⟩) ∧
      (∃ pre' a, pre = pre' ++ [a] ∧ a.isAppend ∧ a.reportsEom ∧ lastLoad pre' = some (.ok ⟨0⟩)) ∧
      ∀ mid e post', post = mid ++ e :: post' → e.isAppend → ∃ x ∈ mid, x.isLoad :=
  have h : runTrace (backupWorker fillingEnv (vmDatastore [0]) plainSetup false 3) =
      [.containsSnapshot (vmSnapshot 0) false, .backupSnapshot (vmSnapshot 0),
        .spawnChunkReaderThread (.ok ⟨twoChunks, true⟩), .checkAbort (.ok ()),
        .loadWritableMedia (.ok ⟨0⟩), .checkAbort (.ok ()), .appendChunkArchive (.ok (1, true))] ++
      .setMediaStatusFull ⟨0⟩ (.ok ()) ::
      (runTrace (backupWorker fillingEnv (vmDatastore [0]) plainSetup false 3)).drop 8 := rfl
  ⟨_, _, h, media_rotation _ _ _ _ _ _ _ _ _ h⟩

end PbsCloudBackup.Backup
