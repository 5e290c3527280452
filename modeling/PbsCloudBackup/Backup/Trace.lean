import PbsCloudBackup.Backup.Model
/-!
# Reading a run's trace

Classifiers of the steps of a run and the trace functions the statements about runs are
written with. Each trace function distributes over `++`, so that the trace a job appends
can be reasoned about one step at a time.
-/

namespace PbsCloudBackup.Backup

namespace Event

/-- A `load_writable_media` call. -/
@[simp] def isLoad : Event → Bool
  | loadWritableMedia _ => true
  | _ => false

/-- An `append_chunk_archive` call. -/
@[simp] def isChunkAppend : Event → Bool
  | appendChunkArchive _ => true
  | _ => false

/-- An `append_snapshot_archive` call. -/
@[simp] def isSnapshotAppend : Event → Bool
  | appendSnapshotArchive _ => true
  | _ => false

/-- An `append_catalog_archive` call. -/
@[simp] def isCatalogAppend : Event → Bool
  | appendCatalogArchive _ => true
  | _ => false

/-- An archive append of any kind. -/
def isAppend (e : Event) : Bool := e.isChunkAppend || e.isSnapshotAppend || e.isCatalogAppend

/-- An append call that reported the logical end of its medium: `leom` from
`append_chunk_archive`, or not `done` from a snapshot or catalog archive. -/
@[simp] def reportsEom : Event → Bool
  | appendChunkArchive (.ok (_, leom)) => leom
  | appendSnapshotArchive (.ok done) => !done
  | appendCatalogArchive (.ok done) => !done
  | _ => false

/-- The number of chunks an `append_chunk_archive` call that returned `Ok` consumed. -/
@[simp] def chunkCount? : Event → Option Nat
  | appendChunkArchive (.ok (k, _)) => some k
  | _ => none

end Event

/-- The chunk counts of the `append_chunk_archive` calls of a trace that returned `Ok`. -/
def chunkCounts (t : Trace) : List Nat := t.filterMap Event.chunkCount?

@[simp] theorem chunkCounts_nil : chunkCounts [] = [] := rfl

@[simp] theorem chunkCounts_append (t t' : Trace) :
    chunkCounts (t ++ t') = chunkCounts t ++ chunkCounts t' :=
  List.filterMap_append _ _ _

@[simp] theorem chunkCounts_cons (e : Event) (t : Trace) :
    chunkCounts (e :: t) = (e.chunkCount?).toList ++ chunkCounts t := by
  simp only [chunkCounts, List.filterMap_cons]
  cases e.chunkCount? <;> rfl

/-! ## The loaded medium -/

/-- How one step changes `lastLoad`. -/
@[simp] def lastLoadStep (acc : Option (Except String Uuid)) : Event → Option (Except String Uuid)
  | .loadWritableMedia r => some r
  | _ => acc

/-- The answer of the most recent `load_writable_media` call. -/
def lastLoad (t : Trace) : Option (Except String Uuid) := t.foldl lastLoadStep none

/-- How one step changes `fullSinceLoad`. -/
@[simp] def fullSinceLoadStep (acc : Bool) : Event → Bool
  | .loadWritableMedia _ => false
  | .setMediaStatusFull _ _ => true
  | _ => acc

/-- Whether a `set_media_status_full` call came after the most recent
`load_writable_media` call. -/
def fullSinceLoad (t : Trace) : Bool := t.foldl fullSinceLoadStep false

@[simp] theorem lastLoad_append (t l : Trace) :
    lastLoad (t ++ l) = l.foldl lastLoadStep (lastLoad t) :=
  List.foldl_append _ _ _ _

@[simp] theorem fullSinceLoad_append (t l : Trace) :
    fullSinceLoad (t ++ l) = l.foldl fullSinceLoadStep (fullSinceLoad t) :=
  List.foldl_append _ _ _ _

/-- A flag that only steps satisfying `p` change from `b` has changed only if one of them
came. -/
theorem exists_mem_of_foldl_ne {β : Type} {f : β → Event → β} {p : Event → Prop} {b : β} :
    ∀ {l : List Event}, l.foldl f b ≠ b → (∀ e, ¬p e → f b e = b) → ∃ e ∈ l, p e
  | [], h, _ => absurd rfl h
  | e :: l, h, hf => by
    by_cases he : p e
    · exact ⟨e, List.mem_cons_self _ _, he⟩
    · rw [List.foldl_cons, hf e he] at h
      obtain ⟨x, hx, hpx⟩ := exists_mem_of_foldl_ne h hf
      exact ⟨x, List.mem_cons_of_mem _ hx, hpx⟩

/-- After a `set_media_status_full` call, the flag stays up until a load. -/
theorem exists_load_of_fullSinceLoad_eq_false {pre mid : Trace} {u : Uuid}
    {r : Except String Unit} (h : fullSinceLoad (pre ++ .setMediaStatusFull u r :: mid) = false) :
    ∃ x ∈ mid, x.isLoad := by
  simp only [fullSinceLoad_append, List.foldl_cons, fullSinceLoadStep] at h
  have hne : mid.foldl fullSinceLoadStep true ≠ true := by simp [h]
  exact exists_mem_of_foldl_ne hne fun e he => by cases e <;> simp_all

/-! ## Properties of every step -/

/-- Every step of `t` satisfies `c` given the trace before it. -/
def AllSteps (c : Trace → Event → Prop) (t : Trace) : Prop :=
  ∀ pre e post, t = pre ++ e :: post → c pre e

/-- Every step of `l`, run after `t`, satisfies `c` given the trace before it. -/
@[simp] def StepsFrom (c : Trace → Event → Prop) (t : Trace) : List Event → Prop
  | [] => True
  | e :: l => c t e ∧ StepsFrom c (t ++ [e]) l

section AllSteps

variable {c : Trace → Event → Prop}

@[simp] theorem allSteps_nil : AllSteps c [] := by
  intro pre e post h
  simp at h

theorem allSteps_append_singleton {t : Trace} {e : Event} :
    AllSteps c (t ++ [e]) ↔ AllSteps c t ∧ c t e := by
  refine ⟨fun h => ⟨fun pre e' post ht => h pre e' (post ++ [e]) (by simp [ht]), h t e [] rfl⟩,
    fun ⟨ht, he⟩ pre e' post h => ?_⟩
  rcases List.eq_nil_or_concat post with rfl | ⟨post', x, rfl⟩
  · obtain ⟨rfl, rfl⟩ := List.append_inj' h rfl |>.imp_right List.singleton_inj.1
    exact he
  · rw [List.concat_eq_append, ← List.cons_append, ← List.append_assoc] at h
    obtain ⟨h, -⟩ := List.append_inj' h rfl
    exact ht pre e' post' h

@[simp] theorem allSteps_append {t : Trace} {l : List Event} :
    AllSteps c (t ++ l) ↔ AllSteps c t ∧ StepsFrom c t l := by
  induction l generalizing t with
  | nil => simp
  | cons e l ih =>
    rw [← List.singleton_append, ← List.append_assoc, ih, allSteps_append_singleton]
    simp [and_assoc]

end AllSteps

end PbsCloudBackup.Backup
