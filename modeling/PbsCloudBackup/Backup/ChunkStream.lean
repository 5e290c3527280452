import PbsCloudBackup.Backup.Worker
import PbsCloudBackup.Backup.Trace
/-!
# The chunk stream reaches the writer whole

The chunk loop of `backup_snapshot` hands one peekable iterator to every
`append_chunk_archive` call, across any number of medium rotations. When each call
consumes a non-empty prefix of the `Ok` chunks left (`ConsumesOkPrefix`):

* the loop ends within one `append_chunk_archive` call per chunk, so fuel above the
  number of chunks never runs out (`chunkLoop_streams`);
* the prefixes the calls consumed make up the reader's sequence exactly, in order, before
  any snapshot archive is written;
* a read error ends `backup_snapshot` in `Err` before any snapshot archive.

`chunk_stream_reaches_writer` states the three for `backup_snapshot`. The last section
holds the collaborators and datastore used by the witnesses of this development.
-/

namespace PbsCloudBackup.Backup

section

variable (env : Env) (ds : Datastore)

/-- Every `append_chunk_archive` call on an iterator whose next item is an `Ok` chunk
consumes a non-empty prefix of the `Ok` chunks at its front. -/
def ConsumesOkPrefix : Prop :=
  ∀ t c rest k leom, env.appendChunkArchive t (.ok c :: rest) = .ok (k, leom) →
    0 < k ∧ k ≤ ((Except.ok c :: rest).takeWhile Except.isOk).length

/-- The chunks that `append_chunk_archive` calls consuming `ks` chunks in turn took from
`chunks`. -/
def consumedChunks (chunks : List (Except String Chunk)) : List Nat → List (Except String Chunk)
  | [] => []
  | k :: ks => chunks.take k ++ consumedChunks (chunks.drop k) ks

/-- What a chunk loop over `chunks` that returned `Ok` appended to `t`: at most one
`append_chunk_archive` call per chunk, whose consumed prefixes make up `chunks`, no
snapshot archive, and only `Ok` chunks. -/
def StreamedOk (chunks : List (Except String Chunk)) (t t' : Trace) : Prop :=
  ∃ Δ, t' = t ++ Δ ∧ Δ.countP Event.isChunkAppend ≤ chunks.length ∧
    consumedChunks chunks (chunkCounts Δ) = chunks ∧ Δ.countP Event.isSnapshotAppend = 0 ∧
    ∀ c ∈ chunks, c.isOk

/-- What a chunk loop over `chunks` that returned `Err e` appended to `t`: the error is
not the fuel running out, at most one `append_chunk_archive` call per chunk, and no
snapshot archive. -/
def StreamedErr (chunks : List (Except String Chunk)) (t : Trace) (e : Error) (t' : Trace) : Prop :=
  ∃ Δ, t' = t ++ Δ ∧ e ≠ .outOfFuel ∧ Δ.countP Event.isChunkAppend ≤ chunks.length ∧
    Δ.countP Event.isSnapshotAppend = 0

theorem streamedErr_msg {chunks : List (Except String Chunk)} {t Δ : Trace} {s : String}
    (hc : Δ.countP Event.isChunkAppend ≤ chunks.length) (hs : Δ.countP Event.isSnapshotAppend = 0) :
    StreamedErr chunks t (.msg s) (t ++ Δ) :=
  ⟨Δ, rfl, nofun, hc, hs⟩

/-- A count within the `Ok` front of a list takes only `Ok` items. -/
theorem take_isOk_of_le_takeWhile {l : List (Except String Chunk)} {k : Nat}
    (hk : k ≤ (l.takeWhile Except.isOk).length) : ∀ c ∈ l.take k, c.isOk := by
  intro c hc
  have hpre : l.take k <+: l.takeWhile Except.isOk :=
    List.prefix_of_prefix_length_le (List.take_prefix k l) (List.takeWhile_prefix _)
      (by simpa using Nat.min_le_left _ _ |>.trans hk)
  exact List.mem_takeWhile_imp (hpre.subset hc)

variable {chunks : List (Except String Chunk)} {t pre t' : Trace} {k : Nat}

/-- One iteration that consumed `k` chunks, then a loop over the rest that returned `Ok`. -/
theorem StreamedOk.cons (hk : 0 < k) (hkl : k ≤ (chunks.takeWhile Except.isOk).length)
    (hpre : pre.countP Event.isChunkAppend = 1) (hcounts : chunkCounts pre = [k])
    (hsnap : pre.countP Event.isSnapshotAppend = 0)
    (h : StreamedOk (chunks.drop k) (t ++ pre) t') : StreamedOk chunks t t' := by
  obtain ⟨Δ, rfl, hc, hcons, hs, hall⟩ := h
  have hlen : k ≤ chunks.length := hkl.trans (List.takeWhile_prefix _).length_le
  refine ⟨pre ++ Δ, by simp, ?_, ?_, by simp [hsnap, hs], ?_⟩
  · simp only [List.countP_append, hpre, List.length_drop] at hc ⊢; omega
  · simp [hcounts, consumedChunks, hcons]
  · intro c hc
    rw [← List.take_append_drop k chunks, List.mem_append] at hc
    exact hc.elim (take_isOk_of_le_takeWhile hkl c) (hall c)

theorem StreamedErr.cons {e : Error} (hk : 0 < k)
    (hkl : k ≤ (chunks.takeWhile Except.isOk).length)
    (hpre : pre.countP Event.isChunkAppend = 1) (hsnap : pre.countP Event.isSnapshotAppend = 0)
    (h : StreamedErr (chunks.drop k) (t ++ pre) e t') : StreamedErr chunks t e t' := by
  obtain ⟨Δ, rfl, he, hc, hs⟩ := h
  have hlen : k ≤ chunks.length := hkl.trans (List.takeWhile_prefix _).length_le
  refine ⟨pre ++ Δ, by simp, he, ?_, by simp [hsnap, hs]⟩
  simp only [List.countP_append, hpre, List.length_drop] at hc ⊢; omega

/-- The chunk loop with more fuel than chunks. -/
theorem chunkLoop_streams (hw : ConsumesOkPrefix env) :
    ∀ fuel chunks t, chunks.length < fuel →
      wp (chunkLoop env fuel chunks) (fun _ => StreamedOk chunks t) (StreamedErr chunks t) t
  | 0, _, _, h => absurd h (Nat.not_lt_zero _)
  | fuel + 1, chunks, t, hfuel => by
    simp only [chunkLoop, checkAbort, loadWritableMedia, appendChunkArchive, setMediaStatusFull,
      wp_bind, wp_call, List.append_assoc, List.singleton_append, List.cons_append]
    split
    · rcases chunks with _ | ⟨_ | c, rest⟩
      · exact ⟨_, rfl, Nat.zero_le _, rfl, rfl, List.forall_mem_nil _⟩
      · exact streamedErr_msg (Nat.zero_le _) rfl
      · simp only [wp_bind, wp_call, List.append_assoc, List.singleton_append, List.cons_append]
        split
        · split
          · split
            next _ p happ =>
              obtain ⟨k, leom⟩ := p
              obtain ⟨hk, hkl⟩ := hw _ _ _ _ _ happ
              have hlen : (List.drop k (Except.ok c :: rest)).length < fuel := by
                simp only [List.length_drop, List.length_cons] at hfuel ⊢; omega
              -- The rest of the loop, after an iteration that recorded `pre`.
              have hrec : ∀ pre : Trace, pre.countP Event.isChunkAppend = 1 →
                  chunkCounts pre = [k] → pre.countP Event.isSnapshotAppend = 0 →
                  wp (chunkLoop env fuel ((Except.ok c :: rest).drop k))
                    (fun _ => StreamedOk (.ok c :: rest) t) (StreamedErr (.ok c :: rest) t)
                    (t ++ pre) := fun pre h₁ h₂ h₃ =>
                wp_mono (chunkLoop_streams hw fuel _ _ hlen)
                  (fun _ _ h => StreamedOk.cons hk hkl h₁ h₂ h₃ h)
                  (fun _ _ h => StreamedErr.cons hk hkl h₁ h₃ h)
              cases leom
              · simp only [Bool.false_eq_true, if_false, wp_bind, wp_pure]
                exact hrec _ rfl rfl rfl
              · simp only [if_true, wp_bind, wp_call, List.append_assoc, List.singleton_append,
                  List.cons_append]
                split
                · exact hrec _ rfl rfl rfl
                · exact streamedErr_msg (Nat.succ_le_succ (Nat.zero_le _)) rfl
            · exact streamedErr_msg (Nat.succ_le_succ (Nat.zero_le _)) rfl
          · exact streamedErr_msg (Nat.zero_le _) rfl
        · exact streamedErr_msg (Nat.zero_le _) rfl
    · exact streamedErr_msg (Nat.zero_le _) rfl

theorem countP_chunk_eq_zero {l : Trace} (h : l.countP Event.isChunkAppend = 0) :
    chunkCounts l = [] :=
  List.filterMap_eq_nil_iff.2 fun e he => by
    have := List.countP_eq_zero.1 h e he
    cases e <;> first | rfl | simp at this

theorem writeSnapshotArchive_noChunk (dir : BackupDir) (t : Trace) :
    wp (writeSnapshotArchive env dir)
      (fun _ t' => ∃ Δ, t' = t ++ Δ ∧ Δ.countP Event.isChunkAppend = 0)
      (fun e t' => e ≠ .outOfFuel ∧ ∃ Δ, t' = t ++ Δ ∧ Δ.countP Event.isChunkAppend = 0) t := by
  simp only [writeSnapshotArchive, checkAbort, loadWritableMedia, appendSnapshotArchive,
    setMediaStatusFull, wp_bind, wp_call, wp_ite, wp_pure, wp_bail, List.append_assoc]
  repeat' split
  all_goals first | exact ⟨nofun, _, rfl, rfl⟩ | exact ⟨_, rfl, rfl⟩

/-- Every `append_snapshot_archive` call of `Δ` comes after `append_chunk_archive` calls
that consumed exactly `chunks`, in order. -/
def DeliveredBeforeArchive (chunks : List (Except String Chunk)) (Δ : Trace) : Prop :=
  ∀ pre e post, Δ = pre ++ e :: post → e.isSnapshotAppend →
    consumedChunks chunks (chunkCounts pre) = chunks

theorem DeliveredBeforeArchive.of_no_archive {chunks : List (Except String Chunk)} {Δ : Trace}
    (h : Δ.countP Event.isSnapshotAppend = 0) : DeliveredBeforeArchive chunks Δ := by
  rintro pre e post rfl he
  have : 0 < (pre ++ e :: post).countP Event.isSnapshotAppend :=
    List.countP_pos_iff.2 ⟨e, by simp, he⟩
  omega

theorem DeliveredBeforeArchive.append {chunks : List (Except String Chunk)} {A B : Trace}
    (hA : A.countP Event.isSnapshotAppend = 0) (hB : B.countP Event.isChunkAppend = 0)
    (hdel : consumedChunks chunks (chunkCounts A) = chunks) :
    DeliveredBeforeArchive chunks (A ++ B) := by
  intro pre e post h he
  rcases List.append_eq_append_iff.1 h with ⟨a', rfl, hB'⟩ | ⟨c', hA', hc'⟩
  · have : a'.countP Event.isChunkAppend = 0 :=
      Nat.eq_zero_of_le_zero (hB ▸ hB' ▸ (List.prefix_append a' _).sublist.countP_le _)
    simpa [countP_chunk_eq_zero this] using hdel
  · cases c' with
    | nil => simpa [hA'] using hdel
    | cons x c' =>
      obtain ⟨rfl, -⟩ := List.cons.inj hc'
      have : 0 < A.countP Event.isSnapshotAppend :=
        List.countP_pos_iff.2 ⟨e, hA' ▸ List.mem_append_right _ (List.mem_cons_self _ _), he⟩
      omega

theorem chunk_stream_reaches_writer (hw : ConsumesOkPrefix env) {fuel : Nat} {dir : BackupDir}
    {t : Trace} {reader : ChunkReader} (hopen : ds.lockedReader dir = .ok ())
    (hspawn : env.spawnChunkReaderThread (t ++ [.backupSnapshot dir]) dir = .ok reader)
    (hfuel : reader.chunks.length < fuel) :
    wp (backupSnapshot env ds fuel dir)
      (fun _ t' => ∃ Δ, t' = t ++ Δ ∧ Δ.countP Event.isChunkAppend ≤ reader.chunks.length ∧
        DeliveredBeforeArchive reader.chunks Δ ∧ ∀ c ∈ reader.chunks, c.isOk)
      (fun e t' => ∃ Δ, t' = t ++ Δ ∧ e ≠ .outOfFuel ∧
        Δ.countP Event.isChunkAppend ≤ reader.chunks.length ∧
        DeliveredBeforeArchive reader.chunks Δ ∧
        ((∃ c ∈ reader.chunks, c.isOk = false) → Δ.countP Event.isSnapshotAppend = 0)) t := by
  simp only [backupSnapshot, wp_bind, wp_emit, hopen, wp_call, hspawn]
  refine wp_mono (chunkLoop_streams env hw fuel _ _ hfuel) (fun _ t₁ h₁ => ?_) (fun e t₁ h₁ => ?_)
  · obtain ⟨Δ₁, rfl, hc₁, hdel₁, hs₁, hok₁⟩ := h₁
    set A := [Event.backupSnapshot dir, .spawnChunkReaderThread (.ok reader)] ++ Δ₁ with hAdef
    have hA : A.countP Event.isSnapshotAppend = 0 := by simp [A, hs₁]
    have hcA : A.countP Event.isChunkAppend ≤ reader.chunks.length := by simpa [A] using hc₁
    have hdelA : consumedChunks reader.chunks (chunkCounts A) = reader.chunks := by
      simpa [A] using hdel₁
    rw [show t ++ [Event.backupSnapshot dir] ++ [.spawnChunkReaderThread (.ok reader)] ++ Δ₁ =
      t ++ A by simp [A]]
    cases reader.joinOk
    · refine ⟨A, rfl, nofun, hcA, ?_, fun _ => hA⟩
      simpa using DeliveredBeforeArchive.append (B := []) hA rfl hdelA
    · simp only [Bool.not_true, Bool.false_eq_true, if_false, wp_bind, wp_pure]
      refine wp_mono (writeSnapshotArchive_noChunk env dir _) (fun _ t₂ h₂ => ?_)
        (fun e t₂ h₂ => ?_)
      · obtain ⟨Δ₂, rfl, hc₂⟩ := h₂
        exact ⟨A ++ Δ₂, by simp, by simpa [hc₂] using hcA,
          DeliveredBeforeArchive.append hA hc₂ hdelA, hok₁⟩
      · obtain ⟨he, Δ₂, rfl, hc₂⟩ := h₂
        refine ⟨A ++ Δ₂, by simp, he, by simpa [hc₂] using hcA,
          DeliveredBeforeArchive.append hA hc₂ hdelA, fun ⟨c, hc, hbad⟩ => ?_⟩
        simp [hok₁ c hc] at hbad
  · obtain ⟨Δ₁, rfl, he, hc₁, hs₁⟩ := h₁
    have hs : ([Event.backupSnapshot dir, .spawnChunkReaderThread (.ok reader)] ++ Δ₁).countP
        Event.isSnapshotAppend = 0 := by simp [hs₁]
    exact ⟨_, by simp, he, by simpa using hc₁, .of_no_archive hs, fun _ => hs⟩

end

/-! ## A run on two chunks -/

theorem steadyEnv_consumesOkPrefix (chunks : List (Except String Chunk)) :
    ConsumesOkPrefix (steadyEnv chunks) := by
  intro t c rest k leom h
  cases h
  simp [List.takeWhile_cons, Except.isOk, Except.toBool]

theorem chunk_stream_reaches_writer_two_chunks :
    ConsumesOkPrefix (steadyEnv twoChunks) ∧
      (sampleDatastore [] (fun _ => []) (fun _ => [])).lockedReader (vmSnapshot 0) = .ok () ∧
      (steadyEnv twoChunks).spawnChunkReaderThread ([] ++ [.backupSnapshot (vmSnapshot 0)])
        (vmSnapshot 0) = .ok ⟨twoChunks, true⟩ ∧
      twoChunks.length < 3 ∧
      wp (backupSnapshot (steadyEnv twoChunks) (sampleDatastore [] (fun _ => []) (fun _ => [])) 3
          (vmSnapshot 0))
        (fun _ t' => ∃ Δ, t' = [] ++ Δ ∧ Δ.countP Event.isChunkAppend ≤ twoChunks.length ∧
          DeliveredBeforeArchive twoChunks Δ ∧ ∀ c ∈ twoChunks, c.isOk)
        (fun e t' => ∃ Δ, t' = [] ++ Δ ∧ e ≠ .outOfFuel ∧
          Δ.countP Event.isChunkAppend ≤ twoChunks.length ∧ DeliveredBeforeArchive twoChunks Δ ∧
          ((∃ c ∈ twoChunks, c.isOk = false) → Δ.countP Event.isSnapshotAppend = 0)) [] :=
  ⟨steadyEnv_consumesOkPrefix _, rfl, rfl, by decide,
    chunk_stream_reaches_writer _ _ (steadyEnv_consumesOkPrefix _) rfl rfl (by decide)⟩

end PbsCloudBackup.Backup
