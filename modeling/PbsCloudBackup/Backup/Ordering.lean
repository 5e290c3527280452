import PbsCloudBackup.Backup.Selection
import Mathlib.Data.List.Perm.Basic
/-!
# The order in which groups are discovered

`backup_worker` collects the groups of every enumerated namespace in the order
`recursive_iter_backup_ns_ok` and `list_backup_groups` yield them, then sorts them with
`sort_unstable_by` on the group's type and id alone. When no two groups share that key the
sort leaves one list whatever the discovery order (`sortUnstableBy_eq_of_perm`), and the group
loop reads nothing else of the listings (`groupLoop_congr`): two runs that discover the same
groups in different orders are the same run (`discovery_order_irrelevant`). Groups of one
type and id in two namespaces share a key, and their order is then left to
`sort_unstable_by`: on two such groups, a slice short enough for the insertion sort, the
discovery order shows through (`twinDatastore_discovery_order`).
-/

namespace PbsCloudBackup.Backup

/-! ## The group loop reads three fields of the datastore -/

section Congr

variable (env : Env) {ds₁ ds₂ : Datastore}

theorem backupSnapshot_congr (hopen : ds₁.lockedReader = ds₂.lockedReader)
    (hexists : ds₁.fullPathExists = ds₂.fullPathExists) :
    backupSnapshot env ds₁ = backupSnapshot env ds₂ := by
  funext fuel dir
  simp only [backupSnapshot, hopen, hexists]

variable (hlist : ds₁.listBackups = ds₂.listBackups)
  (hopen : ds₁.lockedReader = ds₂.lockedReader) (hexists : ds₁.fullPathExists = ds₂.fullPathExists)
include hopen hexists

theorem backupListed_congr : backupListed env ds₁ = backupListed env ds₂ := by
  funext fuel st info
  simp only [backupListed, backupSnapshot_congr env hopen hexists]

theorem snapshotLoop_congr (fuel : Nat) :
    snapshotLoop env ds₁ fuel = snapshotLoop env ds₂ fuel := by
  funext st infos
  induction infos generalizing st with
  | nil => rfl
  | cons info rest ih =>
    funext n
    simp only [snapshotLoop, backupListed_congr env hopen hexists, ih]

include hlist

theorem backupGroup_congr : backupGroup env ds₁ = backupGroup env ds₂ := by
  funext fuel latestOnly st groupNumber group
  simp only [backupGroup, hlist, backupListed_congr env hopen hexists,
    snapshotLoop_congr env hopen hexists]

theorem groupLoop_congr (fuel : Nat) (latestOnly : Bool) :
    groupLoop env ds₁ fuel latestOnly = groupLoop env ds₂ fuel latestOnly := by
  funext st groups
  induction groups generalizing st with
  | nil => rfl
  | cons group rest ih =>
    funext n
    simp only [groupLoop, backupGroup_congr env hlist hopen hexists, ih]

end Congr

/-! ## Sorting on distinct keys -/

/-- A sort on keys no two elements share gives one list for every order of its input. -/
theorem sortUnstableBy_eq_of_perm {α γ : Type} [LinearOrder γ] {key : α → γ} {l₁ l₂ : List α}
    (h : l₁.Perm l₂) (hd : (l₁.map key).Nodup) :
    sortUnstableBy key l₁ = sortUnstableBy key l₂ := by
  haveI : IsAntisymm α fun a b => key a < key b :=
    ⟨fun _ _ h₁ h₂ => absurd (h₁.trans h₂) (lt_irrefl _)⟩
  have strict : ∀ l : List α, (l.map key).Nodup →
      (sortUnstableBy key l).Sorted fun a b => key a < key b :=
    fun l hl => ((sortUnstableBy_sorted key l).and
      ((sortUnstableBy_perm key l).symm.pairwise (List.pairwise_map.1 hl) Ne.symm)).imp
        fun h => lt_of_le_of_ne h.1 h.2
  exact List.eq_of_perm_of_sorted
    ((sortUnstableBy_perm key l₁).trans (h.trans (sortUnstableBy_perm key l₂).symm))
    (strict l₁ hd) (strict l₂ ((h.map key).nodup_iff.1 hd))

/-! ## Two discovery orders -/

/-- Two runs on datastores that list the same groups and snapshots, the namespaces and the
groups of each namespace in any order, are the same run when no two groups share a type and
an id. -/
theorem discovery_order_irrelevant (env : Env) (ds₁ ds₂ : Datastore) (setup : Setup)
    (forceMediaSet : Bool) (fuel : Nat) (ns₁ ns₂ : List BackupNamespace)
    (groups₁ groups₂ : BackupNamespace → List BackupGroup)
    (hns₁ : ds₁.recursiveIterBackupNsOk (setup.ns.getD .root) setup.maxDepth = .ok ns₁)
    (hns₂ : ds₂.recursiveIterBackupNsOk (setup.ns.getD .root) setup.maxDepth = .ok ns₂)
    (hgroups₁ : ∀ ns ∈ ns₁, ds₁.listBackupGroups ns = .ok (groups₁ ns))
    (hgroups₂ : ∀ ns ∈ ns₂, ds₂.listBackupGroups ns = .ok (groups₂ ns))
    (hperm : ns₁.Perm ns₂) (hgperm : ∀ ns ∈ ns₁, (groups₁ ns).Perm (groups₂ ns))
    (hdistinct : ((ns₁.flatMap groups₁).map (·.group.key)).Nodup)
    (hlist : ds₁.listBackups = ds₂.listBackups) (hopen : ds₁.lockedReader = ds₂.lockedReader)
    (hexists : ds₁.fullPathExists = ds₂.fullPathExists) :
    backupWorker env ds₁ setup forceMediaSet fuel =
      backupWorker env ds₂ setup forceMediaSet fuel := by
  have hall : (ns₁.flatMap groups₁).Perm (ns₂.flatMap groups₂) :=
    (hperm.flatMap_right groups₁).trans
      (List.Perm.flatMap_left ns₂ fun ns hns => hgperm ns (hperm.mem_iff.2 hns))
  have hsel : selectGroups env (ns₁.flatMap groups₁) setup.groupFilter =
      selectGroups env (ns₂.flatMap groups₂) setup.groupFilter := by
    rw [selectGroups_eq_filter, selectGroups_eq_filter, sortUnstableBy_eq_of_perm hall hdistinct]
  simp only [backupWorker, hns₁, hns₂, lift_ok_bind, listGroups_eq_ok ds₁ hgroups₁,
    listGroups_eq_ok ds₂ hgroups₂, hsel, groupLoop_congr env hlist hopen hexists]

/-- The namespace `a` below the root. -/
def nsA : BackupNamespace := ⟨["a".toList]⟩

/-- A datastore whose namespaces, the root and `a`, hold the groups `vm/100` and `ct/100`, each
with one finished snapshot taken at 0, enumerated in the order `namespaces`. -/
def kindDatastore (namespaces : List BackupNamespace) : Datastore :=
  sampleDatastore namespaces
    (fun ns => [⟨ns, ⟨if ns.isRoot then .vm else .ct, "100".toList⟩⟩])
    (fun g => [⟨⟨g.ns, g.group, 0⟩, true⟩])

theorem kindDatastore_discovery_order :
    backupWorker (steadyEnv []) (kindDatastore [.root, nsA]) plainSetup false 3 =
      backupWorker (steadyEnv []) (kindDatastore [nsA, .root]) plainSetup false 3 :=
  discovery_order_irrelevant _ _ _ _ _ _ [.root, nsA] [nsA, .root]
    (fun ns => [⟨ns, ⟨if ns.isRoot then .vm else .ct, "100".toList⟩⟩])
    (fun ns => [⟨ns, ⟨if ns.isRoot then .vm else .ct, "100".toList⟩⟩]) rfl rfl
    (fun _ _ => rfl) (fun _ _ => rfl) (.swap _ _ _) (fun _ _ => .refl _) (by decide) rfl rfl rfl

/-- A datastore whose namespaces, the root and `a`, each hold a group `vm/100` with one
finished snapshot taken at 0, enumerated in the order `namespaces`. -/
def twinDatastore (namespaces : List BackupNamespace) : Datastore :=
  sampleDatastore namespaces (fun ns => [⟨ns, ⟨.vm, "100".toList⟩⟩])
    (fun g => [⟨⟨g.ns, g.group, 0⟩, true⟩])

/-- The two groups `vm/100` in the root and in `a` share their key, and the two discovery
orders of the namespaces give two runs that pass their snapshots in opposite orders. -/
theorem twinDatastore_discovery_order :
    passedSnapshots (runTrace (backupWorker (steadyEnv []) (twinDatastore [.root, nsA])
        plainSetup false 3)) = [vmSnapshot 0, ⟨nsA, ⟨.vm, "100".toList⟩, 0⟩] ∧
      passedSnapshots (runTrace (backupWorker (steadyEnv []) (twinDatastore [nsA, .root])
        plainSetup false 3)) = [⟨nsA, ⟨.vm, "100".toList⟩, 0⟩, vmSnapshot 0] :=
  ⟨rfl, rfl⟩

end PbsCloudBackup.Backup
