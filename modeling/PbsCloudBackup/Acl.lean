import Mathlib.Data.List.Basic
import Mathlib.Data.Nat.Bitwise
/-!
# Privileges and roles

`acl.rs` names the five privileges of cloud backups as bits of a `u64`:
`constnamedbitmap!` gives the n-th privilege the bit `1 << n` and lists the names and bits in
`PRIVILEGES`. The roles are unions of privileges, and `privs_to_priv_names` prints a mask as
the names of the privileges it holds.

* `privsToPrivNames_eq_filter`: the names of the privileges whose bit is set, in declaration
  order;
* `mem_privsToPrivNames`: a privilege's name is printed exactly when its bit is set;
* `privsToPrivNames_and_low`: bits above the five privileges are not printed, so
  `ROLE_ADMIN`, all ones, prints as `ROLE_CLOUD_ADMIN` does.
-/

namespace PbsCloudBackup.Acl

def privCloudAudit : UInt64 := (1 : UInt64) <<< 0
def privCloudModify : UInt64 := (1 : UInt64) <<< 1
def privCloudBackup : UInt64 := (1 : UInt64) <<< 2
def privCloudRestore : UInt64 := (1 : UInt64) <<< 3
def privCloudDelete : UInt64 := (1 : UInt64) <<< 4

/-- `PRIVILEGES`: the name and bit of each privilege, in declaration order. -/
def privileges : List (String × UInt64) :=
  [("Cloud.Audit", privCloudAudit), ("Cloud.Modify", privCloudModify),
    ("Cloud.Backup", privCloudBackup), ("Cloud.Restore", privCloudRestore),
    ("Cloud.Delete", privCloudDelete)]

/-- `privs_to_priv_names`. -/
def privsToPrivNames (privs : UInt64) : List String :=
  privileges.foldl (fun privNames (name, value) =>
    if value &&& privs != 0 then privNames ++ [name] else privNames) []

/-- `ROLE_ADMIN`, `u64::MAX`. -/
def roleAdmin : UInt64 := 0xFFFFFFFFFFFFFFFF
def roleNoAccess : UInt64 := 0
def roleCloudAudit : UInt64 := 0 ||| privCloudAudit
def roleCloudAdmin : UInt64 :=
  0 ||| privCloudAudit ||| privCloudModify ||| privCloudBackup ||| privCloudRestore |||
    privCloudDelete
def roleCloudUser : UInt64 := 0 ||| privCloudBackup ||| privCloudRestore

/-- `Role`, with the privileges of each role as its `repr(u64)` value. -/
inductive Role
  | admin
  | noAccess
  | cloudAudit
  | cloudAdmin
  | cloudUser
  deriving DecidableEq, Repr

namespace Role

def value : Role → UInt64
  | admin => roleAdmin
  | noAccess => roleNoAccess
  | cloudAudit => roleCloudAudit
  | cloudAdmin => roleCloudAdmin
  | cloudUser => roleCloudUser

/-- `Role::from_str`: serde's deserializer of the enum takes a variant's name. -/
def fromStr : String → Option Role
  | "Admin" => some admin
  | "NoAccess" => some noAccess
  | "CloudAudit" => some cloudAudit
  | "CloudAdmin" => some cloudAdmin
  | "CloudUser" => some cloudUser
  | _ => none

end Role

/-- A fold that pushes `f x` for the items satisfying `c` is a filter and a map. -/
theorem foldl_push {α β : Type} (c : α → Bool) (f : α → β) :
    ∀ (l : List α) (acc : List β),
      l.foldl (fun acc x => if c x then acc ++ [f x] else acc) acc = acc ++ (l.filter c).map f
  | [], acc => by simp
  | x :: l, acc => by
    rw [List.foldl_cons, foldl_push c f l, List.filter_cons]
    cases c x <;> simp

theorem privsToPrivNames_eq_filter (privs : UInt64) :
    privsToPrivNames privs = (privileges.filter fun x => x.2 &&& privs != 0).map Prod.fst :=
  foldl_push (fun x : String × UInt64 => x.2 &&& privs != 0) Prod.fst privileges []

theorem mem_privsToPrivNames {privs : UInt64} {name : String} {value : UInt64}
    (h : (name, value) ∈ privileges) (hname : ∀ x ∈ privileges, x.1 = name → x.2 = value) :
    name ∈ privsToPrivNames privs ↔ value &&& privs ≠ 0 := by
  rw [privsToPrivNames_eq_filter, List.mem_map]
  constructor
  · rintro ⟨x, hx, rfl⟩
    rw [List.mem_filter] at hx
    rw [← hname x hx.1 rfl]
    simpa using hx.2
  · exact fun hv => ⟨_, List.mem_filter.2 ⟨h, by simpa using hv⟩, rfl⟩

/-- A privilege bit keeps only itself of the five low bits of a mask. -/
theorem and_and_low {value : UInt64} (privs : UInt64) (h : value.toNat &&& 31 = value.toNat) :
    value &&& (privs &&& 31) = value &&& privs := by
  apply UInt64.toNat.inj
  rw [UInt64.and_toNat, UInt64.and_toNat, UInt64.and_toNat, Nat.land_comm privs.toNat,
    ← Nat.land_assoc]
  exact congrArg (· &&& privs.toNat) h

theorem privsToPrivNames_and_low (privs : UInt64) :
    privsToPrivNames (privs &&& 31) = privsToPrivNames privs := by
  rw [privsToPrivNames_eq_filter, privsToPrivNames_eq_filter]
  congr 1
  refine List.filter_congr fun x hx => ?_
  rw [and_and_low privs]
  simp only [privileges, List.mem_cons, List.mem_singleton, List.not_mem_nil, or_false] at hx
  rcases hx with rfl | rfl | rfl | rfl | rfl <;> rfl

example : privsToPrivNames roleAdmin = privsToPrivNames roleCloudAdmin := by decide

example : privsToPrivNames roleCloudUser = ["Cloud.Backup", "Cloud.Restore"] := by decide

end PbsCloudBackup.Acl
