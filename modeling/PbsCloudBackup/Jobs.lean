import PbsCloudBackup.Text
import Mathlib.Data.String.Basic
/-!
# Group filters

`GroupFilter` and `FilterType` of `jobs.rs`, with the `FromStr` and `Display` that the
serde forwarding uses to store group filters in job configurations. The filter language is
`[exclude:|include:](type:T|group:G|regex:R)`. `BACKUP_GROUP_SCHEMA` and `Regex::new` are
validators defined elsewhere and enter as the opaque `Validators`; a regex is modelled by
its text, so the custom `PartialEq` of `FilterType`, which compares regexes by `as_str`,
is equality here.

The main result, `groupFilter_roundtrip`, reads a printed filter back as the same filter,
and prints a parsed filter as its input without a leading `include:`.

The last section holds the keep options of prune jobs. `keeps_something` adds six `u64`
counts, and the sum can overflow: a release build wraps it, a debug build panics
(`keepsSomething_overflow`).
-/

namespace PbsCloudBackup.Jobs

open Text

/-- Modelled from the spec: `BackupType` is declared outside `src/`; `jobs.rs` documents a
backup group type as "either `vm`, `ct`, or `host`". Constructor order is its `Ord`. -/
inductive BackupType
  | vm
  | ct
  | host
  deriving DecidableEq, Repr

namespace BackupType

/-- Modelled from the spec: the `Display` of a backup type is its name. -/
def fmt : BackupType → List Char
  | vm => "vm".toList
  | ct => "ct".toList
  | host => "host".toList

/-- Modelled from the spec: `FromStr` accepts exactly the three names. -/
def fromStr (s : List Char) : Option BackupType :=
  if s = "vm".toList then some vm
  else if s = "ct".toList then some ct
  else if s = "host".toList then some host
  else none

/-- The index of a type in the declaration order, which the derived `Ord` compares. -/
def index : BackupType → Nat
  | vm => 0
  | ct => 1
  | host => 2

theorem fromStr_fmt (t : BackupType) : fromStr t.fmt = some t := by
  cases t <;> decide

theorem fmt_of_fromStr {s : List Char} {t : BackupType} (h : fromStr s = some t) : t.fmt = s := by
  simp only [fromStr] at h
  split_ifs at h <;> cases h <;> simp_all [fmt]

end BackupType

/-- A compiled regular expression, modelled by the text `Regex::as_str` returns. -/
structure Regex where
  asStr : List Char
  deriving DecidableEq, Repr

/-- The validators `from_str` calls, taken as opaque:
`BACKUP_GROUP_SCHEMA.parse_simple_value` and `Regex::new`. -/
structure Validators where
  backupGroupSchema : List Char → Bool
  regexNew : List Char → Bool

/-- Why `FilterType::from_str` fails: one of its own `bail!`s, with its text, or an error
of a validator or of `BackupType::from_str`. -/
inductive FilterError
  | bail (text : String)
  | backupType
  | backupGroupSchema
  | regexNew
  deriving DecidableEq, Repr

/-- Filter for matching `BackupGroup`s, for use with `BackupGroup::filter`. -/
inductive FilterType
  /-- BackupGroup type - either `vm`, `ct`, or `host`. -/
  | backupType (backupType : BackupType)
  /-- Full identifier of BackupGroup, including type -/
  | group (group : List Char)
  /-- A regular expression matched against the full identifier of the BackupGroup -/
  | regex (regex : Regex)
  deriving DecidableEq, Repr

namespace FilterType

/-- `FilterType::from_str`. -/
def fromStr (v : Validators) (s : List Char) : Except FilterError FilterType :=
  match splitOnce s ':' with
  | some (ty, value) =>
    if ty = "group".toList then
      if v.backupGroupSchema value then .ok (group value) else .error .backupGroupSchema
    else if ty = "type".toList then
      match BackupType.fromStr value with
      | some t => .ok (backupType t)
      | none => .error .backupType
    else if ty = "regex".toList then
      if v.regexNew value then .ok (regex ⟨value⟩) else .error .regexNew
    else .error (.bail ("expected \x27group\x27, \x27type\x27 or \x27regex\x27 prefix, got \x27" ++
      String.mk ty ++ "\x27"))
  | none => .error (.bail
      "input doesn\x27t match expected format \x27<group:GROUP||type:<vm|ct|host>|regex:REGEX>\x27")

/-- `impl Display for FilterType`. -/
def fmt : FilterType → List Char
  | backupType t => "type:".toList ++ t.fmt
  | group g => "group:".toList ++ g
  | regex r => "regex:".toList ++ r.asStr

/-- The keyword `fmt` writes before the first `:`. -/
def keyword : FilterType → List Char
  | backupType _ => "type".toList
  | group _ => "group".toList
  | regex _ => "regex".toList

/-- The text `fmt` writes after the keyword and its `:`. -/
def payload : FilterType → List Char
  | backupType t => t.fmt
  | group g => g
  | regex r => r.asStr

/-- The payload passes the validator `fromStr` checks it with. -/
def Valid (v : Validators) : FilterType → Prop
  | backupType _ => True
  | group g => v.backupGroupSchema g = true
  | regex r => v.regexNew r.asStr = true

theorem fmt_eq (ft : FilterType) : ft.fmt = ft.keyword ++ ':' :: ft.payload := by
  cases ft <;> rfl

theorem colon_not_mem_keyword (ft : FilterType) : ':' ∉ ft.keyword := by
  cases ft <;> simp [keyword]

theorem fromStr_fmt (v : Validators) {ft : FilterType} (h : ft.Valid v) :
    fromStr v ft.fmt = .ok ft := by
  rw [fmt_eq, fromStr, splitOnce_append_cons _ ft.colon_not_mem_keyword]
  cases ft <;> simp_all [keyword, payload, Valid, BackupType.fromStr_fmt]

/-- A parsed filter type prints as its input and carries valid payload. -/
theorem fmt_of_fromStr (v : Validators) {s : List Char} {ft : FilterType}
    (h : fromStr v s = .ok ft) : ft.fmt = s ∧ ft.Valid v := by
  simp only [fromStr] at h
  split at h
  · rename_i ty value hs
    obtain ⟨rfl, -⟩ := splitOnce_eq_some_iff.1 hs
    split_ifs at h with h1 h2 h3 h4 h5
    · cases h; subst h1; exact ⟨rfl, h2⟩
    · subst h3
      split at h
      · rename_i t ht
        cases h
        exact ⟨by simp [fmt, BackupType.fmt_of_fromStr ht], trivial⟩
      · cases h
    · cases h; subst h4; exact ⟨rfl, h5⟩
  · cases h

end FilterType

/-- A group filter: a filter type, possibly inverted. -/
structure GroupFilter where
  isExclude : Bool
  filterType : FilterType
  deriving DecidableEq, Repr

namespace GroupFilter

/-- The `match s.split_once(':')` of `GroupFilter::from_str`: whether the filter is
inverted, and the text left for `FilterType::from_str`. -/
def splitInversion (s : List Char) : Bool × List Char :=
  match splitOnce s ':' with
  | some (p, value) =>
    if p = "include".toList then (false, value)
    else if p = "exclude".toList then (true, value)
    else (false, s)
  | none => (false, s)

/-- `GroupFilter::from_str`; serde deserializes group filters through it. -/
def fromStr (v : Validators) (s : List Char) : Except FilterError GroupFilter :=
  let (isExclude, typeStr) := splitInversion s
  (FilterType.fromStr v typeStr).map fun filterType => ⟨isExclude, filterType⟩

/-- `impl Display for GroupFilter`; serde serializes group filters through it. -/
def fmt (g : GroupFilter) : List Char :=
  (if g.isExclude then "exclude:".toList else []) ++ g.filterType.fmt

theorem splitInversion_fmt (ft : FilterType) : splitInversion ft.fmt = (false, ft.fmt) := by
  cases ft <;> rfl

theorem splitInversion_exclude (x : List Char) :
    splitInversion ("exclude:".toList ++ x) = (true, x) := rfl

/-- Printing the inversion back before the rest gives the input without a leading
`include:`. -/
theorem splitInversion_text (s : List Char) :
    (if (splitInversion s).1 then "exclude:".toList else []) ++ (splitInversion s).2 =
      (stripPrefix s "include:".toList).getD s := by
  have hinc : "include:".toList = "include".toList ++ [':'] := rfl
  cases hs : splitOnce s ':' with
  | none =>
    have : stripPrefix s "include:".toList = none := by
      rw [stripPrefix_eq_none_iff]
      rintro ⟨x, rfl⟩
      cases hs
    simp only [splitInversion, hs, this]
    rfl
  | some r =>
    obtain ⟨p, value⟩ := r
    obtain ⟨rfl, hp⟩ := splitOnce_eq_some_iff.1 hs
    rw [hinc, stripPrefix_append_cons_of_not_mem hp (by decide)]
    by_cases h1 : p = "include".toList
    · subst h1; rfl
    by_cases h2 : p = "exclude".toList
    · subst h2; rfl
    · simp only [splitInversion, hs, h1, h2, if_false]; rfl

theorem fromStr_fmt (v : Validators) {g : GroupFilter} (h : g.filterType.Valid v) :
    fromStr v g.fmt = .ok g := by
  obtain ⟨isExclude, ft⟩ := g
  cases isExclude
  · have hfmt : fmt ⟨false, ft⟩ = ft.fmt := rfl
    rw [fromStr, hfmt, splitInversion_fmt]
    simp [Except.map, FilterType.fromStr_fmt v h]
  · have hfmt : fmt ⟨true, ft⟩ = "exclude:".toList ++ ft.fmt := rfl
    rw [fromStr, hfmt, splitInversion_exclude]
    simp [Except.map, FilterType.fromStr_fmt v h]

/-- A parse of `s` carries valid payloads and prints as `s` without a leading `include:`. -/
theorem fmt_of_fromStr (v : Validators) {s : List Char} {g : GroupFilter}
    (h : fromStr v s = .ok g) :
    g.filterType.Valid v ∧ g.fmt = (stripPrefix s "include:".toList).getD s := by
  obtain ⟨ft, hft, rfl⟩ : ∃ ft, FilterType.fromStr v (splitInversion s).2 = .ok ft ∧
      g = ⟨(splitInversion s).1, ft⟩ := by
    simp only [fromStr] at h
    cases hft : FilterType.fromStr v (splitInversion s).2 <;> rw [hft] at h <;> cases h
    exact ⟨_, rfl, rfl⟩
  obtain ⟨hfmt, hv⟩ := FilterType.fmt_of_fromStr v hft
  exact ⟨hv, by rw [fmt, hfmt, splitInversion_text]⟩

end GroupFilter

theorem groupFilter_roundtrip (v : Validators) {s : List Char} {g : GroupFilter}
    (h : GroupFilter.fromStr v s = .ok g) :
    GroupFilter.fromStr v g.fmt = .ok g ∧ g.fmt = (stripPrefix s "include:".toList).getD s :=
  have hg := GroupFilter.fmt_of_fromStr v h
  ⟨GroupFilter.fromStr_fmt v hg.1, hg.2⟩

/-- The validators that accept every value. -/
def acceptAll : Validators := ⟨fun _ => true, fun _ => true⟩

theorem groupFilter_roundtrip_exclude_group :
    GroupFilter.fromStr acceptAll "exclude:group:vm/100".toList =
        .ok ⟨true, .group "vm/100".toList⟩ ∧
      GroupFilter.fromStr acceptAll (GroupFilter.fmt ⟨true, .group "vm/100".toList⟩) =
        .ok ⟨true, .group "vm/100".toList⟩ ∧
      GroupFilter.fmt ⟨true, .group "vm/100".toList⟩ =
        (stripPrefix "exclude:group:vm/100".toList "include:".toList).getD
          "exclude:group:vm/100".toList :=
  have h : GroupFilter.fromStr acceptAll "exclude:group:vm/100".toList =
      .ok ⟨true, .group "vm/100".toList⟩ := rfl
  ⟨h, groupFilter_roundtrip acceptAll h⟩

/-! ## Keep options of prune jobs -/

/-- Common pruning options: how many snapshots of each kind a prune keeps, each optional. -/
structure KeepOptions where
  keepLast : Option UInt64
  keepHourly : Option UInt64
  keepDaily : Option UInt64
  keepWeekly : Option UInt64
  keepMonthly : Option UInt64
  keepYearly : Option UInt64
  deriving DecidableEq, Repr

namespace KeepOptions

/-- `KeepOptions::keeps_something` as a release build runs it, where `u64` addition wraps. -/
def keepsSomething (k : KeepOptions) : Bool :=
  k.keepLast.getD 0 + k.keepHourly.getD 0 + k.keepDaily.getD 0 + k.keepWeekly.getD 0 +
    k.keepMonthly.getD 0 + k.keepYearly.getD 0 > 0

/-- A `u64` addition as a debug build runs it: `none` is the panic on overflow. -/
def checkedAdd (a b : UInt64) : Option UInt64 :=
  if a.toNat + b.toNat < 2 ^ 64 then some (a + b) else none

/-- `KeepOptions::keeps_something` as a debug build runs it: `none` when one of its
additions overflows and panics. -/
def keepsSomethingChecked (k : KeepOptions) : Option Bool := do
  let s ← checkedAdd (k.keepLast.getD 0) (k.keepHourly.getD 0)
  let s ← checkedAdd s (k.keepDaily.getD 0)
  let s ← checkedAdd s (k.keepWeekly.getD 0)
  let s ← checkedAdd s (k.keepMonthly.getD 0)
  let s ← checkedAdd s (k.keepYearly.getD 0)
  pure (s > 0)

/-- The six fields, in the order `keeps_something` adds them. -/
def fields (k : KeepOptions) : List (Option UInt64) :=
  [k.keepLast, k.keepHourly, k.keepDaily, k.keepWeekly, k.keepMonthly, k.keepYearly]

/-- The sum of the counts as a number, which does not wrap; an unset field counts 0. -/
def keepSum (k : KeepOptions) : Nat :=
  (k.keepLast.getD 0).toNat + (k.keepHourly.getD 0).toNat + (k.keepDaily.getD 0).toNat +
    (k.keepWeekly.getD 0).toNat + (k.keepMonthly.getD 0).toNat + (k.keepYearly.getD 0).toNat

/-- Modelled from the spec: some field is set to a positive count. -/
def keepsAny (k : KeepOptions) : Bool := k.fields.any fun o => o.any (· > 0)

theorem toNat_sum (k : KeepOptions) :
    (k.keepLast.getD 0 + k.keepHourly.getD 0 + k.keepDaily.getD 0 + k.keepWeekly.getD 0 +
      k.keepMonthly.getD 0 + k.keepYearly.getD 0).toNat = k.keepSum % 2 ^ 64 := by
  simp only [UInt64.toNat_add, keepSum, Nat.mod_add_mod, UInt64.size]
  rfl

theorem keepsSomething_iff (k : KeepOptions) :
    k.keepsSomething = true ↔ k.keepSum % 2 ^ 64 ≠ 0 := by
  rw [keepsSomething, decide_eq_true_iff, gt_iff_lt, ← toNat_sum]
  exact Nat.pos_iff_ne_zero

theorem any_pos_iff (o : Option UInt64) : o.any (· > 0) = true ↔ 0 < (o.getD 0).toNat := by
  cases o <;> simp
  exact Iff.rfl

theorem keepsAny_iff (k : KeepOptions) : k.keepsAny = true ↔ 0 < k.keepSum := by
  simp only [keepsAny, fields, List.any_cons, List.any_nil, Bool.or_false, Bool.or_eq_true,
    any_pos_iff, keepSum]
  omega

theorem checkedAdd_bind {β : Type} (a b : UInt64) (f : UInt64 → Option β) :
    checkedAdd a b >>= f = if a.toNat + b.toNat < 2 ^ 64 then f (a + b) else none := by
  unfold checkedAdd
  split <;> rfl

theorem toNat_add_of_lt {a b : UInt64} (h : a.toNat + b.toNat < 2 ^ 64) :
    (a + b).toNat = a.toNat + b.toNat :=
  (UInt64.toNat_add a b).trans (Nat.mod_eq_of_lt h)

theorem le_foldl_toNat : ∀ (xs : List UInt64) (n : Nat), n ≤ xs.foldl (fun n x => n + x.toNat) n
  | [], _ => le_rfl
  | x :: xs, n => (Nat.le_add_right n x.toNat).trans (le_foldl_toNat xs _)

/-- Checked additions along `xs` onto `s`, followed by `f`: `f` gets the sum when no partial
sum reaches `2 ^ 64`, which is when the whole sum stays below it. -/
theorem foldlM_checkedAdd_bind {β : Type} (f : UInt64 → Option β) :
    ∀ (xs : List UInt64) (s : UInt64), (xs.foldlM checkedAdd s >>= f) =
      if xs.foldl (fun n x => n + x.toNat) s.toNat < 2 ^ 64 then f (xs.foldl (· + ·) s) else none
  | [], s => by rw [List.foldlM_nil, pure_bind, List.foldl_nil, List.foldl_nil, if_pos s.toNat_lt]
  | x :: xs, s => by
    rw [List.foldlM_cons, bind_assoc, checkedAdd_bind, List.foldl_cons, List.foldl_cons]
    split
    next h => rw [foldlM_checkedAdd_bind f xs, toNat_add_of_lt h]
    next h =>
      have := le_foldl_toNat xs (s.toNat + x.toNat)
      rw [if_neg (by omega)]

theorem keepsSomethingChecked_eq (k : KeepOptions) :
    k.keepsSomethingChecked = if k.keepSum < 2 ^ 64 then some k.keepsSomething else none := by
  have h := foldlM_checkedAdd_bind (β := Bool) (fun s => pure (s > 0))
    [k.keepHourly.getD 0, k.keepDaily.getD 0, k.keepWeekly.getD 0, k.keepMonthly.getD 0,
      k.keepYearly.getD 0] (k.keepLast.getD 0)
  simp only [List.foldlM_cons, List.foldlM_nil, bind_assoc, pure_bind] at h
  exact h

end KeepOptions

/-- `PruneJobOptions`, of which `keeps_something` reads the keep options alone. -/
structure PruneJobOptions where
  keep : KeepOptions

/-- `PruneJobOptions::keeps_something`. -/
def PruneJobOptions.keepsSomething (o : PruneJobOptions) : Bool := o.keep.keepsSomething

/-- `keeps_something` adds the six counts in `u64`. A release build answers whether the sum,
wrapped to 64 bits, is positive, which it is exactly when the sum is not a multiple of
`2 ^ 64`; a debug build panics exactly when the sum reaches `2 ^ 64`. Below that bound both
builds answer whether some count is set to a positive value, and
`PruneJobOptions::keeps_something` answers as its `keep` does. -/
theorem keepsSomething_overflow (k : KeepOptions) (o : PruneJobOptions) :
    (k.keepsSomething = true ↔ k.keepSum % 2 ^ 64 ≠ 0) ∧
    (k.keepsSomethingChecked = none ↔ 2 ^ 64 ≤ k.keepSum) ∧
    (k.keepSum < 2 ^ 64 →
      k.keepsSomethingChecked = some k.keepsAny ∧ k.keepsSomething = k.keepsAny) ∧
    (o.keepsSomething = true ↔ o.keep.keepSum % 2 ^ 64 ≠ 0) := by
  refine ⟨k.keepsSomething_iff, ?_, fun h => ?_, o.keep.keepsSomething_iff⟩
  · rw [k.keepsSomethingChecked_eq]
    split_ifs with h
    · exact ⟨nofun, fun h' => absurd h (Nat.not_lt.2 h')⟩
    · exact ⟨fun _ => Nat.le_of_not_lt h, fun _ => rfl⟩
  · have hsame : k.keepsSomething = k.keepsAny := by
      rw [Bool.eq_iff_iff, k.keepsSomething_iff, k.keepsAny_iff, Nat.mod_eq_of_lt h]
      exact Nat.pos_iff_ne_zero.symm
    rw [k.keepsSomethingChecked_eq, if_pos h, hsame]
    exact ⟨rfl, rfl⟩

theorem keepsSomething_three_last :
    (⟨some 3, none, none, none, none, none⟩ : KeepOptions).keepSum < 2 ^ 64 ∧
      (⟨some 3, none, none, none, none, none⟩ : KeepOptions).keepsSomethingChecked = some true ∧
      (⟨some 3, none, none, none, none, none⟩ : KeepOptions).keepsSomething = true :=
  have h := (keepsSomething_overflow ⟨some 3, none, none, none, none, none⟩
    ⟨⟨none, none, none, none, none, none⟩⟩).2.2.1 (by decide)
  ⟨by decide, h.1, h.2⟩

/-- `keep-last` and `keep-hourly` at `i64::MAX` and `keep-daily = 2` add up to `2 ^ 64`: a
release build wraps the sum to 0 and answers `false`, and a debug build panics, though three
counts are positive. -/
theorem keepsSomething_wraps_to_zero :
    (⟨some 9223372036854775807, some 9223372036854775807, some 2, none, none, none⟩ :
        KeepOptions).keepsAny = true ∧
      (⟨some 9223372036854775807, some 9223372036854775807, some 2, none, none, none⟩ :
        KeepOptions).keepsSomething = false ∧
      (⟨some 9223372036854775807, some 9223372036854775807, some 2, none, none, none⟩ :
        KeepOptions).keepsSomethingChecked = none :=
  ⟨rfl, rfl, rfl⟩

end PbsCloudBackup.Jobs
