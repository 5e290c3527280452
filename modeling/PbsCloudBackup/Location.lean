import PbsCloudBackup.Text
/-!
# Media and backup locations

`MediaLocation` (`cloud/media_location.rs`) and `BackupLocation`
(`tape/media_location.rs`) are both written as one payload-free word or as a prefix
followed by a payload, and both are persisted through `Display` and `FromStr`: the serde
forwarding of `BackupLocation` serializes with `Display` and deserializes with `FromStr`.
Their `from_str` is one definition, `parseLocation`, applied to each type's word and
prefixes. A `LocationCodec` bundles such a syntax with the facts that make it
unambiguous, and both round trips are proved once for every codec.
-/

namespace PbsCloudBackup.Location

open Text

variable {α : Type}

/-- The prefixed branches of a location `from_str`, tried in order. -/
def parsePrefixed (s : List Char) : List (List Char × (List Char → α)) → Option α
  | [] => none
  | (p, f) :: bs =>
    match stripPrefix s p with
    | some x => some (f x)
    | none => parsePrefixed s bs

/-- The `from_str` of a location enum: the literal `word` is the payload-free
constructor; otherwise the first prefix `s` starts with selects the constructor, applied
to the rest of `s`. -/
def parseLocation (word : List Char) (plain : α) (branches : List (List Char × (List Char → α)))
    (err : String) (s : List Char) : Except String α :=
  if s = word then .ok plain
  else match parsePrefixed s branches with
    | some l => .ok l
    | none => .error err

theorem parsePrefixed_eq_some {s : List Char} {l : α} :
    ∀ {bs : List (List Char × (List Char → α))}, parsePrefixed s bs = some l →
      ∃ b ∈ bs, ∃ x, s = b.1 ++ x ∧ l = b.2 x
  | [], h => by simp [parsePrefixed] at h
  | (p, f) :: bs, h => by
    simp only [parsePrefixed] at h
    split at h
    · rename_i x hx
      exact ⟨(p, f), List.mem_cons_self _ _, x, stripPrefix_eq_some_iff.1 hx,
        (Option.some.inj h).symm⟩
    · obtain ⟨b, hb, x, rfl, rfl⟩ := parsePrefixed_eq_some h
      exact ⟨b, List.mem_cons_of_mem _ hb, x, rfl, rfl⟩

/-- Among pairwise incomparable prefixes, a branch reads back its own prefix. -/
theorem parsePrefixed_branch {p : List Char} {f : List Char → α} (x : List Char) :
    ∀ {bs : List (List Char × (List Char → α))},
      bs.Pairwise (fun b c => ¬b.1 <+: c.1 ∧ ¬c.1 <+: b.1) → (p, f) ∈ bs →
        parsePrefixed (p ++ x) bs = some (f x)
  | [], _, h => absurd h (List.not_mem_nil _)
  | (q, g) :: bs, hpw, h => by
    rw [List.pairwise_cons] at hpw
    rcases List.mem_cons.1 h with h | h
    · cases h; simp [parsePrefixed]
    · obtain ⟨hqp, hpq⟩ := hpw.1 _ h
      simp only [parsePrefixed, stripPrefix_append_of_incomparable x hqp hpq]
      exact parsePrefixed_branch x hpw.2 h

/-- A location syntax that `fmt` prints and `parseLocation` reads back: `fmt` writes the
payload-free value as `word` and every other value as its branch's prefix and payload,
and no prefix is comparable with another prefix or with the word. -/
structure LocationCodec (α : Type) where
  word : List Char
  plain : α
  branches : List (List Char × (List Char → α))
  err : String
  fmt : α → List Char
  fmt_plain : fmt plain = word
  fmt_branch : ∀ b ∈ branches, ∀ x, fmt (b.2 x) = b.1 ++ x
  cover : ∀ l, l = plain ∨ ∃ b ∈ branches, ∃ x, l = b.2 x
  word_free : ∀ b ∈ branches, ¬b.1 <+: word
  incomparable : branches.Pairwise fun b c => ¬b.1 <+: c.1 ∧ ¬c.1 <+: b.1

namespace LocationCodec

/-- The `from_str` of the codec's syntax. -/
def parse (c : LocationCodec α) (s : List Char) : Except String α :=
  parseLocation c.word c.plain c.branches c.err s

theorem parse_fmt (c : LocationCodec α) (l : α) : c.parse (c.fmt l) = .ok l := by
  rcases c.cover l with rfl | ⟨⟨p, f⟩, hb, x, rfl⟩
  · simp [parse, parseLocation, c.fmt_plain]
  · have hword : p ++ x ≠ c.word := fun h => c.word_free _ hb ⟨x, h⟩
    simp [parse, parseLocation, c.fmt_branch _ hb, hword,
      parsePrefixed_branch x c.incomparable hb]

theorem fmt_parse (c : LocationCodec α) {s : List Char} {l : α} (h : c.parse s = .ok l) :
    c.fmt l = s := by
  simp only [parse, parseLocation] at h
  split_ifs at h with hs
  · cases h; rw [c.fmt_plain, hs]
  · split at h
    · rename_i l' hl
      cases h
      obtain ⟨b, hb, x, rfl, rfl⟩ := parsePrefixed_eq_some hl
      exact c.fmt_branch b hb x
    · cases h

end LocationCodec

/-! ## `MediaLocation` -/

/-- Media location -/
inductive MediaLocation
  /-- Ready for use (inside storage service) -/
  | online (storageService : List Char)
  /-- Local available, but need to be synchronized -/
  | offline
  /-- Media is inside a Vault -/
  | vault (vault : List Char)
  /-- Media is stored in a Cloud account -/
  | cloud (cloudService : List Char)
  deriving DecidableEq, Repr

namespace MediaLocation

/-- `impl Display for MediaLocation`. -/
def fmt : MediaLocation → List Char
  | offline => "offline".toList
  | online storageService => "online-".toList ++ storageService
  | vault v => "vault-".toList ++ v
  | cloud cloudService => "cloud-".toList ++ cloudService

/-- `MediaLocation::from_str`. Its `starts_with` test followed by
`strip_prefix(..).unwrap()` strips the prefix once. -/
def fromStr (s : List Char) : Except String MediaLocation :=
  parseLocation "offline".toList offline
    [("online-".toList, online), ("vault-".toList, vault), ("cloud-".toList, cloud)]
    "MediaLocation parse error" s

/-- The syntax `fmt` writes and `fromStr` reads. -/
def codec : LocationCodec MediaLocation where
  word := "offline".toList
  plain := offline
  branches := [("online-".toList, online), ("vault-".toList, vault), ("cloud-".toList, cloud)]
  err := "MediaLocation parse error"
  fmt := fmt
  fmt_plain := rfl
  fmt_branch _ hb _ := by
    simp only [List.mem_cons, List.not_mem_nil, or_false] at hb
    rcases hb with rfl | rfl | rfl <;> rfl
  cover
    | online s => .inr ⟨_, List.mem_cons_self _ _, s, rfl⟩
    | offline => .inl rfl
    | vault v => .inr ⟨_, List.mem_cons_of_mem _ (List.mem_cons_self _ _), v, rfl⟩
    | cloud c => .inr ⟨_, List.mem_cons_of_mem _ (List.mem_cons_of_mem _ (List.mem_cons_self _ _)),
        c, rfl⟩
  -- Evaluated with the list's own instance: `decide` tries `Fintype` on the branch type first.
  word_free := @of_decide_eq_true _ (List.decidableBAll _ _) rfl
  incomparable := by decide

theorem mediaLocation_roundtrip :
    (∀ l, fromStr (fmt l) = .ok l) ∧ ∀ s l, fromStr s = .ok l → fmt l = s :=
  ⟨codec.parse_fmt, fun _ _ => codec.fmt_parse⟩

end MediaLocation

/-! ## `BackupLocation` -/

/-- Cloud backup location -/
inductive BackupLocation
  /-- Data is available in a cloud storage bucket -/
  | cloud (bucket : List Char)
  /-- Local storage, available for upload -/
  | «local»
  /-- Archived in a specific storage vault -/
  | vault (vault : List Char)
  deriving DecidableEq, Repr

namespace BackupLocation

/-- `impl Display for BackupLocation`; serde serializes through it. -/
def fmt : BackupLocation → List Char
  | «local» => "local".toList
  | cloud bucket => "cloud-".toList ++ bucket
  | vault v => "vault-".toList ++ v

/-- `BackupLocation::from_str`; serde deserializes through it. -/
def fromStr (s : List Char) : Except String BackupLocation :=
  parseLocation "local".toList «local» [("cloud-".toList, cloud), ("vault-".toList, vault)]
    "BackupLocation parse error" s

/-- The syntax `fmt` writes and `fromStr` reads. -/
def codec : LocationCodec BackupLocation where
  word := "local".toList
  plain := «local»
  branches := [("cloud-".toList, cloud), ("vault-".toList, vault)]
  err := "BackupLocation parse error"
  fmt := fmt
  fmt_plain := rfl
  fmt_branch _ hb _ := by
    simp only [List.mem_cons, List.not_mem_nil, or_false] at hb
    rcases hb with rfl | rfl <;> rfl
  cover
    | cloud b => .inr ⟨_, List.mem_cons_self _ _, b, rfl⟩
    | «local» => .inl rfl
    | vault v => .inr ⟨_, List.mem_cons_of_mem _ (List.mem_cons_self _ _), v, rfl⟩
  word_free := @of_decide_eq_true _ (List.decidableBAll _ _) rfl
  incomparable := by decide

theorem backupLocation_roundtrip :
    (∀ l, fromStr (fmt l) = .ok l) ∧ ∀ s l, fromStr s = .ok l → fmt l = s :=
  ⟨codec.parse_fmt, fun _ _ => codec.fmt_parse⟩

end BackupLocation

end PbsCloudBackup.Location
