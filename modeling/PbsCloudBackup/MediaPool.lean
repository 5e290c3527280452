import Mathlib.Data.String.Basic
/-!
# Media pool policies

The allocation and retention policies of a media pool (`cloud/media_pool.rs`) are stored as
strings and parsed by `MediaSetPolicy::from_str` and `RetentionPolicy::from_str`: two
keywords each, and otherwise a calendar event or a time span of `proxmox_time`, whose
parsers `src/` does not hold and are parameters here. Both have one shape,
`parseKeywordsOr`, and the schemas' `VerifyFn` accepts what it accepts.

* `parseKeywordsOr_ok_iff`: a policy string is accepted exactly when it is a keyword or the
  time parser accepts it.
-/

namespace PbsCloudBackup.MediaPool

/-- The shape of both `from_str`: two keywords, then the time parser. -/
def parseKeywordsOr {α β : Type} (k₁ : String) (v₁ : α) (k₂ : String) (v₂ : α)
    (parse : String → Except String β) (wrap : β → α) (s : String) : Except String α :=
  if s = k₁ then .ok v₁
  else if s = k₂ then .ok v₂
  else do
    let value ← parse s
    pure (wrap value)

/-- `MediaSetPolicy`, over the calendar events of `proxmox_time`. -/
inductive MediaSetPolicy (CalendarEvent : Type)
  | continueCurrent
  | alwaysCreate
  | createAt (event : CalendarEvent)

/-- `MediaSetPolicy::from_str`. -/
def MediaSetPolicy.fromStr {CalendarEvent : Type} (parseEvent : String → Except String CalendarEvent) :
    String → Except String (MediaSetPolicy CalendarEvent) :=
  parseKeywordsOr "continue" .continueCurrent "always" .alwaysCreate parseEvent .createAt

/-- `RetentionPolicy`, over the time spans of `proxmox_time`. -/
inductive RetentionPolicy (TimeSpan : Type)
  | overwriteAlways
  | protectFor (span : TimeSpan)
  | keepForever

/-- `RetentionPolicy::from_str`. -/
def RetentionPolicy.fromStr {TimeSpan : Type} (parseSpan : String → Except String TimeSpan) :
    String → Except String (RetentionPolicy TimeSpan) :=
  parseKeywordsOr "overwrite" .overwriteAlways "keep" .keepForever parseSpan .protectFor

section

variable {α β : Type} (k₁ : String) (v₁ : α) (k₂ : String) (v₂ : α)
  (parse : String → Except String β) (wrap : β → α) (s : String)

theorem parseKeywordsOr_ok_iff :
    (parseKeywordsOr k₁ v₁ k₂ v₂ parse wrap s).isOk ↔ s = k₁ ∨ s = k₂ ∨ (parse s).isOk := by
  unfold parseKeywordsOr
  split_ifs with h₁ h₂
  · simp [h₁, Except.isOk, Except.toBool]
  · simp [h₂, Except.isOk, Except.toBool]
  · cases parse s <;>
      simp [h₁, h₂, Except.isOk, Except.toBool, bind, Except.bind, pure, Except.pure]

end

end PbsCloudBackup.MediaPool
