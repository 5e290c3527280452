import Mathlib.Data.String.Basic
/-!
# Maintenance mode

`MaintenanceMode::check` (`maintenance.rs`) decides whether a store in maintenance lets an
operation through. A bucket that is being deleted refuses everything, lookups of in-memory
state included. Otherwise a lookup always passes, an offline store refuses every other
operation, and a read-only store refuses writes. The message, percent-decoded, only goes
into the error text. The documentation of the field `ty` names the read-only and offline
types only; `check` also handles the third, `Delete`.

* `check_passes_iff`: the operations each maintenance type lets through, for every message
  and every outcome of its decoding;
* `check_error_text`: the error each refusal carries.
-/

namespace PbsCloudBackup.Maintenance

/-- `Operation`: what a caller is about to do with the store. -/
inductive Operation
  | read
  | write
  | lookup
  deriving DecidableEq, Repr

/-- `MaintenanceType`. -/
inductive MaintenanceType
  | readOnly
  | offline
  | delete
  deriving DecidableEq, Repr

/-- `MaintenanceMode`. -/
structure MaintenanceMode where
  ty : MaintenanceType
  message : Option String
  deriving DecidableEq, Repr

namespace MaintenanceMode

/-- The message of the error texts: `percent_decode_str(..).decode_utf8()` of the
`percent_encoding` crate is `decodeUtf8`, `none` where the decoded bytes are not UTF-8, and
`unwrap_or` gives the empty text then. -/
def decodedMessage (decodeUtf8 : String → Option String) (m : MaintenanceMode) : String :=
  (decodeUtf8 (m.message.getD "")).getD ""

/-- `MaintenanceMode::check`. -/
def check (decodeUtf8 : String → Option String) (m : MaintenanceMode)
    (operation : Option Operation) : Except String Unit :=
  if m.ty = .delete then .error "cloud storage bucket is being deleted"
  else
    let message := m.decodedMessage decodeUtf8
    match operation with
    | some .lookup => .ok ()
    | _ =>
      if m.ty = .offline then .error ("offline maintenance mode: " ++ message)
      else if m.ty = .readOnly then
        match operation with
        | some .write => .error ("read-only maintenance mode: " ++ message)
        | _ => .ok ()
      else .ok ()

variable (decodeUtf8 : String → Option String) (m : MaintenanceMode) (operation : Option Operation)

/-- A store in maintenance lets an operation through exactly when it is not being deleted and
the operation is a lookup, or the store is read-only and the operation is not a write, a
missing operation included. The message, however it decodes, never decides. -/
theorem check_passes_iff :
    (m.check decodeUtf8 operation).isOk ↔
      m.ty ≠ .delete ∧ (operation = some .lookup ∨ m.ty = .readOnly ∧ operation ≠ some .write) := by
  obtain ⟨ty, message⟩ := m
  cases ty <;> rcases operation with _ | _ | _ | _ <;>
    simp [check, Except.isOk, Except.toBool]

/-- Every refusal names its maintenance type, and an offline or read-only refusal carries the
decoded message. -/
theorem check_error_text {e : String} (h : m.check decodeUtf8 operation = .error e) :
    m.ty = .delete ∧ e = "cloud storage bucket is being deleted" ∨
      m.ty = .offline ∧ e = "offline maintenance mode: " ++ m.decodedMessage decodeUtf8 ∨
      m.ty = .readOnly ∧ operation = some .write ∧
        e = "read-only maintenance mode: " ++ m.decodedMessage decodeUtf8 := by
  obtain ⟨ty, message⟩ := m
  cases ty <;> rcases operation with _ | _ | _ | _ <;> simp_all [check]

end MaintenanceMode

end PbsCloudBackup.Maintenance
