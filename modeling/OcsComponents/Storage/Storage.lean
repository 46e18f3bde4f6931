import OcsComponents.Status.Code
import Mathlib.Logic.Function.Basic

/-!
# The persistent storage

`ocs_storage/istorage.h` as its users see `NvsStorage`: records of one type by their key.
An operation may fail, and then it leaves its key, and a value to read into, unchanged.
-/

set_option linter.dupNamespace false

namespace OcsComponents.Storage
open Status

/-- The records by their key. -/
abbrev Storage (α : Type) := String → Option α

/-- What a failed operation returns. `NoData` is not a failure: it is the answer for a key
without a record. -/
structure StorageFault where
  code : StatusCode
  failed : code ≠ .ok ∧ code ≠ .noData

def StorageFault.error : StorageFault := ⟨.error, by decide⟩

namespace Storage
variable {α : Type}

/-- `IStorage::read`, into a value `out`. -/
def read (st : Storage α) (fault : Option StorageFault) (key : String) (out : α) : StatusCode × α :=
  match fault with
  | some f => (f.code, out)
  | none =>
    match st key with
    | some v => (.ok, v)
    | none => (.noData, out)

/-- `IStorage::write`. -/
def write (st : Storage α) (fault : Option StorageFault) (key : String) (v : α) : StatusCode × Storage α :=
  match fault with
  | some f => (f.code, st)
  | none => (.ok, Function.update st key (some v))

/-- `IStorage::erase`. -/
def erase (st : Storage α) (fault : Option StorageFault) (key : String) : StatusCode × Storage α :=
  match fault with
  | some f => (f.code, st)
  | none =>
    match st key with
    | some _ => (.ok, Function.update st key none)
    | none => (.noData, st)

@[simp] theorem read_sound (st : Storage α) (key : String) (out : α) : (st.read none key out).2 = (st key).getD out := by
  unfold read
  cases st key <;> rfl

@[simp] theorem write_sound (st : Storage α) (key : String) (v : α) : (st.write none key v).2 key = some v := by
  simp [write]

@[simp] theorem erase_sound (st : Storage α) (key : String) : (st.erase none key).2 key = none := by
  unfold erase
  cases record : st key <;> simp [record]

end Storage

end OcsComponents.Storage
