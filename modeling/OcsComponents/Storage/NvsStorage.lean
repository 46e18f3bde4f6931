import OcsComponents.Lib.CString
import OcsComponents.Status.Code
import Mathlib.Logic.Function.Basic

/-!
# The storages in the flash

`ocs_storage/nvs_storage.{h,cpp}` and `storage_builder.cpp`. NVS itself is a parameter: a
driver that keeps one map per namespace name, of which only its answers are seen here.

`StorageBuilder` tells its storages apart by their whole ids, NVS by the name that
`NvsStorage` keeps of the id: its first 15 characters. So the storages of two ids are
isolated from each other exactly if the ids differ there.
-/

namespace OcsComponents.Storage
open Status

abbrev Byte := BitVec 8

/-- `esp_err_t`, as far as `NvsStorage` tells its values apart. -/
inductive EspErr where
  | ok
  | nvsNotFound
  | other
  deriving DecidableEq, Repr

inductive OpenMode where
  | readonly
  | readwrite
  deriving DecidableEq, Repr

/-- What `nvs_get_blob` returns and leaves in its arguments. -/
structure Blob where
  err : EspErr
  value : List Byte
  size : Nat

/-- The driver, on the map of one namespace. A `value` to read into may be null. -/
structure Nvs (σ : Type) where
  openNs : OpenMode → σ → EspErr × σ
  getBlob : σ → CString → Option (List Byte) → Nat → Blob
  setBlob : σ → CString → List Byte → EspErr × σ
  eraseKey : σ → CString → EspErr × σ
  commit : σ → EspErr × σ

/-- The maps by the names of their namespaces. -/
abbrev Flash (σ : Type) := List Char → σ

/-- `NVS_KEY_NAME_MAX_SIZE`. -/
def keyNameMaxSize : Nat := 16

/-- `NvsStorage::bufsize_`. -/
def bufsize : Nat := keyNameMaxSize - 1

/-- `NvsStorage`: the string in `ns_`, which leaves room for its terminator. -/
structure NvsStorage where
  ns : List Char
  bounded : ns.length ≤ bufsize
  deriving DecidableEq

namespace NvsStorage
variable {σ : Type} (nvs : Nvs σ)

/-- The constructor: `strncpy` into a cleared `ns_`. -/
def new (ns : CString) : NvsStorage where
  ns := ns.text.take (min bufsize (ns.strlen 0))
  bounded := by
    rw [List.length_take]
    omega

/-- `open_`. -/
def open_ (mode : OpenMode) (m : σ) : StatusCode × σ :=
  match nvs.openNs mode m with
  | (.nvsNotFound, m) => (.noData, m)
  | (.other, m) => (.error, m)
  | (.ok, m) => (.ok, m)

/-- `read_`. -/
def read_ (m : σ) (key : CString) (value : Option (List Byte)) (size : Nat) : StatusCode × List Byte × Nat :=
  let blob := nvs.getBlob m key value size
  match blob.err with
  | .nvsNotFound => (.noData, blob.value, blob.size)
  | .other => (.error, blob.value, blob.size)
  | .ok => (.ok, blob.value, blob.size)

/-- `nvs_commit` after an operation that succeeded. -/
def commit (m : σ) : StatusCode × σ :=
  match nvs.commit m with
  | (.ok, m) => (.ok, m)
  | (_, m) => (.error, m)

/-- `write_`. -/
def write_ (m : σ) (key : CString) (value : List Byte) : StatusCode × σ :=
  match nvs.setBlob m key value with
  | (.ok, m) => commit nvs m
  | (_, m) => (.error, m)

/-- `erase_`. -/
def erase_ (m : σ) (key : CString) : StatusCode × σ :=
  match nvs.eraseKey m key with
  | (.nvsNotFound, m) => (.noData, m)
  | (.other, m) => (.error, m)
  | (.ok, m) => commit nvs m

/-- `NvsStorage::probe`, into a `size`. -/
def probe (m : σ) (key : CString) (size : Nat) : (StatusCode × Nat) × σ :=
  match open_ nvs .readonly m with
  | (.ok, m) =>
    let (code, _, size) := read_ nvs m key none size
    ((code, size), m)
  | (code, m) => ((code, size), m)

/-- `NvsStorage::read`, into a `value` of its size. -/
def read (m : σ) (key : CString) (value : List Byte) : (StatusCode × List Byte) × σ :=
  match open_ nvs .readonly m with
  | (.ok, m) =>
    let (code, value, _) := read_ nvs m key (some value) value.length
    ((code, value), m)
  | (code, m) => ((code, value), m)

/-- `NvsStorage::write`. -/
def write (m : σ) (key : CString) (value : List Byte) : StatusCode × σ :=
  match open_ nvs .readwrite m with
  | (.ok, m) => write_ nvs m key value
  | (code, m) => (code, m)

/-- `NvsStorage::erase`. -/
def erase (m : σ) (key : CString) : StatusCode × σ :=
  match open_ nvs .readwrite m with
  | (.ok, m) => erase_ nvs m key
  | (code, m) => (code, m)

end NvsStorage

/-! ## Operations on one storage -/

/-- An operation of `IStorage`. A value is not empty: `configASSERT(size)`. -/
inductive Operation where
  | probe (key : CString) (size : Nat)
  | read (key : CString) (value : List Byte) (filled : value ≠ [])
  | write (key : CString) (value : List Byte) (filled : value ≠ [])
  | erase (key : CString)

/-- What a caller gets. -/
inductive Reply where
  | size (code : StatusCode) (size : Nat)
  | value (code : StatusCode) (value : List Byte)
  | done (code : StatusCode)
  deriving DecidableEq

/-- The reply is that of a read. -/
def Reply.isRead : Reply → Bool
  | .size _ _ => true
  | .value _ _ => true
  | .done _ => false

variable {σ : Type} (nvs : Nvs σ)

/-- An operation on the map of its namespace. -/
def Operation.run (m : σ) : Operation → Reply × σ
  | .probe key size =>
    let ((code, size), m) := NvsStorage.probe nvs m key size
    (.size code size, m)
  | .read key value _ =>
    let ((code, value), m) := NvsStorage.read nvs m key value
    (.value code value, m)
  | .write key value _ =>
    let (code, m) := NvsStorage.write nvs m key value
    (.done code, m)
  | .erase key =>
    let (code, m) := NvsStorage.erase nvs m key
    (.done code, m)

/-- `nvs_open` finds the map by the name, and the operation goes through the handle. -/
def NvsStorage.run (s : NvsStorage) (flash : Flash σ) (op : Operation) : Reply × Flash σ :=
  let (reply, m) := op.run nvs (flash s.ns)
  (reply, Function.update flash s.ns m)

/-- `StorageBuilder`: the ids it has seen. -/
structure StorageBuilder where
  ids : List CString

/-- `StorageBuilder::make`, when there is memory for the storage or not. -/
def StorageBuilder.make (builder : StorageBuilder) (id : CString) (memory : Bool) :
    Option NvsStorage × StorageBuilder :=
  if id ∈ builder.ids then (none, builder)
  else if memory then (some (.new id), ⟨id :: builder.ids⟩)
  else (none, ⟨id :: builder.ids⟩)

/-- The `storage_id_` of a `FsmBlockPipeline`. -/
def storageId (id : CString) : CString := id.append ⟨['_', 'n', 'v', 's'], by decide⟩

theorem NvsStorage.new_ns (id : CString) : (NvsStorage.new id).ns = id.text.take bufsize := by
  have length : id.strlen 0 = id.text.length := CString.strlen_eq (Nat.zero_le _)
  show id.text.take (min bufsize (id.strlen 0)) = id.text.take bufsize
  rw [length, List.take_eq_take_iff]
  omega

theorem StorageBuilder.make_eq {builder : StorageBuilder} {id : CString} {memory : Bool} {s : NvsStorage}
    (made : (builder.make id memory).1 = some s) : s = .new id := by
  unfold make at made
  split at made
  · cases made
  · split at made <;> cases made
    rfl

theorem StorageBuilder.make_fresh {builder : StorageBuilder} {id : CString} (fresh : id ∉ builder.ids) :
    builder.make id true = (some (.new id), ⟨id :: builder.ids⟩) := by
  rw [make, if_neg fresh, if_pos rfl]

/-- An id is used once. -/
theorem StorageBuilder.make_again {builder : StorageBuilder} {id : CString} {memory memory' : Bool} :
    ((builder.make id memory).2.make id memory').1 = none := by
  by_cases known : id ∈ builder.ids
  · simp [make, known]
  · cases memory <;> simp [make, known]

/-! ## Isolation -/

/-- One of two storages. -/
inductive Side where
  | first
  | second
  deriving DecidableEq, Repr

variable (storages : Side → NvsStorage)

/-- What the reads on one of the two storages return, in a sequence of operations on both. -/
def reads (side : Side) : Flash σ → List (Side × Operation) → List Reply
  | _, [] => []
  | flash, (at_, op) :: ops =>
    let (reply, flash) := (storages at_).run nvs flash op
    if at_ = side ∧ reply.isRead then reply :: reads side flash ops else reads side flash ops

/-- The reads on each storage return what they return without the operations on the other. -/
def Isolated : Prop := ∀ flash ops side,
  reads nvs storages side flash ops = reads nvs storages side flash (ops.filter fun op => op.1 = side)

variable {nvs storages}

theorem reads_filter {side : Side} (apart : ∀ at_, at_ ≠ side → (storages at_).ns ≠ (storages side).ns)
    {flash flash' : Flash σ} (same : flash (storages side).ns = flash' (storages side).ns)
    (ops : List (Side × Operation)) :
    reads nvs storages side flash ops = reads nvs storages side flash' (ops.filter fun op => op.1 = side) := by
  induction ops generalizing flash flash' with
  | nil => rfl
  | cons head ops ih =>
    obtain ⟨at_, op⟩ := head
    by_cases own : at_ = side
    · subst own
      have next := @ih ((storages at_).run nvs flash op).2 ((storages at_).run nvs flash' op).2
        (by simp [NvsStorage.run, same])
      simp only [NvsStorage.run, same] at next
      simp [reads, NvsStorage.run, same, next]
    · have untouched : ((storages at_).run nvs flash op).2 (storages side).ns = flash' (storages side).ns := by
        simp [NvsStorage.run, Function.update_of_ne (apart at_ own).symm, same]
      simpa [reads, own] using ih untouched

/-- What NVS documents of a map without the key: it is not found there, and it is after a value
was set and committed. -/
structure Nvs.Keeps (nvs : Nvs σ) (m : σ) (key : CString) (value : List Byte) : Prop where
  absent : (nvs.openNs .readonly m).1 = .ok →
    (nvs.getBlob (nvs.openNs .readonly m).2 key (some value) value.length).err ≠ .ok
  opens : (nvs.openNs .readwrite m).1 = .ok
  sets : (nvs.setBlob (nvs.openNs .readwrite m).2 key value).1 = .ok
  finds : let m := (nvs.commit (nvs.setBlob (nvs.openNs .readwrite m).2 key value).2).2
    (nvs.openNs .readonly m).1 = .ok ∧
      (nvs.getBlob (nvs.openNs .readonly m).2 key (some value) value.length).err = .ok

theorem NvsStorage.read_ok_iff {m : σ} {key : CString} {value : List Byte} :
    (NvsStorage.read nvs m key value).1.1 = .ok ↔ (nvs.openNs .readonly m).1 = .ok ∧
      (nvs.getBlob (nvs.openNs .readonly m).2 key (some value) value.length).err = .ok := by
  rcases opened : nvs.openNs .readonly m with ⟨err, m'⟩
  cases err <;> simp only [read, open_, opened, read_, reduceCtorEq, false_and]
  cases (nvs.getBlob m' key (some value) value.length).err <;> simp

theorem NvsStorage.write_state {m : σ} {key : CString} {value : List Byte} (keeps : nvs.Keeps m key value) :
    (NvsStorage.write nvs m key value).2 =
      (nvs.commit (nvs.setBlob (nvs.openNs .readwrite m).2 key value).2).2 := by
  have opens := keeps.opens
  have sets := keeps.sets
  rcases opened : nvs.openNs .readwrite m with ⟨err, m'⟩
  rw [opened] at opens sets
  rcases set : nvs.setBlob m' key value with ⟨err', written⟩
  rw [set] at sets
  obtain rfl : err = .ok := opens
  obtain rfl : err' = .ok := sets
  simp only [write, open_, opened, write_, set, commit]
  rcases nvs.commit written with ⟨err, committed⟩
  cases err <;> rfl

/-- The storages of a pair. -/
def pair (s s' : NvsStorage) : Side → NvsStorage
  | .first => s
  | .second => s'

theorem isolated_of_ne {s s' : NvsStorage} (apart : s.ns ≠ s'.ns) : Isolated nvs (pair s s') := by
  intro flash ops side
  apply reads_filter _ rfl
  intro at_ other
  cases at_ <;> cases side
  · exact absurd rfl other
  · exact apart
  · exact apart.symm
  · exact absurd rfl other

/-- A value written to the other storage is read where there was none. -/
theorem not_isolated_of_eq {m : σ} {key : CString} {value : List Byte} (keeps : nvs.Keeps m key value)
    (filled : value ≠ []) {s s' : NvsStorage} (same : s.ns = s'.ns) : ¬ Isolated nvs (pair s s') := by
  intro isolated
  have equal := isolated (fun _ => m) [(.second, .write key value filled), (.first, .read key value filled)] .first
  have found := NvsStorage.read_ok_iff.mpr keeps.finds
  have absent := mt NvsStorage.read_ok_iff.mp (fun both => keeps.absent both.1 both.2)
  rw [← NvsStorage.write_state keeps] at found
  simp only [reads, pair, NvsStorage.run, Operation.run, same, Reply.isRead, List.filter_cons] at equal
  simp only [reduceCtorEq, decide_false, decide_true, Bool.false_eq_true, false_and, if_false, if_true,
    Function.update_self, List.filter_nil, reads, pair, NvsStorage.run, Operation.run, Reply.isRead, same,
    List.cons.injEq, Reply.value.injEq, and_true] at equal
  exact absent (equal.1.symm.trans found)

/-- **Two storages are isolated from each other if and only if their ids differ in their first
15 characters.** -/
theorem isolated_iff {m : σ} {key : CString} {value : List Byte} (keeps : nvs.Keeps m key value)
    (filled : value ≠ []) {builder builder' : StorageBuilder} {id id' : CString} {memory memory' : Bool}
    {s s' : NvsStorage} (made : (builder.make id memory).1 = some s) (made' : (builder'.make id' memory').1 = some s') :
    Isolated nvs (pair s s') ↔ id.text.take 15 ≠ id'.text.take 15 := by
  obtain rfl := StorageBuilder.make_eq made
  obtain rfl := StorageBuilder.make_eq made'
  have names : (NvsStorage.new id).ns = (NvsStorage.new id').ns ↔ id.text.take 15 = id'.text.take 15 := by
    rw [NvsStorage.new_ns, NvsStorage.new_ns]
    rfl
  rw [ne_eq, ← names]
  exact ⟨fun isolated same => not_isolated_of_eq keeps filled same isolated, isolated_of_ne⟩

/-- A driver that keeps blobs by their keys, once the namespace is opened for writing. -/
def blobMap : Nvs (Option (List Char → Option (List Byte))) where
  openNs mode m :=
    match mode, m with
    | .readonly, none => (.nvsNotFound, none)
    | .readwrite, none => (.ok, some fun _ => none)
    | _, some m => (.ok, some m)
  getBlob m key value size :=
    match m.bind (· key.text), value with
    | none, value => ⟨.nvsNotFound, value.getD [], size⟩
    | some blob, none => ⟨.ok, [], blob.length⟩
    | some blob, some value =>
      if size < blob.length then ⟨.other, value, size⟩ else ⟨.ok, blob ++ value.drop blob.length, blob.length⟩
  setBlob m key value :=
    if bufsize < key.text.length then (.other, m)
    else (.ok, m.map fun m => Function.update m key.text (some value))
  eraseKey m key :=
    match m.bind (· key.text) with
    | none => (.nvsNotFound, m)
    | some _ => (.ok, m.map fun m => Function.update m key.text none)
  commit m := (.ok, m)

theorem blobMap_keeps : blobMap.Keeps none ⟨['k'], by decide⟩ [1] where
  absent opened := absurd opened (by decide)
  opens := rfl
  sets := rfl
  finds := ⟨rfl, rfl⟩

/-- `a_nvs` and `b_nvs`. -/
theorem isolated_iff_nvs :
    let a := storageId ⟨['a'], by decide⟩
    let b := storageId ⟨['b'], by decide⟩
    Isolated blobMap (pair (.new a) (.new b)) ↔ a.text.take 15 ≠ b.text.take 15 := by
  intro a b
  let builder : StorageBuilder := ⟨[]⟩
  have made : (builder.make a true).1 = some (.new a) := rfl
  have other : b ∉ (builder.make a true).2.ids := by decide
  exact isolated_iff blobMap_keeps (by decide) made (congrArg Prod.fst (StorageBuilder.make_fresh other))

/-- The storages of two FSM blocks, `ventilation_fan_1` and `ventilation_fan_2`. -/
theorem not_isolated : ¬ ∀ (builder : StorageBuilder) (id id' : CString) (s s' : NvsStorage), id ≠ id' →
    (builder.make id true).1 = some s → ((builder.make id true).2.make id' true).1 = some s' →
    Isolated blobMap (pair s s') := by
  intro isolated
  let fan : CString := storageId ⟨"ventilation_fan_1".toList, by decide⟩
  let fan' : CString := storageId ⟨"ventilation_fan_2".toList, by decide⟩
  have same : (NvsStorage.new fan).ns = (NvsStorage.new fan').ns := by decide
  have other : fan' ∉ ((⟨[]⟩ : StorageBuilder).make fan true).2.ids := by decide
  exact not_isolated_of_eq blobMap_keeps (by decide) same
    (isolated ⟨[]⟩ fan fan' _ _ (by decide) rfl (congrArg Prod.fst (StorageBuilder.make_fresh other)))

end OcsComponents.Storage
