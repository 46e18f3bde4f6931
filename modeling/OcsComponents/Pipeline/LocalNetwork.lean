import OcsComponents.Lib.CString
import OcsComponents.Status.Code

/-!
# The credentials of the access point

`LocalNetworkPipeline::initialize_network_` and `StorageOps::prob_read`. The name is copied into
32 bytes and the password into 64, or read from the storage, up to the last byte: no room is kept
for a terminator. The name ends with the device id, which alone is longer than its buffer.
-/

namespace OcsComponents.Pipeline
open Status

/-- What is read from here of the `IStorage`. A read leaves as many bytes as it was given, also
when it fails. -/
structure ByteStorage where
  probe : CString → Nat → StatusCode × Nat
  read : CString → List Char → StatusCode × List Char
  read_length : ∀ key value, (read key value).2.length = value.length

/-- `StorageOps::prob_read`, into a `buf` of `size` bytes. -/
def ByteStorage.probRead (storage : ByteStorage) (key : CString) (buf : List Char) (size : Nat) :
    StatusCode × List Char :=
  let (code, recvSize) := storage.probe key 0
  if code ≠ .ok then (code, buf)
  else if size < recvSize then (.invalidArg, buf)
  else
    let (code, value) := storage.read key (buf.take recvSize)
    (code, value ++ buf.drop recvSize)

theorem ByteStorage.probRead_length (storage : ByteStorage) (key : CString) (buf : List Char) :
    (storage.probRead key buf buf.length).2.length = buf.length := by
  simp only [probRead]
  split
  · rfl
  · split
    · rfl
    · simp only [List.length_append, storage.read_length, List.length_take, List.length_drop]
      omega

/-- `DeviceInfo`, with the id that `DeviceID` makes of a SHA-1. -/
structure DeviceInfo where
  fwName : CString
  deviceId : CString
  id_length : deviceId.text.length = 40
  id_hex : deviceId.text.all fun c => c.isDigit || "abcdefABCDEF".toList.contains c

def maxSsidSize : Nat := 32

def maxPasswordSize : Nat := 64

/-- The two buffers, when `std::string`s are made of them. -/
structure Credentials where
  ssid : List Char
  password : List Char
  ssid_length : ssid.length = maxSsidSize
  password_length : password.length = maxPasswordSize

/-- Both strings end within their buffers. -/
def Credentials.Terminated (c : Credentials) : Prop := CString.nul ∈ c.ssid ∧ CString.nul ∈ c.password

instance (c : Credentials) : Decidable c.Terminated := inferInstanceAs (Decidable (_ ∧ _))

namespace LocalNetworkPipeline

def passwordKey : CString := ⟨"net_ap_pswd".toList, by decide⟩

def dash : CString := ⟨['-'], by decide⟩

def builtinSsid (info : DeviceInfo) : CString := (info.fwName.append dash).append info.deviceId

def builtinPassword (info : DeviceInfo) : CString := (info.fwName.append dash).append (info.deviceId.first 7)

/-- `initialize_network_`, up to the `ApNetwork`. -/
def initializeNetwork (storage : ByteStorage) (info : DeviceInfo) : Credentials :=
  let read := storage.probRead passwordKey (List.replicate maxPasswordSize CString.nul) maxPasswordSize
  { ssid := (builtinSsid info).strncpy maxSsidSize
    password := if read.1 ≠ .ok then (builtinPassword info).strncpy maxPasswordSize else read.2
    ssid_length := CString.length_strncpy _ _
    password_length := by
      have length := storage.probRead_length passwordKey (List.replicate maxPasswordSize CString.nul)
      rw [List.length_replicate] at length
      split
      · exact CString.length_strncpy _ _
      · exact length }

variable {storage : ByteStorage} {info : DeviceInfo}

/-- A value that `prob_read` accepts and reads. -/
structure Stored (storage : ByteStorage) (value : List Char) : Prop where
  probes : storage.probe passwordKey 0 = (.ok, value.length)
  fits : value.length ≤ maxPasswordSize
  reads : storage.read passwordKey (List.replicate value.length CString.nul) = (.ok, value)

theorem probRead_stored {value : List Char} (stored : Stored storage value) :
    storage.probRead passwordKey (List.replicate maxPasswordSize CString.nul) maxPasswordSize =
      (.ok, value ++ List.replicate (maxPasswordSize - value.length) CString.nul) := by
  have fits := stored.fits
  rw [ByteStorage.probRead, stored.probes]
  simp only [ne_eq, not_true, if_false, if_neg (Nat.not_lt.mpr fits), List.take_replicate, List.drop_replicate,
    Nat.min_eq_left fits, stored.reads]

/-- There is such a value whenever the read succeeds. -/
theorem probRead_ok (ok : (storage.probRead passwordKey
    (List.replicate maxPasswordSize CString.nul) maxPasswordSize).1 = .ok) : ∃ value, Stored storage value := by
  rcases probed : storage.probe passwordKey 0 with ⟨code, recvSize⟩
  simp only [ByteStorage.probRead, probed] at ok
  split at ok
  next failed => exact absurd ok failed
  next found =>
    split at ok
    next => cases ok
    next fits =>
      rw [List.take_replicate, Nat.min_eq_left (Nat.not_lt.mp fits)] at ok
      have length := storage.read_length passwordKey (List.replicate recvSize CString.nul)
      rw [List.length_replicate] at length
      refine ⟨(storage.read passwordKey (List.replicate recvSize CString.nul)).2, ?_, ?_, ?_⟩
      · rw [probed, length, not_not.mp found]
      · rw [length]
        exact Nat.not_lt.mp fits
      · rw [length, ← ok]

/-! ## Which strings end in their buffers -/

theorem builtinSsid_length (info : DeviceInfo) : (builtinSsid info).text.length = info.fwName.text.length + 41 := by
  have id := info.id_length
  simp only [builtinSsid, CString.append, dash, List.length_append, List.length_singleton]
  omega

theorem builtinPassword_length (info : DeviceInfo) :
    (builtinPassword info).text.length = info.fwName.text.length + 8 := by
  have id := info.id_length
  simp only [builtinPassword, CString.append, CString.first, dash, List.length_append, List.length_singleton,
    List.length_take]
  omega

/-- The name never ends. -/
theorem ssid_unterminated (storage : ByteStorage) (info : DeviceInfo) :
    CString.nul ∉ (initializeNetwork storage info).ssid := by
  rw [initializeNetwork, CString.nul_mem_strncpy, builtinSsid_length, maxSsidSize]
  omega

/-- So the `std::string` has the whole buffer and what comes after it in memory. -/
theorem ssid_reads_on (storage : ByteStorage) (info : DeviceInfo) (after : List Char) :
    (CString.ofMemory ((initializeNetwork storage info).ssid ++ after)).text =
      (initializeNetwork storage info).ssid ++ (CString.ofMemory after).text :=
  CString.ofMemory_append (ssid_unterminated storage info) after

/-- A stored password ends if it leaves a byte of the buffer or has a terminator of its own. -/
theorem password_stored {value : List Char} (stored : Stored storage value) :
    CString.nul ∈ (initializeNetwork storage info).password ↔
      value.length < maxPasswordSize ∨ CString.nul ∈ value := by
  have room : CString.nul ∈ List.replicate (maxPasswordSize - value.length) CString.nul ↔
      value.length < maxPasswordSize := by
    rw [List.mem_replicate, and_iff_left rfl]
    omega
  simp only [initializeNetwork, probRead_stored stored, ne_eq, not_true, if_false, List.mem_append, room]
  exact or_comm

/-- The password made up instead ends if the firmware has a short name. -/
theorem password_builtin (failed : ¬ ∃ value, Stored storage value) :
    CString.nul ∈ (initializeNetwork storage info).password ↔ info.fwName.text.length < 56 := by
  have not_ok := mt probRead_ok failed
  simp only [initializeNetwork]
  rw [if_pos not_ok, CString.nul_mem_strncpy, builtinPassword_length, maxPasswordSize]
  omega

/-- **The credentials are never both terminated**, whatever the firmware is called and whatever
password is stored. -/
theorem not_terminated (storage : ByteStorage) (info : DeviceInfo) :
    ¬ (initializeNetwork storage info).Terminated :=
  fun terminated => ssid_unterminated storage info terminated.1

/-- Nothing stored. -/
def emptyStorage : ByteStorage where
  probe _ size := (.noData, size)
  read _ value := (.noData, value)
  read_length _ _ := rfl

def plantInfo : DeviceInfo where
  fwName := ⟨"plant".toList, by decide⟩
  deviceId := ⟨"da39a3ee5e6b4b0d3255bfef95601890afd80709".toList, by decide⟩
  id_length := by decide
  id_hex := by decide

theorem plant_unterminated : ¬ (initializeNetwork emptyStorage plantInfo).Terminated := by decide

end LocalNetworkPipeline

end OcsComponents.Pipeline
