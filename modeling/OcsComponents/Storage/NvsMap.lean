import OcsComponents.Storage.NvsStorage

/-!
# A storage as a map

The values by their keys that the operations of `NvsStorage` keep, for a driver that does what
NVS documents. Every reply is that of the map but for one: a read is `OK` also when the value is
shorter than the buffer, for `nvs_get_blob` returns how much it read in the size, and the size
that `read` was given is not compared with it.
-/

namespace OcsComponents.Storage
open Status

/-- The values that were written and not erased. -/
abbrev Values := CString → Option (List Byte)

variable {σ : Type}

/-- The namespace is open. -/
def Nvs.Opened (nvs : Nvs σ) (mode : OpenMode) (handle : σ) : Prop := ∃ m, nvs.openNs mode m = (.ok, handle)

/-- What NVS documents of a namespace with these values. A value is set whole or not at all. -/
structure Nvs.Lawful (nvs : Nvs σ) (view : σ → Values) : Prop where
  openNs_view : ∀ mode m, view (nvs.openNs mode m).2 = view m
  readonly : ∀ m, (nvs.openNs .readonly m).1 = .ok ∨
    (nvs.openNs .readonly m).1 = .nvsNotFound ∧ ∀ key, view m key = none
  readwrite : ∀ m, (nvs.openNs .readwrite m).1 = .ok
  get_absent : ∀ h key value size, nvs.Opened .readonly h → view h key = none →
    (nvs.getBlob h key value size).err = .nvsNotFound
  get_size : ∀ h key size blob, nvs.Opened .readonly h → view h key = some blob →
    (nvs.getBlob h key none size).err = .ok ∧ (nvs.getBlob h key none size).size = blob.length
  get_short : ∀ h key value blob, nvs.Opened .readonly h → view h key = some blob →
    value.length < blob.length → (nvs.getBlob h key (some value) value.length).err = .other
  get_whole : ∀ h key value blob, nvs.Opened .readonly h → view h key = some blob →
    blob.length ≤ value.length → (nvs.getBlob h key (some value) value.length).err = .ok ∧
      (nvs.getBlob h key (some value) value.length).value = blob ++ value.drop blob.length
  set : ∀ h key value, nvs.Opened .readwrite h →
    (nvs.setBlob h key value).1 = .ok ∧
        view (nvs.setBlob h key value).2 = Function.update (view h) key (some value) ∨
      (nvs.setBlob h key value).1 ≠ .ok ∧ view (nvs.setBlob h key value).2 = view h
  erase_absent : ∀ h key, nvs.Opened .readwrite h → view h key = none →
    (nvs.eraseKey h key).1 = .nvsNotFound ∧ view (nvs.eraseKey h key).2 = view h
  erase_found : ∀ h key blob, nvs.Opened .readwrite h → view h key = some blob →
    (nvs.eraseKey h key).1 = .ok ∧ view (nvs.eraseKey h key).2 = Function.update (view h) key none
  commit : ∀ m, (nvs.commit m).1 = .ok ∧ view (nvs.commit m).2 = view m

/-- The values after an operation with such a reply. -/
def Operation.keep (values : Values) : Operation → Reply → Values
  | .write key value _, .done .ok => Function.update values key (some value)
  | .erase key, .done .ok => Function.update values key none
  | _, _ => values

/-- What a map with these values replies. -/
def Operation.Right (values : Values) : Operation → Reply → Prop
  | .probe key _, .size code size =>
    match values key with
    | none => code = .noData
    | some blob => code = .ok ∧ size = blob.length
  | .read key value _, .value code out =>
    match values key with
    | none => code = .noData
    | some blob => (code = .ok ↔ blob.length = value.length) ∧ (code = .ok → out = blob)
  | .write _ _ _, .done _ => True
  | .erase key, .done code => code = .noData ↔ values key = none
  | _, _ => False

/-- The operation does not read more than there is. -/
def Operation.Fits (values : Values) : Operation → Prop
  | .read key value _ => ∀ blob, values key = some blob → value.length ≤ blob.length
  | .probe _ _ => True
  | .write _ _ _ => True
  | .erase _ => True

/-- Every operation of a sequence and its reply are so, given the values before it. -/
def Always (nvs : Nvs σ) (P : Values → Operation → Reply → Prop) : Values → σ → List Operation → Prop
  | _, _, [] => True
  | values, m, op :: ops =>
    let (reply, m) := op.run nvs m
    P values op reply ∧ Always nvs P (op.keep values reply) m ops

namespace Nvs.Lawful
variable {nvs : Nvs σ} {view : σ → Values} (lawful : nvs.Lawful view) {m : σ} {key : CString}
include lawful

/-! ## The operations -/

theorem open_readonly (m : σ) :
    (∃ h, nvs.Opened .readonly h ∧ view h = view m ∧ NvsStorage.open_ nvs .readonly m = (.ok, h)) ∨
      ∃ h, view h = view m ∧ NvsStorage.open_ nvs .readonly m = (.noData, h) ∧ ∀ key, view m key = none := by
  have same := lawful.openNs_view .readonly m
  have opens := lawful.readonly m
  rcases opened : nvs.openNs .readonly m with ⟨err, h⟩
  rw [opened] at same opens
  rcases opens with rfl | ⟨rfl, absent⟩
  · exact .inl ⟨h, ⟨m, opened⟩, same, by rw [NvsStorage.open_, opened]⟩
  · exact .inr ⟨h, same, by rw [NvsStorage.open_, opened], absent⟩

theorem open_readwrite (m : σ) :
    ∃ h, nvs.Opened .readwrite h ∧ view h = view m ∧ NvsStorage.open_ nvs .readwrite m = (.ok, h) := by
  have same := lawful.openNs_view .readwrite m
  have opens := lawful.readwrite m
  rcases opened : nvs.openNs .readwrite m with ⟨err, h⟩
  rw [opened] at same opens
  obtain rfl : err = .ok := opens
  exact ⟨h, ⟨m, opened⟩, same, by rw [NvsStorage.open_, opened]⟩

theorem commit_ok (m : σ) : ∃ m', view m' = view m ∧ NvsStorage.commit nvs m = (.ok, m') := by
  have commits := lawful.commit m
  rcases committed : nvs.commit m with ⟨err, m'⟩
  rw [committed] at commits
  obtain ⟨rfl, same⟩ := commits
  exact ⟨m', same, by rw [NvsStorage.commit, committed]⟩

theorem probe_absent (absent : view m key = none) (size : Nat) :
    (NvsStorage.probe nvs m key size).1.1 = .noData ∧ view (NvsStorage.probe nvs m key size).2 = view m := by
  rcases lawful.open_readonly m with ⟨h, opened, same, opens⟩ | ⟨h, same, opens, _⟩
  · have err := lawful.get_absent h key none size opened (same ▸ absent)
    simp only [NvsStorage.probe, opens, NvsStorage.read_, err]
    exact ⟨trivial, same⟩
  · simp only [NvsStorage.probe, opens]
    exact ⟨trivial, same⟩

theorem probe_found {blob : List Byte} (found : view m key = some blob) (size : Nat) :
    (NvsStorage.probe nvs m key size).1 = (.ok, blob.length) ∧
      view (NvsStorage.probe nvs m key size).2 = view m := by
  rcases lawful.open_readonly m with ⟨h, opened, same, opens⟩ | ⟨_, _, _, absent⟩
  · obtain ⟨err, whole⟩ := lawful.get_size h key size blob opened (same ▸ found)
    simp only [NvsStorage.probe, opens, NvsStorage.read_, err, whole]
    exact ⟨trivial, same⟩
  · rw [absent key] at found
    cases found

theorem read_absent (absent : view m key = none) (value : List Byte) :
    (NvsStorage.read nvs m key value).1.1 = .noData ∧ view (NvsStorage.read nvs m key value).2 = view m := by
  rcases lawful.open_readonly m with ⟨h, opened, same, opens⟩ | ⟨h, same, opens, _⟩
  · have err := lawful.get_absent h key (some value) value.length opened (same ▸ absent)
    simp only [NvsStorage.read, opens, NvsStorage.read_, err]
    exact ⟨trivial, same⟩
  · simp only [NvsStorage.read, opens]
    exact ⟨trivial, same⟩

/-- A buffer that is too short. -/
theorem read_short {blob value : List Byte} (found : view m key = some blob) (short : value.length < blob.length) :
    (NvsStorage.read nvs m key value).1.1 = .error ∧ view (NvsStorage.read nvs m key value).2 = view m := by
  rcases lawful.open_readonly m with ⟨h, opened, same, opens⟩ | ⟨_, _, _, absent⟩
  · have err := lawful.get_short h key value blob opened (same ▸ found) short
    simp only [NvsStorage.read, opens, NvsStorage.read_, err]
    exact ⟨trivial, same⟩
  · rw [absent key] at found
    cases found

/-- A buffer that is long enough: the rest of it stays as it was. -/
theorem read_whole {blob value : List Byte} (found : view m key = some blob)
    (whole : blob.length ≤ value.length) :
    (NvsStorage.read nvs m key value).1 = (.ok, blob ++ value.drop blob.length) ∧
      view (NvsStorage.read nvs m key value).2 = view m := by
  rcases lawful.open_readonly m with ⟨h, opened, same, opens⟩ | ⟨_, _, _, absent⟩
  · obtain ⟨err, out⟩ := lawful.get_whole h key value blob opened (same ▸ found) whole
    simp only [NvsStorage.read, opens, NvsStorage.read_, err, out]
    exact ⟨trivial, same⟩
  · rw [absent key] at found
    cases found

theorem write_cases (key : CString) (value : List Byte) :
    (NvsStorage.write nvs m key value).1 = .ok ∧
        view (NvsStorage.write nvs m key value).2 = Function.update (view m) key (some value) ∨
      (NvsStorage.write nvs m key value).1 = .error ∧ view (NvsStorage.write nvs m key value).2 = view m := by
  obtain ⟨h, opened, same, opens⟩ := lawful.open_readwrite m
  have sets := lawful.set h key value opened
  rcases set : nvs.setBlob h key value with ⟨err, written⟩
  rw [set, same] at sets
  simp only [NvsStorage.write, opens, NvsStorage.write_, set]
  rcases sets with ⟨rfl, stored⟩ | ⟨failed, kept⟩
  · obtain ⟨m', same', commits⟩ := lawful.commit_ok written
    simp only [commits]
    exact .inl ⟨trivial, same'.trans stored⟩
  · cases err with
    | ok => exact absurd rfl failed
    | nvsNotFound => exact .inr ⟨rfl, kept⟩
    | other => exact .inr ⟨rfl, kept⟩

theorem erase_absent_eq (absent : view m key = none) :
    (NvsStorage.erase nvs m key).1 = .noData ∧ view (NvsStorage.erase nvs m key).2 = view m := by
  obtain ⟨h, opened, same, opens⟩ := lawful.open_readwrite m
  have erases := lawful.erase_absent h key opened (same ▸ absent)
  rcases erased : nvs.eraseKey h key with ⟨err, m'⟩
  rw [erased] at erases
  obtain ⟨rfl, kept⟩ := erases
  simp only [NvsStorage.erase, opens, NvsStorage.erase_, erased]
  exact ⟨trivial, kept.trans same⟩

theorem erase_found_eq {blob : List Byte} (found : view m key = some blob) :
    (NvsStorage.erase nvs m key).1 = .ok ∧
      view (NvsStorage.erase nvs m key).2 = Function.update (view m) key none := by
  obtain ⟨h, opened, same, opens⟩ := lawful.open_readwrite m
  have erases := lawful.erase_found h key blob opened (same ▸ found)
  rcases erased : nvs.eraseKey h key with ⟨err, m'⟩
  rw [erased, same] at erases
  obtain ⟨rfl, removed⟩ := erases
  obtain ⟨m'', same', commits⟩ := lawful.commit_ok m'
  simp only [NvsStorage.erase, opens, NvsStorage.erase_, erased, commits]
  exact ⟨trivial, same'.trans removed⟩

/-! ## Sequences of operations -/

/-- The values are those of the replies. -/
theorem run_keep (m : σ) (op : Operation) : view (op.run nvs m).2 = op.keep (view m) (op.run nvs m).1 := by
  cases op with
  | probe key size =>
    cases value : view m key with
    | none => exact (lawful.probe_absent value size).2
    | some blob => exact (lawful.probe_found value size).2
  | read key out _ =>
    cases value : view m key with
    | none => exact (lawful.read_absent value out).2
    | some blob =>
      rcases Nat.lt_or_ge out.length blob.length with short | whole
      · exact (lawful.read_short value short).2
      · exact (lawful.read_whole value whole).2
  | write key value filled =>
    rcases lawful.write_cases (m := m) key value with ⟨ok, stored⟩ | ⟨failed, kept⟩
    · simp only [Operation.run, ok, Operation.keep, stored]
    · simp only [Operation.run, failed, Operation.keep, kept]
  | erase key =>
    cases value : view m key with
    | none =>
      obtain ⟨code, kept⟩ := lawful.erase_absent_eq value
      simp only [Operation.run, code, Operation.keep, kept]
    | some blob =>
      obtain ⟨code, removed⟩ := lawful.erase_found_eq value
      simp only [Operation.run, code, Operation.keep, removed]

/-- A reply is right unless more is read than there is. -/
theorem run_right_iff (m : σ) (op : Operation) : op.Right (view m) (op.run nvs m).1 ↔ op.Fits (view m) := by
  cases op with
  | probe key size =>
    apply iff_of_true _ trivial
    cases value : view m key with
    | none => simp only [Operation.run, Operation.Right, value, (lawful.probe_absent value size).1]
    | some blob => simp only [Operation.run, Operation.Right, value, (lawful.probe_found value size).1, and_self]
  | read key out _ =>
    cases value : view m key with
    | none =>
      apply iff_of_true
      · simp only [Operation.run, Operation.Right, value, (lawful.read_absent value out).1]
      · intro blob found
        rw [value] at found
        cases found
    | some blob =>
      have fits : (∀ blob', some blob = some blob' → out.length ≤ blob'.length) ↔ out.length ≤ blob.length := by
        simp
      simp only [Operation.run, Operation.Right, Operation.Fits, value, fits]
      rcases Nat.lt_or_ge out.length blob.length with short | whole
      · rw [(lawful.read_short value short).1]
        simp only [reduceCtorEq, false_iff, false_imp_iff, and_true]
        omega
      · simp only [(lawful.read_whole value whole).1, true_iff, true_imp_iff]
        constructor
        · rintro ⟨same, _⟩
          exact Nat.le_of_eq same.symm
        · intro fits
          have same := Nat.le_antisymm whole fits
          refine ⟨same, ?_⟩
          rw [List.drop_eq_nil_of_le fits, List.append_nil]
  | write key value filled => exact iff_of_true trivial trivial
  | erase key =>
    apply iff_of_true _ trivial
    cases value : view m key with
    | none => simp only [Operation.run, Operation.Right, value, (lawful.erase_absent_eq value).1]
    | some blob => simp only [Operation.run, Operation.Right, value, (lawful.erase_found_eq value).1, reduceCtorEq]

/-- What is the same for an operation is the same for sequences of them. -/
theorem always_iff {P Q : Values → Operation → Reply → Prop}
    (each : ∀ m (op : Operation), P (view m) op (op.run nvs m).1 ↔ Q (view m) op (op.run nvs m).1) (m : σ)
    (ops : List Operation) : Always nvs P (view m) m ops ↔ Always nvs Q (view m) m ops := by
  induction ops generalizing m with
  | nil => exact Iff.rfl
  | cons op ops ih =>
    have rest := ih (op.run nvs m).2
    rw [lawful.run_keep] at rest
    exact and_congr (each m op) rest

/-- **The replies to a sequence of operations are those of the map if and only if no read asks for
more than what was written and not erased.** -/
theorem right_iff_fits (m : σ) (ops : List Operation) :
    Always nvs Operation.Right (view m) m ops ↔ Always nvs (fun values op _ => op.Fits values) (view m) m ops :=
  lawful.always_iff lawful.run_right_iff m ops

/-- What tells two storages apart: a value that NVS accepts is found after it is written. -/
theorem keeps {value : List Byte} (absent : view m key = none)
    (accepted : (nvs.setBlob (nvs.openNs .readwrite m).2 key value).1 = .ok) : nvs.Keeps m key value := by
  have opened : nvs.Opened .readwrite (nvs.openNs .readwrite m).2 := ⟨m, Prod.ext (lawful.readwrite m) rfl⟩
  refine ⟨fun opens => ?_, lawful.readwrite m, accepted, ?_⟩
  · have none_read := lawful.openNs_view .readonly m ▸ absent
    rw [lawful.get_absent _ key _ _ ⟨m, Prod.ext opens rfl⟩ none_read]
    nofun
  · intro written
    have stored : view written key = some value := by
      rcases lawful.set _ key value opened with ⟨_, set⟩ | ⟨failed, _⟩
      · rw [(lawful.commit _).2, set, Function.update_self]
      · exact absurd accepted failed
    rcases lawful.readonly written with opens | ⟨_, nothing⟩
    · have found := lawful.openNs_view .readonly written ▸ stored
      have whole := lawful.get_whole _ key value value ⟨written, Prod.ext opens rfl⟩ found (Nat.le_refl _)
      exact ⟨opens, whole.1⟩
    · rw [nothing key] at stored
      cases stored

end Nvs.Lawful

/-! ## A driver -/

/-- What a `blobMap` has. -/
def blobMapView (m : Option (List Char → Option (List Byte))) : Values := fun key => m.bind (· key.text)

theorem blobMapView_update (m : List Char → Option (List Byte)) (key : CString) (value : Option (List Byte)) :
    blobMapView (some (Function.update m key.text value)) = Function.update (blobMapView (some m)) key value := by
  funext key'
  have text : key'.text = key.text ↔ key' = key := by
    cases key
    cases key'
    simp
  simp only [blobMapView, Option.bind_some, Function.update_apply, text]

theorem blobMap_opened {mode : OpenMode} {h : Option (List Char → Option (List Byte))}
    (opened : blobMap.Opened mode h) : ∃ m, h = some m := by
  obtain ⟨m, opens⟩ := opened
  cases mode <;> cases m <;> cases opens
  all_goals exact ⟨_, rfl⟩

theorem blobMap_lawful : blobMap.Lawful blobMapView where
  openNs_view mode m := by cases mode <;> cases m <;> rfl
  readonly m := by
    cases m with
    | none => exact .inr ⟨rfl, fun _ => rfl⟩
    | some m => exact .inl rfl
  readwrite m := by cases m <;> rfl
  get_absent h key value size _ absent := by
    have absent : h.bind (· key.text) = none := absent
    simp only [blobMap, absent]
  get_size h key size blob _ found := by
    have found : h.bind (· key.text) = some blob := found
    simp only [blobMap, found, and_self]
  get_short h key value blob _ found short := by
    have found : h.bind (· key.text) = some blob := found
    simp only [blobMap, found, if_pos short]
  get_whole h key value blob _ found whole := by
    have found : h.bind (· key.text) = some blob := found
    simp only [blobMap, found, if_neg (Nat.not_lt.mpr whole), and_self]
  set h key value opened := by
    obtain ⟨m, rfl⟩ := blobMap_opened opened
    by_cases long : bufsize < key.text.length
    · exact .inr (by simp only [blobMap, if_pos long, ne_eq, reduceCtorEq, not_false_eq_true, and_self])
    · simp only [blobMap, if_neg long]
      exact .inl ⟨trivial, blobMapView_update m key (some value)⟩
  erase_absent h key _ absent := by
    have absent : h.bind (· key.text) = none := absent
    simp only [blobMap, absent, and_self]
  erase_found h key blob opened found := by
    obtain ⟨m, rfl⟩ := blobMap_opened opened
    have found : (some m).bind (· key.text) = some blob := found
    simp only [blobMap, found]
    exact ⟨trivial, blobMapView_update m key none⟩
  commit m := ⟨rfl, rfl⟩

def keyK : CString := ⟨['k'], by decide⟩

/-- A value of two bytes, read into as many. -/
theorem right_iff_fits_two :
    let ops : List Operation := [.write keyK [1, 2] (by decide), .probe keyK 0, .read keyK [0, 0] (by decide)]
    Always blobMap Operation.Right (blobMapView none) none ops ↔
      Always blobMap (fun values op _ => op.Fits values) (blobMapView none) none ops :=
  blobMap_lawful.right_iff_fits none _

/-- A value of one byte, read into two: `OK`, and the second byte is not of the value. -/
theorem not_right : ¬ Always blobMap Operation.Right (blobMapView none) none
    [.write keyK [1] (by decide), .read keyK [7, 7] (by decide)] := by
  rintro ⟨_, ⟨same, _⟩, _⟩
  exact absurd (same.mp rfl) (by decide)

end OcsComponents.Storage
