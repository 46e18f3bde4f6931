import OcsComponents.Core.FileStreamReader
import OcsComponents.Http.ChunkStreamWriter

/-!
# The transfer of a file

`StreamTransceiver::transceive` from a `FileStreamReader` to a `ChunkStreamWriter`, with any
pattern of failing reads and failing sends. The file goes out block by block; a transfer
ends with the first block that cannot be read or sent, or with the file.
-/

namespace OcsComponents.Pipeline
open Status OcsComponents.Core Http WhileLoop Transition StreamTransceiver

/-- The `k`-th read of a file through `n` bytes. -/
def block (n : Nat) (content : List Byte) (k : Nat) : List Byte := (content.drop (k * n)).take n

/-- The first `m` reads. -/
def blocks (n : Nat) (content : List Byte) (m : Nat) : List (List Byte) := (List.range m).map (block n content)

theorem blocks_succ (n : Nat) (content : List Byte) (m : Nat) :
    blocks n content (m + 1) = blocks n content m ++ [block n content m] := by
  simp [blocks, List.range_succ]

theorem flatten_blocks (n : Nat) (content : List Byte) (m : Nat) :
    (blocks n content m).flatten = content.take (m * n) := by
  induction m with
  | zero => simp [blocks]
  | succ m ih => rw [blocks_succ, List.flatten_append, ih, List.flatten_singleton, Nat.succ_mul, List.take_add, block]

theorem length_block (n : Nat) (content : List Byte) (k : Nat) :
    (block n content k).length = min n (content.length - k * n) := by
  simp [block]

theorem length_blocks (n : Nat) (content : List Byte) (m : Nat) : (blocks n content m).length = m := by
  simp [blocks]

/-- The loop of a file response. -/
abbrev fileBody := transceiveBody fileStreamReader chunkStreamWriter

/-! ## Failures -/

section Transfer
variable (fs : FileSystem) (content : List Byte) (n : Nat) (failures : Nat → Bool)

/-- The bytes that read `k` gets when the reads before it went through. -/
def got (k : Nat) : List Byte :=
  match fs.failures k with
  | none => block n content k
  | some m => (block n content k).take m

/-- One of the first `k` reads failed: the stream has its error flag set. -/
def flagged (k : Nat) : Bool := (List.range k).any fun j => (fs.failures j).isSome

/-- Read `k` is short, and not because of the end of the file alone. -/
def readFails (k : Nat) : Bool := decide ((got fs content n k).length < n) && flagged fs (k + 1)

/-- The first of the reads up to the end of the file that fails, or whose chunk is not sent. -/
def interruption : Option Nat :=
  (List.range (content.length / n + 1)).find? fun k => readFails fs content n k || failures k

end Transfer

/-! ## The iterations -/

section Transfer
variable {fs : FileSystem} {content : List Byte} {n : Nat} {failures : Nat → Bool}

/-- The reader before read `k`, when the reads before it went through. -/
def readerBefore (fs : FileSystem) (content : List Byte) (n k : Nat) (eof : Bool) : FileStreamReader :=
  ⟨fs, some ⟨content, min (k * n) content.length, eof, flagged fs k⟩, k, false⟩

/-- The writer after the first `m` chunks. -/
def writerAfter (failures : Nat → Bool) (content : List Byte) (n m : Nat) : ChunkStreamWriter :=
  ⟨blocks n content m, failures⟩

theorem flagged_succ (k : Nat) : flagged fs (k + 1) = (flagged fs k || (fs.failures k).isSome) := by
  simp [flagged, List.range_succ]

theorem drop_min_take (content : List Byte) (n k : Nat) :
    (content.drop (min (k * n) content.length)).take n = block n content k := by
  rw [block]
  rcases Nat.le_total (k * n) content.length with le | ge
  · rw [Nat.min_eq_left le]
  · rw [Nat.min_eq_right ge, List.drop_length, List.drop_eq_nil_of_le ge]

theorem pos_succ (content : List Byte) (n k : Nat) :
    min (k * n) content.length + (block n content k).length = min ((k + 1) * n) content.length := by
  rw [length_block, Nat.succ_mul]
  omega

/-- A read that does not fail gets its block, and a short one flags the end. -/
theorem read_eq (k : Nat) :
    (readFails fs content n k = true → ∃ bytes r, fileStreamReader.read n (readerBefore fs content n k false) = ((.error, bytes), r)) ∧
    (readFails fs content n k = false → fileStreamReader.read n (readerBefore fs content n k false) =
        ((.ok, block n content k), readerBefore fs content n (k + 1) (decide ((block n content k).length < n)))) := by
  unfold readFails got
  simp only [fileStreamReader, FileStreamReader.read, readerBefore, flagged_succ, File.fread]
  cases fault : fs.failures k with
  | none =>
    simp only [drop_min_take, pos_succ]
    by_cases short : (block n content k).length < n <;> cases flag : flagged fs k <;> simp [short]
  | some m =>
    simp only [drop_min_take]
    have le : (block n content k).length ≤ n := by rw [length_block]; omega
    by_cases short : ((block n content k).take m).length < n
    · rw [List.length_take] at short
      simp [short]
    · have whole : (block n content k).take m = block n content k := by
        apply List.take_of_length_le
        rw [List.length_take] at short
        omega
      rw [whole] at short
      simp [whole, short, pos_succ]


/-- The transfer before read `k`. -/
abbrev transferAt (fs : FileSystem) (content : List Byte) (failures : Nat → Bool) (b : Buffer) (k : Nat) (eof : Bool) :
    StreamTransceiver FileStreamReader ChunkStreamWriter :=
  ⟨readerBefore fs content b.capacity k eof, writerAfter failures content b.capacity k, b⟩

theorem write_eq (content : List Byte) (n : Nat) (failures : Nat → Bool) (k : Nat) :
    chunkStreamWriter.write (block n content k) (writerAfter failures content n k) =
    (if failures k then .error else .ok, writerAfter failures content n (k + 1)) := by
  have length : (blocks n content k).length = k := by simp [blocks]
  simp [chunkStreamWriter, ChunkStreamWriter.write, ChunkStreamWriter.send_, writerAfter, blocks_succ, length]

/-- An iteration that is not interrupted. -/
theorem body_goes (b : Buffer) {k : Nat} (read : readFails fs content b.capacity k = false) (sent : failures k = false) :
    fileBody (transferAt fs content failures b k false) = .inr (block b.capacity content k,
      transferAt fs content failures b.clear (k + 1) (decide ((block b.capacity content k).length < b.capacity))) := by
  have reads := (read_eq k).2 read
  have writes := write_eq content b.capacity failures k
  rw [sent] at writes
  simp only [fileBody, transceiveBody, Buffer.clear, reads, writes, Bool.false_eq_true, if_false]

/-- An iteration that is, by its read or by its chunk. -/
theorem body_stops (b : Buffer) {k : Nat} (stops : (readFails fs content b.capacity k || failures k) = true) :
    ∃ t, fileBody (transferAt fs content failures b k false) = .inl (.error, t) ∧ t.writer =
      writerAfter failures content b.capacity (if readFails fs content b.capacity k then k else k + 1) := by
  cases read : readFails fs content b.capacity k with
  | true =>
    obtain ⟨bytes, r, reads⟩ := (read_eq k).1 read
    exact ⟨⟨r, writerAfter failures content b.capacity k, b.clear⟩,
      by simp only [fileBody, transceiveBody, Buffer.clear, reads], rfl⟩
  | false =>
    rw [read, Bool.false_or] at stops
    have reads := (read_eq k).2 read
    have writes := write_eq content b.capacity failures k
    rw [stops] at writes
    exact ⟨⟨readerBefore fs content b.capacity (k + 1) (decide ((block b.capacity content k).length < b.capacity)),
      writerAfter failures content b.capacity (k + 1), b.clear⟩,
      by simp only [fileBody, transceiveBody, Buffer.clear, reads, writes, if_true], rfl⟩

/-- With the end flagged, the loop is over. -/
theorem body_ends (b : Buffer) (k : Nat) : fileBody (transferAt fs content failures b k true) =
    .inl (.ok, transferAt fs content failures b.clear k true) := by
  simp [fileBody, transceiveBody, fileStreamReader, FileStreamReader.read, readerBefore, Buffer.clear]

/-- Up to the end of the file and the first interruption the blocks go out. -/
theorem goes_uninterrupted (fs : FileSystem) (content : List Byte) (failures : Nat → Bool) (b : Buffer) :
    ∀ k, k * b.capacity ≤ content.length →
      (∀ j < k, (readFails fs content b.capacity j || failures j) = false) →
      ∃ b' : Buffer, b'.capacity = b.capacity ∧
        Goes fileBody (transferAt fs content failures b 0 false) (blocks b.capacity content k)
          (transferAt fs content failures b' k false) := by
  intro k
  induction k with
  | zero => exact fun _ _ => ⟨b, rfl, .start⟩
  | succ k ih =>
    intro le clear
    rw [Nat.succ_mul] at le
    obtain ⟨b', capacity, goes⟩ := ih (by omega) fun j lt => clear j (by omega)
    have now := clear k (by omega)
    rw [Bool.or_eq_false_iff, ← capacity] at now
    have step := body_goes b' now.1 now.2
    have full : ¬ (block b'.capacity content k).length < b'.capacity := by
      rw [length_block, capacity]
      omega
    rw [decide_eq_false full] at step
    rw [blocks_succ, ← capacity]
    rw [← capacity] at goes
    exact ⟨b'.clear, rfl, .next goes step⟩

/-- **A transfer** ends with the first interruption, or with the file. -/
theorem transfer_leaves (fs : FileSystem) (content : List Byte) (failures : Nat → Bool) (b : Buffer)
    (pos : 0 < b.capacity) : ∃ t code,
    Leaves fileBody (transferAt fs content failures b 0 false) (code, t) ∧
      match interruption fs content b.capacity failures with
      | some k => code = .error ∧ t.writer =
          writerAfter failures content b.capacity (if readFails fs content b.capacity k then k else k + 1)
      | none => code = .ok ∧ t.writer = writerAfter failures content b.capacity (content.length / b.capacity + 1) := by
  have floor := Nat.div_mul_le_self content.length b.capacity
  cases found : interruption fs content b.capacity failures with
  | some k =>
    unfold interruption at found
    obtain ⟨stops, member, clear⟩ := List.find?_range_eq_some.mp found
    have bound := List.mem_range.mp member
    have le : k * b.capacity ≤ content.length / b.capacity * b.capacity := Nat.mul_le_mul_right _ (by omega)
    obtain ⟨b', capacity, goes⟩ := goes_uninterrupted fs content failures b k (by omega) fun j lt => by simpa using clear j lt
    rw [← capacity] at stops goes
    obtain ⟨t, exit, writer⟩ := body_stops b' stops
    rw [capacity] at writer
    exact ⟨t, .error, goes.leaves exit, rfl, writer⟩
  | none =>
    unfold interruption at found
    have clear := List.find?_range_eq_none.mp found
    obtain ⟨b', capacity, goes⟩ := goes_uninterrupted fs content failures b (content.length / b.capacity) floor
      fun j lt => by simpa using clear j (by omega)
    have now := clear (content.length / b.capacity) (by omega)
    rw [Bool.not_eq_true', Bool.or_eq_false_iff] at now
    rw [← capacity] at now goes
    have step := body_goes b' now.1 now.2
    have short : (block b'.capacity content (content.length / b'.capacity)).length < b'.capacity := by
      have := Nat.lt_div_mul_add (a := content.length) pos
      rw [length_block, capacity]
      omega
    rw [decide_eq_true short] at step
    refine ⟨_, .ok, Goes.leaves (goes.next step) (body_ends ..), rfl, ?_⟩
    rw [← capacity]
    rfl

end Transfer

end OcsComponents.Pipeline
