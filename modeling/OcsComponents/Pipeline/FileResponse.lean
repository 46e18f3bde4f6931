import OcsComponents.Pipeline.Transfer

/-!
# A file as a chunked response

`WebGuiPipeline::handle_file_` passes a file on through a `StreamTransceiver`. A file whose
size is a multiple of the buffer's is read to its last byte before the end is flagged:
the read after that returns `OK` with no bytes, and the writer sends them as the
empty chunk that ends the response. The end of the stream then sends another.
-/

namespace OcsComponents.Pipeline
open Status OcsComponents.Core Http WhileLoop Transition StreamTransceiver

/-- A file that can be read without failures. -/
def sound (content : List Byte) : FileSystem := ⟨some content, fun _ => none, true⟩

/-- The transceiver of a file and a response, without failures. -/
def fileResponse (content : List Byte) (buffer : Buffer) : StreamTransceiver FileStreamReader ChunkStreamWriter :=
  .new (.new (sound content)) (.new (fun _ => false)) buffer

/-- `transceive()` returns `OK`, and all in all the chunks sent are non-empty chunks
that make up the content, and then an empty one. -/
def WellFormed (content : List Byte) (buffer : Buffer) : Prop :=
  ∃ fuel t, (fileResponse content buffer).transceive fileStreamReader chunkStreamWriter fuel = some (.ok, t) ∧
    ∃ chunks, (∀ chunk ∈ chunks, chunk ≠ []) ∧ chunks.flatten = content ∧
      (t.destroy fileStreamReader chunkStreamWriter).writer.chunks = chunks ++ [[]]

/-! ## The reads -/

/-- The reader after `m` reads through `n` bytes, the end of the file flagged or not. -/
def readerAt (content : List Byte) (n m : Nat) (eof : Bool) : FileStreamReader :=
  ⟨sound content, some ⟨content, min (m * n) content.length, eof, false⟩, m, false⟩

def writerAt (content : List Byte) (n m : Nat) : ChunkStreamWriter := ⟨blocks n content m, fun _ => false⟩

theorem flagged_sound (content : List Byte) (m : Nat) : flagged (sound content) m = false := by
  simp [flagged, sound]

theorem readFails_sound (content : List Byte) (n m : Nat) : readFails (sound content) content n m = false := by
  rw [readFails, flagged_sound, Bool.and_false]

/-- A transfer without failures, as it is at read `m`. -/
theorem transferAt_sound (content : List Byte) (b : Buffer) (m : Nat) (eof : Bool) :
    transferAt (sound content) content (fun _ => false) b m eof =
      ⟨readerAt content b.capacity m eof, writerAt content b.capacity m, b⟩ := by
  rw [transferAt, readerBefore, flagged_sound]
  rfl

theorem interruption_sound (content : List Byte) (n : Nat) :
    interruption (sound content) content n (fun _ => false) = none := by
  unfold interruption
  rw [List.find?_range_eq_none]
  intro k _
  simp [readFails_sound]

/-- The loop begins at the start of the file. -/
theorem transceive_eq (content : List Byte) (buffer : Buffer) (fuel : Nat) :
    (fileResponse content buffer).transceive fileStreamReader chunkStreamWriter fuel =
      run fileBody fuel ⟨readerAt content buffer.size 0 false, writerAt content buffer.size 0, buffer.copy⟩ := by
  have opened : readerAt content buffer.size 0 false = ⟨sound content, some (.open_ content), 0, false⟩ := by
    simp [readerAt, File.open_]
  rw [opened]
  rfl

/-- Reads that get all they ask for do not flag the end. -/
theorem goes_blocks (content : List Byte) (buffer : Buffer) (m : Nat) (le : m * buffer.size ≤ content.length) :
    ∃ b : Buffer, b.capacity = buffer.size ∧
      Goes fileBody ⟨readerAt content buffer.size 0 false, writerAt content buffer.size 0, buffer.copy⟩
        (blocks buffer.size content m)
        ⟨readerAt content buffer.size m false, writerAt content buffer.size m, b⟩ := by
  obtain ⟨b, capacity, goes⟩ := goes_uninterrupted (sound content) content (fun _ => false) buffer.copy m le
    fun j _ => by rw [readFails_sound]; rfl
  rw [transferAt_sound, transferAt_sound, capacity] at goes
  exact ⟨b, capacity, goes⟩

/-- A buffer of some size sends the blocks up to the first short one. -/
theorem leaves_blocks (content : List Byte) {buffer : Buffer} (nonempty : 0 < buffer.size) :
    ∃ t, Leaves fileBody ⟨readerAt content buffer.size 0 false, writerAt content buffer.size 0, buffer.copy⟩ (.ok, t) ∧
      t.writer = writerAt content buffer.size (content.length / buffer.size + 1) := by
  obtain ⟨t, code, leaves, ends⟩ := transfer_leaves (sound content) content (fun _ => false) buffer.copy nonempty
  rw [interruption_sound] at ends
  obtain ⟨rfl, writer⟩ := ends
  rw [transferAt_sound] at leaves
  exact ⟨t, leaves, writer⟩

/-- An empty buffer sends empty chunks for ever. -/
theorem not_leaves_empty {content : List Byte} {buffer : Buffer} (empty : buffer.size = 0) :
    ¬ ∃ r, Leaves fileBody ⟨readerAt content buffer.size 0 false, writerAt content buffer.size 0, buffer.copy⟩ r := by
  rintro ⟨r, leaves⟩
  obtain ⟨tr, s, ended, exit⟩ := leaves.goes
  obtain ⟨b, _, goes⟩ := goes_blocks content buffer (tr.length + 1) (by simp [empty])
  have := ended.length_le exit goes
  simp only [blocks, List.length_map, List.length_range] at this
  omega

theorem destroy_chunks (t : StreamTransceiver FileStreamReader ChunkStreamWriter) :
    (t.destroy fileStreamReader chunkStreamWriter).writer.chunks = t.writer.chunks ++ [[]] := rfl

/-- The blocks up to the first short one are the content; the short one is empty
exactly when the others have used it up. -/
theorem flatten_all_blocks {content : List Byte} {n : Nat} (pos : 0 < n) :
    (blocks n content (content.length / n + 1)).flatten = content := by
  have := Nat.lt_div_mul_add (a := content.length) pos
  rw [flatten_blocks, List.take_of_length_le (by rw [Nat.succ_mul]; omega)]

theorem blocks_nonempty_iff {content : List Byte} {n : Nat} (pos : 0 < n) :
    (∀ chunk ∈ blocks n content (content.length / n + 1), chunk ≠ []) ↔ ¬ n ∣ content.length := by
  have floor := Nat.div_mul_le_self content.length n
  constructor
  · rintro nonempty ⟨q, length⟩
    have quotient : content.length / n = q := by rw [length, Nat.mul_div_cancel_left _ pos]
    have last : block n content q ∈ blocks n content (content.length / n + 1) :=
      List.mem_map_of_mem (List.mem_range.mpr (by omega))
    refine nonempty _ last (List.eq_nil_of_length_eq_zero ?_)
    rw [length_block, length, Nat.mul_comm n q, Nat.sub_self, Nat.min_zero]
  · intro divides chunk member empty
    obtain ⟨k, bound, rfl⟩ : ∃ k < content.length / n + 1, block n content k = chunk := by simpa [blocks] using member
    have short := congrArg List.length empty
    rw [length_block, List.length_nil] at short
    have le : k * n ≤ content.length / n * n := Nat.mul_le_mul_right n (by omega)
    exact divides ⟨content.length / n, by rw [Nat.mul_comm]; omega⟩

theorem size_of_wellFormed {content : List Byte} {buffer : Buffer} (h : WellFormed content buffer) :
    0 < buffer.size ∧ ¬ buffer.size ∣ content.length := by
  obtain ⟨fuel, t, ends, chunks, nonempty, _, sent⟩ := h
  rw [transceive_eq] at ends
  have pos : 0 < buffer.size := by
    by_contra empty
    exact not_leaves_empty (by omega) ⟨_, fuel, ends⟩
  obtain ⟨t', leaves, writer⟩ := leaves_blocks content pos
  obtain rfl : t' = t := by cases leaves.unique ⟨fuel, ends⟩; rfl
  rw [destroy_chunks, writer, List.append_left_inj] at sent
  subst sent
  exact ⟨pos, (blocks_nonempty_iff pos).mp nonempty⟩

theorem wellFormed_of_size {content : List Byte} {buffer : Buffer} (pos : 0 < buffer.size)
    (divides : ¬ buffer.size ∣ content.length) : WellFormed content buffer := by
  obtain ⟨t, ⟨fuel, ends⟩, writer⟩ := leaves_blocks content pos
  exact ⟨fuel, t, by rw [transceive_eq, ends], _, (blocks_nonempty_iff pos).mpr divides, flatten_all_blocks pos,
    by rw [destroy_chunks, writer]; rfl⟩

/-- **A file response is well formed exactly when** the buffer has some size that does
not divide the length of the file. -/
theorem wellFormed_iff (content : List Byte) (buffer : Buffer) :
    WellFormed content buffer ↔ 0 < buffer.size ∧ ¬ buffer.size ∣ content.length :=
  ⟨size_of_wellFormed, fun ⟨pos, divides⟩ => wellFormed_of_size pos divides⟩

/-- Four bytes through a buffer of two: the response is ended twice. -/
theorem fileResponse_ended_twice :
    ((fileResponse [0x61, 0x62, 0x63, 0x64] ⟨2, 2, Nat.le_refl 2⟩).transceive fileStreamReader chunkStreamWriter 4).map
        (fun r => (r.1, (r.2.destroy fileStreamReader chunkStreamWriter).writer.chunks)) =
      some (.ok, [[0x61, 0x62], [0x63, 0x64], [], []]) ∧
    ¬ WellFormed [0x61, 0x62, 0x63, 0x64] ⟨2, 2, Nat.le_refl 2⟩ :=
  ⟨by decide, fun h => (size_of_wellFormed h).2 (by decide)⟩

end OcsComponents.Pipeline
