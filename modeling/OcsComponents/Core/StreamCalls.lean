import OcsComponents.Core.StreamTransceiver

/-!
# The calls of a transfer

`transceive()` for any two streams, with every call it makes on them recorded in order. Its
result is that of the first call that did not return `OK`, which is also its last
(`Stopped`). A transfer is faithful if that call was a read that returned `NoData`, and then
everything read was written. The code takes a write that returns `NoData` for the end of the
stream as well, and that is the only way in which a transfer is not faithful
(`transceive_faithful_iff`).
-/

namespace OcsComponents.Core
open Status WhileLoop

namespace StreamTransceiver

/-- A call on one of the streams, with what it returned. -/
inductive Call where
  | readerBegin (code : StatusCode)
  | writerBegin (code : StatusCode)
  | read (code : StatusCode) (bytes : List Byte)
  | write (code : StatusCode) (bytes : List Byte)
  deriving DecidableEq

namespace Call

def status : Call → StatusCode
  | readerBegin code => code
  | writerBegin code => code
  | read code _ => code
  | write code _ => code

def beginStatus : Call → Option StatusCode
  | readerBegin code => some code
  | writerBegin code => some code
  | _ => none

def readStatus : Call → Option StatusCode
  | read code _ => some code
  | _ => none

def writeStatus : Call → Option StatusCode
  | write code _ => some code
  | _ => none

/-- The chunk that was read. -/
def chunkRead : Call → List Byte
  | read .ok bytes => bytes
  | _ => []

/-- The chunk handed to the writer. -/
def chunkWritten : Call → List Byte
  | write _ bytes => bytes
  | _ => []

end Call

/-! ## Recording the calls -/

/-- A transceiver and the calls it has made. -/
structure Recorded (ρ ω : Type) where
  t : StreamTransceiver ρ ω
  calls : List Call

variable {ρ ω : Type} (R : StreamReader ρ) (W : StreamWriter ω)

namespace Recorded

/-- `reader_.begin()` -/
def readerBegin (r : Recorded ρ ω) : StatusCode × Recorded ρ ω :=
  let answer := R.begin_ r.t.reader
  (answer.1, ⟨{ r.t with reader := answer.2 }, r.calls ++ [.readerBegin answer.1]⟩)

/-- `writer_.begin()` -/
def writerBegin (r : Recorded ρ ω) : StatusCode × Recorded ρ ω :=
  let answer := W.begin_ r.t.writer
  (answer.1, ⟨{ r.t with writer := answer.2 }, r.calls ++ [.writerBegin answer.1]⟩)

/-- `buffer_.clear()` and `reader_.read(buffer_.data(), size)` -/
def read (r : Recorded ρ ω) : (StatusCode × List Byte) × Recorded ρ ω :=
  let answer := R.read r.t.buffer.clear.capacity r.t.reader
  (answer.1,
    ⟨{ r.t with buffer := r.t.buffer.clear, reader := answer.2 }, r.calls ++ [.read answer.1.1 answer.1.2]⟩)

/-- `writer_.write(buffer_.data(), size)` -/
def write (bytes : List Byte) (r : Recorded ρ ω) : StatusCode × Recorded ρ ω :=
  let answer := W.write bytes r.t.writer
  (answer.1, ⟨{ r.t with writer := answer.2 }, r.calls ++ [.write answer.1 bytes]⟩)

/-- What the loop returns for the status it stops at. -/
def loopResult (code : StatusCode) : StatusCode := if code = .noData then .ok else code

/-- One iteration of `transceive`, recorded. -/
def body (r : Recorded ρ ω) : (StatusCode × Recorded ρ ω) ⊕ (List Byte × Recorded ρ ω) :=
  match r.read R with
  | ((.ok, bytes), r) =>
    match r.write W bytes with
    | (.ok, r) => .inr (bytes, r)
    | (code, r) => .inl (loopResult code, r)
  | ((code, _), r) => .inl (loopResult code, r)

/-- `transceive()`, recorded. -/
def transceive (r : Recorded ρ ω) (fuel : Nat) : Option (StatusCode × Recorded ρ ω) :=
  match r.readerBegin R with
  | (.ok, r) =>
    match r.writerBegin W with
    | (.ok, r) => WhileLoop.run (body R W) fuel r
    | (code, r) => some (code, r)
  | (code, r) => some (code, r)

theorem body_follows (r : Recorded ρ ω) :
    transceiveBody R W r.t = (r.body R W).map (Prod.map id Recorded.t) (Prod.map id Recorded.t) := by
  unfold transceiveBody body Recorded.read Recorded.write
  dsimp only
  rcases R.read r.t.buffer.clear.capacity r.t.reader with ⟨⟨code, bytes⟩, reader⟩
  cases code with
  | ok =>
    dsimp only
    rcases W.write bytes r.t.writer with ⟨code, writer⟩
    cases code <;> rfl
  | _ => rfl

/-- Recording the calls changes nothing else. -/
theorem transceive_follows (r : Recorded ρ ω) (fuel : Nat) :
    r.t.transceive R W fuel = (r.transceive R W fuel).map (Prod.map id Recorded.t) := by
  unfold StreamTransceiver.transceive Recorded.transceive readerBegin writerBegin
  rcases R.begin_ r.t.reader with ⟨code, reader⟩
  cases code with
  | ok =>
    dsimp only
    rcases W.begin_ r.t.writer with ⟨code, writer⟩
    cases code with
    | ok =>
      dsimp only
      exact run_map Recorded.t (Prod.map id Recorded.t) (body_follows R W) fuel ⟨_, _⟩
    | _ => rfl
  | _ => rfl

/-- **What an iteration does**: it reads and writes a chunk and goes on, or one of the two calls stops it. -/
theorem body_cases (r : Recorded ρ ω) :
    (∃ bytes r', r.body R W = .inr (bytes, r') ∧ r'.calls = r.calls ++ [.read .ok bytes, .write .ok bytes]) ∨
    (∃ code bytes r', code ≠ .ok ∧ r.body R W = .inl (loopResult code, r') ∧ r'.calls = r.calls ++ [.read code bytes]) ∨
    ∃ code bytes r', code ≠ .ok ∧ r.body R W = .inl (loopResult code, r') ∧
      r'.calls = r.calls ++ [.read .ok bytes, .write code bytes] := by
  unfold body Recorded.read Recorded.write
  rcases R.read r.t.buffer.clear.capacity r.t.reader with ⟨⟨code, bytes⟩, reader⟩
  by_cases reads : code = .ok
  · subst reads
    dsimp only
    rcases W.write bytes r.t.writer with ⟨code, writer⟩
    by_cases writes : code = .ok
    · subst writes
      exact .inl ⟨bytes, _, rfl, by simp⟩
    · let r' : Recorded ρ ω :=
        ⟨{ r.t with buffer := r.t.buffer.clear, reader, writer }, r.calls ++ [.read .ok bytes] ++ [.write code bytes]⟩
      refine .inr (.inr ⟨code, bytes, r', writes, ?_, by simp [r']⟩)
      cases code <;> first | rfl | contradiction
  · let r' : Recorded ρ ω := ⟨{ r.t with buffer := r.t.buffer.clear, reader }, r.calls ++ [.read code bytes]⟩
    refine .inr (.inl ⟨code, bytes, r', reads, ?_, rfl⟩)
    cases code <;> first | rfl | contradiction

/-- **What a transfer does**: both streams begin and the loop runs, or one of them does not begin. -/
theorem transceive_cases (r : Recorded ρ ω) (fuel : Nat) :
    (∃ r', r.transceive R W fuel = run (body R W) fuel r' ∧ r'.calls = r.calls ++ [.readerBegin .ok, .writerBegin .ok]) ∨
    (∃ code r', code ≠ .ok ∧ r.transceive R W fuel = some (code, r') ∧ r'.calls = r.calls ++ [.readerBegin code]) ∨
    ∃ code r', code ≠ .ok ∧ r.transceive R W fuel = some (code, r') ∧
      r'.calls = r.calls ++ [.readerBegin .ok, .writerBegin code] := by
  unfold Recorded.transceive readerBegin writerBegin
  dsimp only
  rcases R.begin_ r.t.reader with ⟨code, reader⟩
  by_cases begun : code = .ok
  · subst begun
    dsimp only
    rcases W.begin_ r.t.writer with ⟨code, writer⟩
    let r' : Recorded ρ ω := ⟨{ r.t with reader, writer }, r.calls ++ [.readerBegin .ok] ++ [.writerBegin code]⟩
    by_cases begun : code = .ok
    · subst begun
      exact .inl ⟨r', rfl, by simp [r']⟩
    · refine .inr (.inr ⟨code, r', begun, ?_, by simp [r']⟩)
      cases code <;> first | rfl | contradiction
  · let r' : Recorded ρ ω := ⟨{ r.t with reader }, r.calls ++ [.readerBegin code]⟩
    refine .inr (.inl ⟨code, r', begun, ?_, rfl⟩)
    cases code <;> first | rfl | contradiction

end Recorded

/-- The calls of `transceive()`. -/
def calls (t : StreamTransceiver ρ ω) (fuel : Nat) : List Call :=
  match Recorded.transceive R W ⟨t, []⟩ fuel with
  | some (_, r) => r.calls
  | none => []

/-! ## Faithful transfers -/

/-- Both streams began, the last read found the end of the stream and all other calls came through. -/
structure Completed (calls : List Call) : Prop where
  begun : calls.filterMap Call.beginStatus = [.ok, .ok]
  read : ∃ before, calls.filterMap Call.readStatus = before ++ [.noData] ∧ ∀ code ∈ before, code = .ok
  written : ∀ code ∈ calls.filterMap Call.writeStatus, code = .ok

/-- `transceive()` returns `OK` where the transfer was completed, and then all that was read
is written. Otherwise it returns the status of the first call that did not return `OK`, and
makes no call after it. -/
def Faithful (code : StatusCode) (calls : List Call) : Prop :=
  (code = .ok ↔ Completed calls) ∧
  (Completed calls → calls.flatMap Call.chunkWritten = calls.flatMap Call.chunkRead) ∧
  (¬ Completed calls → ∃ before last, calls = before ++ [last] ∧ (∀ c ∈ before, c.status = .ok) ∧
    last.status ≠ .ok ∧ last.status = code)

/-- The last call is the first that did not return `OK`, and the one that decides. -/
structure Stopped (before : List Call) (last : Call) : Prop where
  fine : ∀ c ∈ before, c.status = .ok
  failed : last.status ≠ .ok

theorem Stopped.end_of_stream {before : List Call} {last : Call} (h : Stopped before last)
    (completed : Completed (before ++ [last])) : ∃ bytes, last = .read .noData bytes := by
  obtain ⟨begun, ⟨first, read, fine⟩, written⟩ := completed
  rw [List.filterMap_append] at begun read written
  have begun_ok : ∀ code ∈ before.filterMap Call.beginStatus ++ [last].filterMap Call.beginStatus, code = .ok := by
    rw [begun]
    simp
  cases last with
  | readerBegin code => exact absurd (begun_ok code (by simp [Call.beginStatus])) h.failed
  | writerBegin code => exact absurd (begun_ok code (by simp [Call.beginStatus])) h.failed
  | read code bytes =>
    have same : code = .noData := by
      have last := congrArg List.getLast? read
      simpa [Call.readStatus] using last
    exact ⟨bytes, by rw [same]⟩
  | write code bytes => exact absurd (written code (by simp [Call.writeStatus])) h.failed

/-- A transfer that another call stopped is faithful if the status of that call is returned. -/
theorem Stopped.faithful_iff {before : List Call} {last : Call} (h : Stopped before last)
    (other : ∀ bytes, last ≠ .read .noData bytes) (code : StatusCode) :
    Faithful code (before ++ [last]) ↔ last.status = code := by
  have incomplete : ¬ Completed (before ++ [last]) := by
    intro completed
    obtain ⟨bytes, same⟩ := h.end_of_stream completed
    exact other bytes same
  constructor
  · rintro ⟨-, -, first⟩
    obtain ⟨before', last', same, -, -, returned⟩ := first incomplete
    obtain ⟨-, rfl⟩ := List.append_singleton_inj.mp same
    exact returned
  · intro returned
    refine ⟨iff_of_false ?_ incomplete, fun completed => absurd completed incomplete, fun _ => ?_⟩
    · rw [← returned]
      exact h.failed
    · exact ⟨before, last, rfl, h.fine, h.failed, returned⟩

/-- The calls of a loop that goes on. -/
structure Underway (calls : List Call) : Prop where
  begun : calls.filterMap Call.beginStatus = [.ok, .ok]
  fine : ∀ c ∈ calls, c.status = .ok
  copied : calls.flatMap Call.chunkWritten = calls.flatMap Call.chunkRead

theorem Underway.chunk {calls : List Call} (h : Underway calls) (bytes : List Byte) :
    Underway (calls ++ [.read .ok bytes, .write .ok bytes]) where
  begun := by simp [h.begun, Call.beginStatus]
  fine := by
    intro c member
    rcases List.mem_append.mp member with early | late
    · exact h.fine c early
    · rcases List.mem_pair.mp late with rfl | rfl <;> rfl
  copied := by simp [h.copied, Call.chunkRead, Call.chunkWritten]

theorem Underway.completed {calls : List Call} (h : Underway calls) (bytes : List Byte) :
    Completed (calls ++ [.read .noData bytes]) where
  begun := by simp [h.begun, Call.beginStatus]
  read := by
    refine ⟨calls.filterMap Call.readStatus, by simp [Call.readStatus], ?_⟩
    intro code member
    obtain ⟨c, member, status⟩ := List.mem_filterMap.mp member
    cases c with
    | read code' bytes =>
      cases status
      exact h.fine _ member
    | _ => cases status
  written := by
    intro code member
    rw [List.filterMap_append, List.mem_append] at member
    rcases member with early | late
    · obtain ⟨c, member, status⟩ := List.mem_filterMap.mp early
      cases c with
      | write code' bytes =>
        cases status
        exact h.fine _ member
      | _ => cases status
    · simp [Call.writeStatus] at late

theorem Underway.faithful {calls : List Call} (h : Underway calls) (bytes : List Byte) :
    Faithful .ok (calls ++ [.read .noData bytes]) := by
  have completed := h.completed bytes
  refine ⟨iff_of_true rfl completed, fun _ => ?_, fun incomplete => absurd completed incomplete⟩
  simp [h.copied, Call.chunkRead, Call.chunkWritten]

/-! ## How a transfer ends -/

/-- The ways a transfer ends, with what it returns. -/
inductive Ended : StatusCode → List Call → Prop where
  | endOfStream {before : List Call} (underway : Underway before) (bytes : List Byte) :
      Ended .ok (before ++ [.read .noData bytes])
  | writerNoData {before : List Call} {bytes : List Byte} (stopped : Stopped before (.write .noData bytes)) :
      Ended .ok (before ++ [.write .noData bytes])
  | failed {before : List Call} {last : Call} (stopped : Stopped before last)
      (read : ∀ bytes, last ≠ .read .noData bytes) (write : ∀ bytes, last ≠ .write .noData bytes) :
      Ended last.status (before ++ [last])

theorem Underway.read_ended {calls : List Call} (h : Underway calls) {code : StatusCode} (failed : code ≠ .ok)
    (bytes : List Byte) : Ended (Recorded.loopResult code) (calls ++ [.read code bytes]) := by
  unfold Recorded.loopResult
  split
  · next noData =>
    subst noData
    exact .endOfStream h bytes
  · next other =>
    refine @Ended.failed calls (.read code bytes) ⟨h.fine, failed⟩ ?_ nofun
    intro _ same
    cases same
    contradiction

theorem Underway.write_ended {calls : List Call} (h : Underway calls) {code : StatusCode} (failed : code ≠ .ok)
    (bytes : List Byte) : Ended (Recorded.loopResult code) (calls ++ [.read .ok bytes, .write code bytes]) := by
  have fine : ∀ c ∈ calls ++ [.read .ok bytes], c.status = .ok := by
    intro c member
    rcases List.mem_append.mp member with early | late
    · exact h.fine c early
    · cases List.mem_singleton.mp late
      rfl
  have snoc : calls ++ [.read .ok bytes, .write code bytes] = (calls ++ [.read .ok bytes]) ++ [.write code bytes] := by
    simp
  rw [snoc]
  unfold Recorded.loopResult
  split
  · next noData =>
    subst noData
    exact .writerNoData ⟨fine, failed⟩
  · next other =>
    refine @Ended.failed _ (.write code bytes) ⟨fine, failed⟩ nofun ?_
    intro _ same
    cases same
    contradiction

/-- **The loop ends** in one of these ways. -/
theorem loop_ended {fuel : Nat} {r r' : Recorded ρ ω} {code : StatusCode} (h : Underway r.calls)
    (ends : run (Recorded.body R W) fuel r = some (code, r')) : Ended code r'.calls := by
  induction fuel generalizing r with
  | zero => cases ends
  | succ fuel ih =>
    rcases Recorded.body_cases R W r with ⟨bytes, r'', step, calls⟩ | ⟨code', bytes, r'', failed, step, calls⟩ |
      ⟨code', bytes, r'', failed, step, calls⟩
    · rw [run, step] at ends
      apply ih _ ends
      rw [calls]
      exact h.chunk bytes
    · rw [run, step] at ends
      cases ends
      rw [calls]
      exact h.read_ended failed bytes
    · rw [run, step] at ends
      cases ends
      rw [calls]
      exact h.write_ended failed bytes

/-- **`transceive()` ends** in one of these ways. -/
theorem transceive_ended {t : StreamTransceiver ρ ω} {fuel : Nat} {code : StatusCode} {r : Recorded ρ ω}
    (ends : Recorded.transceive R W ⟨t, []⟩ fuel = some (code, r)) : Ended code r.calls := by
  rcases Recorded.transceive_cases R W ⟨t, []⟩ fuel with ⟨r', loop, calls⟩ | ⟨code', r', failed, stops, calls⟩ |
    ⟨code', r', failed, stops, calls⟩
  · rw [loop] at ends
    apply loop_ended R W _ ends
    rw [calls]
    exact ⟨rfl, by simp [Call.status], rfl⟩
  · rw [stops] at ends
    cases ends
    rw [calls]
    exact @Ended.failed [] (.readerBegin code) ⟨nofun, failed⟩ nofun nofun
  · rw [stops] at ends
    cases ends
    rw [calls]
    exact @Ended.failed [.readerBegin .ok] (.writerBegin code) ⟨by simp [Call.status], failed⟩ nofun nofun

theorem Stopped.no_write {before : List Call} {last : Call} (h : Stopped before last)
    (other : ∀ bytes, last ≠ .write .noData bytes) : ∀ bytes, Call.write .noData bytes ∉ before ++ [last] := by
  intro bytes member
  rcases List.mem_append.mp member with early | late
  · exact absurd (h.fine _ early) (by simp [Call.status])
  · exact other bytes (List.mem_singleton.mp late).symm

theorem Ended.faithful_iff {code : StatusCode} {calls : List Call} (h : Ended code calls) :
    Faithful code calls ↔ ∀ bytes, Call.write .noData bytes ∉ calls := by
  cases h with
  | endOfStream underway bytes =>
    have stopped : Stopped _ (.read .noData bytes) := ⟨underway.fine, by simp [Call.status]⟩
    exact iff_of_true (underway.faithful bytes) (stopped.no_write nofun)
  | @writerNoData before bytes stopped =>
    rw [stopped.faithful_iff nofun]
    exact iff_of_false (by simp [Call.status]) fun none => none bytes (by simp)
  | failed stopped read write =>
    rw [stopped.faithful_iff read]
    exact iff_of_true rfl (stopped.no_write write)

/-- **A transfer is faithful** if no write returned `NoData`, and only then. -/
theorem transceive_faithful_iff {t t' : StreamTransceiver ρ ω} {fuel : Nat} {code : StatusCode}
    (ends : t.transceive R W fuel = some (code, t')) :
    Faithful code (calls R W t fuel) ↔ ∀ bytes, Call.write .noData bytes ∉ calls R W t fuel := by
  have follows := Recorded.transceive_follows R W ⟨t, []⟩ fuel
  rw [ends] at follows
  obtain ⟨⟨code', r⟩, recorded, same⟩ := Option.map_eq_some_iff.mp follows.symm
  cases same
  unfold calls
  rw [recorded]
  exact (transceive_ended R W recorded).faithful_iff

/-! ## A transfer that is cut off -/

/-- Reads the chunks of a list. -/
def listReader : StreamReader (List (List Byte)) where
  begin_ chunks := (.ok, chunks)
  end_ chunks := (.ok, chunks)
  read _
    | [] => ((.noData, []), [])
    | chunk :: chunks => ((.ok, chunk), chunks)

/-- Answers the writes with the statuses of a list, and with `OK` after its end. -/
def answeringWriter : StreamWriter (List StatusCode) where
  begin_ answers := (.ok, answers)
  end_ answers := (.ok, answers)
  write _
    | [] => (.ok, [])
    | code :: answers => (code, answers)

/-- Two chunks to a writer that answers so. -/
def twoChunks (answers : List StatusCode) : StreamTransceiver (List (List Byte)) (List StatusCode) :=
  .new [[1, 2], [3]] answers ⟨2, 2, Nat.le_refl 2⟩

theorem transceive_faithful_iff_two :
    Faithful .timeout (calls listReader answeringWriter (twoChunks [.ok, .timeout]) 3) ↔
      ∀ bytes, Call.write .noData bytes ∉ calls listReader answeringWriter (twoChunks [.ok, .timeout]) 3 :=
  have ends : (twoChunks [.ok, .timeout]).transceive listReader answeringWriter 3 =
      some (.timeout, ⟨[], [], ⟨0, 2, Nat.zero_le 2⟩⟩) := rfl
  transceive_faithful_iff listReader answeringWriter ends

/-- The second write returns `NoData`, and `transceive()` returns `OK` all the same. -/
theorem transceive_cuts_off : ∃ t', (twoChunks [.ok, .noData]).transceive listReader answeringWriter 3 = some (.ok, t') ∧
    ¬ Faithful .ok (calls listReader answeringWriter (twoChunks [.ok, .noData]) 3) := by
  refine ⟨⟨[], [], ⟨0, 2, Nat.zero_le 2⟩⟩, rfl, fun faithful => ?_⟩
  have written := (faithful.1.mp rfl).written .noData (by decide)
  cases written

end StreamTransceiver

end OcsComponents.Core
