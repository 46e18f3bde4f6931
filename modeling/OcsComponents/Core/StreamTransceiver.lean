import OcsComponents.Lib.WhileLoop
import OcsComponents.Status.Code

/-!
# The stream transceiver

`ocs_core/stream_transceiver.{h,cpp}` over the interfaces of `istream_reader.h` and
`istream_writer.h`: read into the buffer, write what was read, until one side does not
return `OK`. `NoData` is the regular end, from either side.
-/

namespace OcsComponents.Core
open Status

/-- `uint8_t` -/
abbrev Byte := BitVec 8

/-- `IStreamReader` on a state `ρ`. `read` is given the size asked for, and returns
the bytes stored with its status. -/
structure StreamReader (ρ : Type) where
  begin_ : ρ → StatusCode × ρ
  end_ : ρ → StatusCode × ρ
  read : Nat → ρ → (StatusCode × List Byte) × ρ

/-- `IStreamWriter` on a state `ω`. -/
structure StreamWriter (ω : Type) where
  begin_ : ω → StatusCode × ω
  end_ : ω → StatusCode × ω
  write : List Byte → ω → StatusCode × ω

/-- `StreamTransceiver::Buffer`, a vector by its two sizes. -/
structure Buffer where
  size : Nat
  capacity : Nat
  room : size ≤ capacity

namespace Buffer

/-- The copy of a vector has room for its elements and no more, whatever the
capacity of the original. -/
def copy (b : Buffer) : Buffer := ⟨b.size, b.size, Nat.le_refl _⟩

/-- `clear()` keeps the capacity. -/
def clear (b : Buffer) : Buffer := ⟨0, b.capacity, Nat.zero_le _⟩

end Buffer

structure StreamTransceiver (ρ ω : Type) where
  reader : ρ
  writer : ω
  buffer : Buffer

namespace StreamTransceiver

variable {ρ ω : Type} (R : StreamReader ρ) (W : StreamWriter ω)

/-- The constructor: `buffer_` is a copy of the buffer it is given. -/
def new (reader : ρ) (writer : ω) (buffer : Buffer) : StreamTransceiver ρ ω := ⟨reader, writer, buffer.copy⟩

/-- One iteration of `transceive`, labelled by the chunk it passes on. -/
def transceiveBody (t : StreamTransceiver ρ ω) :
    (StatusCode × StreamTransceiver ρ ω) ⊕ (List Byte × StreamTransceiver ρ ω) :=
  let t := { t with buffer := t.buffer.clear }
  match R.read t.buffer.capacity t.reader with
  | ((.ok, bytes), reader) =>
    match W.write bytes t.writer with
    | (.ok, writer) => .inr (bytes, { t with reader, writer })
    | (.noData, writer) => .inl (.ok, { t with reader, writer })
    | (code, writer) => .inl (code, { t with reader, writer })
  | ((.noData, _), reader) => .inl (.ok, { t with reader })
  | ((code, _), reader) => .inl (code, { t with reader })

/-- `transceive()`. -/
def transceive (t : StreamTransceiver ρ ω) (fuel : Nat) : Option (StatusCode × StreamTransceiver ρ ω) :=
  match R.begin_ t.reader with
  | (.ok, reader) =>
    match W.begin_ t.writer with
    | (.ok, writer) => WhileLoop.run (transceiveBody R W) fuel { t with reader, writer }
    | (code, writer) => some (code, { t with reader, writer })
  | (code, reader) => some (code, { t with reader })

/-- The destructor ends both streams; their statuses are only logged. -/
def destroy (t : StreamTransceiver ρ ω) : StreamTransceiver ρ ω :=
  { t with reader := (R.end_ t.reader).2, writer := (W.end_ t.writer).2 }

end StreamTransceiver

end OcsComponents.Core
