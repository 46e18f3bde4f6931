import OcsComponents.Core.StreamTransceiver

/-!
# Reading a file as a stream

`ocs_core/file_stream_reader.{h,cpp}` over the C stream it uses. A stream flags the end
of the file only when a read has asked for more bytes than there were left; a read that
gets just the last byte does not.
-/

namespace OcsComponents.Core
open Status

/-- An open `FILE`: what it reads, where it is, and its two flags. -/
structure File where
  content : List Byte
  pos : Nat
  eof : Bool
  error : Bool

namespace File

/-- `fopen`: at the start, without flags. -/
def open_ (content : List Byte) : File := ⟨content, 0, false, false⟩

/-- `fread(data, 1, size, file)`; `failure` tells after how many bytes it fails, if it does. -/
def fread (f : File) (size : Nat) (failure : Option Nat) : List Byte × File :=
  match failure with
  | none =>
    let bytes := (f.content.drop f.pos).take size
    (bytes, { f with pos := f.pos + bytes.length, eof := f.eof || decide (bytes.length < size) })
  | some n =>
    let bytes := ((f.content.drop f.pos).take size).take n
    (bytes, { f with pos := f.pos + bytes.length, error := true })

end File

/-- What the file system does: the file at the path, if there is one, which reads of it
fail, and whether it can be closed. -/
structure FileSystem where
  path : Option (List Byte)
  failures : Nat → Option Nat
  closes : Bool

/-- `FileStreamReader`: the open stream, how often it was read, and whether
`configASSERT(file_)` has failed. -/
structure FileStreamReader where
  system : FileSystem
  file : Option File
  reads : Nat
  asserted : Bool

namespace FileStreamReader

def new (system : FileSystem) : FileStreamReader := ⟨system, none, 0, false⟩

/-- `begin()`; it does not open an open file again. -/
def begin_ (r : FileStreamReader) : StatusCode × FileStreamReader :=
  match r.file with
  | some _ => (.ok, r)
  | none =>
    match r.system.path with
    | some content => (.ok, { r with file := some (.open_ content) })
    | none => (.error, r)

/-- `end()`; the stream is gone whether or not it could be closed. -/
def end_ (r : FileStreamReader) : StatusCode × FileStreamReader :=
  (if r.file.isSome ∧ ¬ r.system.closes then .error else .ok, { r with file := none })

/-- `read()`. -/
def read (size : Nat) (r : FileStreamReader) : (StatusCode × List Byte) × FileStreamReader :=
  match r.file with
  | none => ((.error, []), { r with asserted := true })
  | some file =>
    if file.eof then ((.noData, []), r)
    else
      let (bytes, file) := file.fread size (r.system.failures r.reads)
      let r := { r with file := some file, reads := r.reads + 1 }
      if bytes.length < size ∧ file.error then ((.error, bytes), r) else ((.ok, bytes), r)

end FileStreamReader

def fileStreamReader : StreamReader FileStreamReader where
  begin_ := FileStreamReader.begin_
  end_ := FileStreamReader.end_
  read := FileStreamReader.read

end OcsComponents.Core
