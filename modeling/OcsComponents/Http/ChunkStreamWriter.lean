import OcsComponents.Core.StreamTransceiver

/-!
# Writing a chunked response

`ocs_http/chunk_stream_writer.{h,cpp}`: every write is a call of
`httpd_resp_send_chunk`, and so is the end of the stream, with an empty chunk.
-/

namespace OcsComponents.Http
open Status OcsComponents.Core

/-- The chunks handed to `httpd_resp_send_chunk` so far, and which of these calls fail. -/
structure ChunkStreamWriter where
  chunks : List (List Byte)
  failures : Nat → Bool

namespace ChunkStreamWriter

def new (failures : Nat → Bool) : ChunkStreamWriter := ⟨[], failures⟩

/-- `send_`. -/
def send_ (chunk : List Byte) (w : ChunkStreamWriter) : StatusCode × ChunkStreamWriter :=
  (if w.failures w.chunks.length then .error else .ok, { w with chunks := w.chunks ++ [chunk] })

/-- `begin()`. -/
def begin_ (w : ChunkStreamWriter) : StatusCode × ChunkStreamWriter := (.ok, w)

/-- `end()`: an empty chunk signals that the response is complete. -/
def end_ (w : ChunkStreamWriter) : StatusCode × ChunkStreamWriter := w.send_ []

/-- `write()`. -/
def write (chunk : List Byte) (w : ChunkStreamWriter) : StatusCode × ChunkStreamWriter := w.send_ chunk

end ChunkStreamWriter

def chunkStreamWriter : StreamWriter ChunkStreamWriter where
  begin_ := ChunkStreamWriter.begin_
  end_ := ChunkStreamWriter.end_
  write := ChunkStreamWriter.write

end OcsComponents.Http
