import OcsComponents.Http.Server
import OcsComponents.Pipeline.Transfer

/-!
# The web GUI

`ocs_pipeline/httpserver/web_gui_pipeline.{h,cpp}`: a redirect, and files as chunked
responses, with every failure that httpd and the file system allow. A request for a file
goes through three layers: the handler takes the status of the transfer, the transceiver
is destroyed and ends the response with an empty chunk whatever the status, and then the
server answers the status.
-/

namespace OcsComponents.Pipeline
open Status OcsComponents.Core Http WhileLoop Transition StreamTransceiver

/-- What the calls of httpd do for a request. -/
structure Httpd where
  setStatus : String → Bool
  setType : String → Bool
  setHdr : String → String → Bool
  send : Bool
  chunkFailures : Nat → Bool
  sendErr : Bool

/-- `parse_content_type`. -/
def parseContentType (filepath : String) : String :=
  if filepath.endsWith ".html" then "text/html"
  else if filepath.endsWith ".js" then "application/javascript"
  else if filepath.endsWith ".css" then "text/css"
  else if filepath.endsWith ".png" then "image/png"
  else if filepath.endsWith ".ico" then "image/x-icon"
  else if filepath.endsWith ".svg" then "text/xml"
  else "text/plain"

/-- The handlers that the constructor adds. -/
inductive Endpoint where
  | root
  | dashboard
  | assets
  deriving DecidableEq, Repr

/-- `WebGuiPipeline`: whether the file system is there, and what it does for a path. -/
structure WebGuiPipeline where
  valid : Bool
  files : String → FileSystem

namespace WebGuiPipeline

/-- `buffer_` after `resize(buffer_size_)`. -/
def buffer : Buffer := ⟨1024, 1024, Nat.le_refl _⟩

/-- The endpoints on a server of their own. -/
def server (uriMatchFn : Option (String → String → Bool)) : Server Endpoint :=
  ⟨[("/", .root), ("/dashboard", .dashboard), ("/assets/*", .assets)], uriMatchFn⟩

/-- `handle_root_`. -/
def handleRoot (h : Httpd) : StatusCode × List Emission :=
  if h.setStatus "301 Moved Permanently" = false then (.error, [])
  else if h.setHdr "Location" "/dashboard" = false then (.error, [])
  else if h.send = false then (.error, [.response false])
  else (.ok, [.response true])

/-- `handle_file_`: the transceiver is destroyed when the status is known. -/
def handleFile (g : WebGuiPipeline) (h : Httpd) (filename : String) (fuel : Nat) :
    Option (StatusCode × List Emission) :=
  if g.valid = false then some (.invalidState, [])
  else
    let filePath := "/web_gui" ++ filename
    if h.setType (parseContentType filePath) = false then some (.error, [])
    else if h.setHdr "Content-Encoding" "gzip" = false then some (.error, [])
    else
      let filePath := filePath ++ ".gz"
      let transceiver := StreamTransceiver.new (.new (g.files filePath)) (.new h.chunkFailures) buffer
      (transceiver.transceive fileStreamReader chunkStreamWriter fuel).map fun (code, t) =>
        (code, (t.destroy fileStreamReader chunkStreamWriter).writer.emissions)

def handle (g : WebGuiPipeline) (h : Httpd) (fuel : Nat) : Endpoint → String → Option (StatusCode × List Emission)
  | .root, _ => some (handleRoot h)
  | .dashboard, _ => g.handleFile h "/index.html" fuel
  | .assets, uri => g.handleFile h uri fuel

/-- A request, by the endpoints of the web GUI. -/
def request (g : WebGuiPipeline) (uriMatchFn : Option (String → String → Bool)) (h : Httpd) (uri : String)
    (fuel : Nat) : Option Server.Reply :=
  (server uriMatchFn).handleRequestGet (g.handle h fuel) uri h.sendErr

end WebGuiPipeline

/-! ## Counting the responses -/

/-- What is sent for a file when the last chunk is the destructor's. -/
def sentAfter (failures : Nat → Bool) (content : List Byte) (n m : Nat) : List Emission :=
  (⟨blocks n content m ++ [[]], failures⟩ : ChunkStreamWriter).emissions

/-- A successful chunk that is empty. -/
def ending (failures : Nat → Bool) (k : Nat) : Nat := if failures k then 0 else 1

theorem completed_chunk (data : List Byte) (sent : Bool) :
    completed [.chunk data sent] = if data = [] ∧ sent = true then 1 else 0 := by
  cases data <;> cases sent <;> rfl

/-- The blocks before the last one are not empty. -/
theorem completed_blocks (failures : Nat → Bool) (content : List Byte) {n : Nat} (pos : 0 < n) :
    ∀ m, m ≤ content.length / n → completed (writerAfter failures content n m).emissions = 0 := by
  intro m
  induction m with
  | zero => exact fun _ => rfl
  | succ m ih =>
    intro le
    have floor := Nat.div_mul_le_self content.length n
    have full : (m + 1) * n ≤ content.length / n * n := Nat.mul_le_mul_right n le
    have nonempty : block n content m ≠ [] := by
      intro empty
      have := congrArg List.length empty
      rw [length_block, List.length_nil] at this
      rw [Nat.succ_mul] at full
      omega
    rw [writerAfter, blocks_succ, emissions_snoc, completed_append, completed_chunk, if_neg (fun both => nonempty both.1)]
    exact ih (by omega)

theorem completed_sentAfter (failures : Nat → Bool) (content : List Byte) (n m : Nat) :
    completed (sentAfter failures content n m) =
      completed (writerAfter failures content n m).emissions + ending failures m := by
  rw [sentAfter, emissions_snoc, completed_append, completed_chunk, length_blocks]
  cases fails : failures m <;> simp [ending, fails, writerAfter]

/-- The last block is empty when the buffer divides the length. -/
theorem completed_all (failures : Nat → Bool) (content : List Byte) {n : Nat} (pos : 0 < n) :
    completed (writerAfter failures content n (content.length / n + 1)).emissions =
      if n ∣ content.length ∧ failures (content.length / n) = false then 1 else 0 := by
  have empty : block n content (content.length / n) = [] ↔ n ∣ content.length := by
    rw [← List.length_eq_zero_iff, length_block, Nat.dvd_iff_mod_eq_zero]
    have := Nat.div_add_mod' content.length n
    have := Nat.mod_lt content.length pos
    omega
  rw [writerAfter, blocks_succ, emissions_snoc, completed_append, completed_chunk, length_blocks]
  have before := completed_blocks failures content pos _ (Nat.le_refl _)
  rw [writerAfter] at before
  simp [before, empty]

/-- An interrupted transfer has completed no response before the destructor's chunk. -/
theorem completed_interrupted {fs : FileSystem} {failures : Nat → Bool} {content : List Byte} {n k : Nat} (pos : 0 < n)
    (found : interruption fs content n failures = some k) :
    completed (writerAfter failures content n (if readFails fs content n k then k else k + 1)).emissions = 0 := by
  unfold interruption at found
  obtain ⟨stops, member, -⟩ := List.find?_range_eq_some.mp found
  have bound := List.mem_range.mp member
  cases read : readFails fs content n k with
  | true => exact completed_blocks failures content pos k (by omega)
  | false =>
    rw [read, Bool.false_or] at stops
    show completed (writerAfter failures content n (k + 1)).emissions = 0
    by_cases last : k = content.length / n
    · rw [last, completed_all failures content pos, ← last, stops]
      simp
    · exact completed_blocks failures content pos (k + 1) (by omega)

namespace WebGuiPipeline

/-- A status and what was sent before it go together. -/
def Matches (r : StatusCode × List Emission) : Prop :=
  (r.1 ≠ .ok → completed r.2 = 0) ∧ (r.1 = .ok → completed r.2 = 1)

/-- When a file request is answered once. If it is not set up, always. If there is no file, or the
transfer is interrupted, when the destructor's chunk cannot be sent. If the transfer goes
through, when that chunk is sent and the last block was not empty, or the other way round. -/
def FileCovered (g : WebGuiPipeline) (h : Httpd) (filename : String) : Prop :=
  g.valid = true → h.setType (parseContentType ("/web_gui" ++ filename)) = true →
    h.setHdr "Content-Encoding" "gzip" = true →
      let fs := g.files ("/web_gui" ++ filename ++ ".gz")
      match fs.path with
      | none => h.chunkFailures 0 = true
      | some content =>
        match interruption fs content 1024 h.chunkFailures with
        | some k => h.chunkFailures (if readFails fs content 1024 k then k else k + 1) = true
        | none => 1024 ∣ content.length ↔ h.chunkFailures (content.length / 1024 + 1) = true

/-- A request that is for no file is always answered once. -/
def Covered (g : WebGuiPipeline) (uriMatchFn : Option (String → String → Bool)) (h : Httpd) (uri : String) : Prop :=
  match (server uriMatchFn).find (parsePath uri) with
  | some .dashboard => g.FileCovered h "/index.html"
  | some .assets => g.FileCovered h uri
  | _ => True

/-- Without a file nothing is begun. -/
theorem transceive_missing {fs : FileSystem} (path : fs.path = none) (failures : Nat → Bool) (fuel : Nat) :
    (StreamTransceiver.new (.new fs) (.new failures) buffer).transceive fileStreamReader chunkStreamWriter fuel =
      some (.error, .new (.new fs) (.new failures) buffer) := by
  simp [transceive, StreamTransceiver.new, fileStreamReader, FileStreamReader.begin_, FileStreamReader.new, path]

/-- With a file the loop starts at its first byte. -/
theorem transceive_opened {fs : FileSystem} {content : List Byte} (path : fs.path = some content)
    (failures : Nat → Bool) (fuel : Nat) :
    (StreamTransceiver.new (.new fs) (.new failures) buffer).transceive fileStreamReader chunkStreamWriter fuel =
      WhileLoop.run fileBody fuel (transferAt fs content failures buffer.copy 0 false) := by
  have begun : fileStreamReader.begin_ (StreamTransceiver.new (FileStreamReader.new fs)
      (ChunkStreamWriter.new failures) buffer).reader = (.ok, readerBefore fs content 1024 0 false) := by
    simp [StreamTransceiver.new, fileStreamReader, FileStreamReader.begin_, FileStreamReader.new, path, readerBefore,
      File.open_, flagged]
  unfold transceive
  rw [begun]
  rfl

/-- The destructor sends one more chunk. -/
theorem completed_destroy {t : StreamTransceiver FileStreamReader ChunkStreamWriter} {failures : Nat → Bool}
    {content : List Byte} {n m : Nat} (writer : t.writer = writerAfter failures content n m) :
    completed (t.destroy fileStreamReader chunkStreamWriter).writer.emissions =
      completed (writerAfter failures content n m).emissions + ending failures m := by
  rw [← completed_sentAfter]
  show completed (⟨t.writer.chunks ++ [[]], t.writer.failures⟩ : ChunkStreamWriter).emissions = _
  rw [writer]
  rfl

/-- A transfer that goes through has sent its last block. -/
theorem sent_of_uninterrupted {fs : FileSystem} {failures : Nat → Bool} {content : List Byte} {n : Nat}
    (found : interruption fs content n failures = none) : failures (content.length / n) = false := by
  unfold interruption at found
  have clear := List.find?_range_eq_none.mp found (content.length / n) (by omega)
  rw [Bool.not_eq_true', Bool.or_eq_false_iff] at clear
  exact clear.2

/-- The transfer of a file, with the destructor's chunk. -/
theorem transceive_gives (fs : FileSystem) (failures : Nat → Bool) : ∃ r : StatusCode × List Emission,
    Gives (fun fuel => ((StreamTransceiver.new (.new fs) (.new failures) buffer).transceive fileStreamReader
      chunkStreamWriter fuel).map fun (code, t) => (code, (t.destroy fileStreamReader chunkStreamWriter).writer.emissions)) r ∧
    (Matches r ↔ match fs.path with
      | none => failures 0 = true
      | some content =>
        match interruption fs content 1024 failures with
        | some k => failures (if readFails fs content 1024 k then k else k + 1) = true
        | none => 1024 ∣ content.length ↔ failures (content.length / 1024 + 1) = true) := by
  cases path : fs.path with
  | none =>
    refine ⟨(.error, sentAfter failures [] 1024 0), ?_, ?_⟩
    · simp only [transceive_missing path]
      exact gives_const _
    · show (_ → _) ∧ (_ → _) ↔ _
      rw [completed_sentAfter, completed_blocks failures [] (by omega) 0 (by omega)]
      cases fails : failures 0 <;> simp [ending, fails]
  | some content =>
    obtain ⟨t, code, leaves, ends⟩ := transfer_leaves fs content failures buffer.copy (by decide)
    have gives := leaves.gives.map fun (code, t) =>
      (code, (t.destroy fileStreamReader chunkStreamWriter).writer.emissions)
    simp only [transceive_opened path]
    refine ⟨_, gives, ?_⟩
    have capacity : buffer.copy.capacity = 1024 := rfl
    rw [capacity] at ends
    show (code ≠ .ok → completed (t.destroy fileStreamReader chunkStreamWriter).writer.emissions = 0) ∧
      (code = .ok → completed (t.destroy fileStreamReader chunkStreamWriter).writer.emissions = 1) ↔ _
    cases found : interruption fs content 1024 failures with
    | some k =>
      rw [found] at ends
      obtain ⟨rfl, writer⟩ := ends
      rw [completed_destroy writer, completed_interrupted (by omega) found]
      simp [ending]
    | none =>
      rw [found] at ends
      obtain ⟨rfl, writer⟩ := ends
      rw [completed_destroy writer, completed_all failures content (by omega), sent_of_uninterrupted found]
      by_cases divides : 1024 ∣ content.length <;> cases fails : failures (content.length / 1024 + 1) <;>
        simp [ending, divides, fails]

/-- A file request ends, and is answered once when it is covered. -/
theorem handleFile_gives (g : WebGuiPipeline) (h : Httpd) (filename : String) :
    ∃ r, Gives (g.handleFile h filename) r ∧ (Matches r ↔ g.FileCovered h filename) := by
  have early : ∀ code : StatusCode, code ≠ .ok → (∀ fuel, g.handleFile h filename fuel = some (code, [])) →
      g.FileCovered h filename → ∃ r, Gives (g.handleFile h filename) r ∧ (Matches r ↔ g.FileCovered h filename) := by
    intro code failed ends covered
    refine ⟨(code, []), ?_, iff_of_true ⟨fun _ => rfl, fun good => absurd good failed⟩ covered⟩
    rw [show g.handleFile h filename = fun _ => some (code, []) from funext ends]
    exact gives_const _
  by_cases valid : g.valid = false
  · exact early .invalidState nofun (fun fuel => by rw [handleFile, if_pos valid]) fun on => by rw [valid] at on; cases on
  by_cases type : h.setType (parseContentType ("/web_gui" ++ filename)) = false
  · exact early .error nofun (fun fuel => by rw [handleFile, if_neg valid, if_pos type])
      fun _ on => by rw [type] at on; cases on
  by_cases hdr : h.setHdr "Content-Encoding" "gzip" = false
  · exact early .error nofun (fun fuel => by rw [handleFile, if_neg valid, if_neg type, if_pos hdr])
      fun _ _ on => by rw [hdr] at on; cases on
  obtain ⟨r, gives, matching⟩ := transceive_gives (g.files ("/web_gui" ++ filename ++ ".gz")) h.chunkFailures
  refine ⟨r, ?_, matching.trans ⟨fun covered _ _ _ => covered, fun covered => ?_⟩⟩
  · have same : g.handleFile h filename = fun fuel => _ := funext fun fuel => by
      rw [handleFile, if_neg valid, if_neg type, if_neg hdr]
    rw [same]
    exact gives
  · exact covered (by simpa using valid) (by simpa using type) (by simpa using hdr)

theorem handleRoot_matches (h : Httpd) : Matches (handleRoot h) := by
  unfold handleRoot Matches
  split
  · exact ⟨fun _ => rfl, nofun⟩
  · split
    · exact ⟨fun _ => rfl, nofun⟩
    · split
      · exact ⟨fun _ => rfl, nofun⟩
      · exact ⟨fun failed => absurd rfl failed, fun _ => rfl⟩

/-- The reply of the server to what a handler gives. -/
theorem request_gives {g : WebGuiPipeline} {uriMatchFn : Option (String → String → Bool)} {h : Httpd} {uri : String}
    {endpoint : Endpoint} (found : (server uriMatchFn).find (parsePath uri) = some endpoint)
    {r : StatusCode × List Emission} (gives : Gives (fun fuel => g.handle h fuel endpoint uri) r) :
    ∃ reply, Gives (g.request uriMatchFn h uri) reply ∧ (reply.Once ↔ Matches r) := by
  have replies := gives.map (Server.answer h.sendErr)
  have same : g.request uriMatchFn h uri = fun fuel => _ := funext fun fuel => by
    rw [request, Server.handleRequestGet, found]
  rw [same]
  exact ⟨_, replies, fun once => ⟨once.failed, once.answered⟩, fun (both : Matches r) => ⟨both.1, both.2⟩⟩

/-- **One response a request**: every request ends with one reply, whose responses are one
exactly when the request is covered. -/
theorem once_iff_covered (g : WebGuiPipeline) (uriMatchFn : Option (String → String → Bool)) (h : Httpd) (uri : String) :
    ∃ reply, Gives (g.request uriMatchFn h uri) reply ∧ (reply.Once ↔ g.Covered uriMatchFn h uri) := by
  unfold Covered
  cases found : (server uriMatchFn).find (parsePath uri) with
  | none =>
    refine ⟨Server.answer h.sendErr (.invalidArg, []), ?_, iff_of_true ⟨fun _ => rfl, nofun⟩ trivial⟩
    have same : g.request uriMatchFn h uri = fun fuel => _ := funext fun fuel => by
      rw [request, Server.handleRequestGet, found]
    rw [same]
    exact gives_const _
  | some endpoint =>
    cases endpoint with
    | root =>
      obtain ⟨reply, gives, once⟩ := request_gives found (gives_const (handleRoot h))
      exact ⟨reply, gives, once.trans (iff_of_true (handleRoot_matches h) trivial)⟩
    | dashboard =>
      obtain ⟨r, gives, matching⟩ := g.handleFile_gives h "/index.html"
      obtain ⟨reply, gives, once⟩ := request_gives found gives
      exact ⟨reply, gives, once.trans matching⟩
    | assets =>
      obtain ⟨r, gives, matching⟩ := g.handleFile_gives h uri
      obtain ⟨reply, gives, once⟩ := request_gives found gives
      exact ⟨reply, gives, once.trans matching⟩

/-- httpd with a working connection. -/
def connected : Httpd := ⟨fun _ => true, fun _ => true, fun _ _ => true, true, fun _ => false, true⟩

/-- The web GUI without its files. -/
def noFiles : WebGuiPipeline := ⟨true, fun _ => ⟨none, fun _ => none, true⟩⟩

/-- A missing file is answered with an empty 200 response, and then with an error. -/
theorem missing_file_answered_twice : ∃ reply, noFiles.request none connected "/dashboard" 0 = some reply ∧
    reply = ⟨.error, [.chunk [] true], some (.error .internalServerError "Error" true)⟩ ∧ ¬ reply.Once :=
  ⟨_, rfl, rfl, fun once => absurd (once.failed nofun) (by decide)⟩

end WebGuiPipeline

end OcsComponents.Pipeline
