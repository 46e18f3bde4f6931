import OcsComponents.Http.Server
import OcsComponents.Pipeline.JsonFmt

/-!
# The endpoints and tasks that send JSON

`DataHandler`, `SystemStateHandler` and `ConsoleTask`. Each of them makes an object, formats into
it, prints it into a buffer of its own and sends the buffer, and leaves at the first status that is
not `OK`; the `unique_ptr` deletes the object either way. All of them share the heap of cJSON.
-/

namespace OcsComponents.Pipeline
open Status Fmt Http

variable {δ : Type}

/-- Make an object, `formatter_.format`, `json_formatter_->format`, and delete the object. -/
def printDocument (p : Printer δ) (formatter : Formatter δ) (h : Heap) (d : DynamicFormatter) :
    StatusCode × Heap × DynamicFormatter :=
  match h.make with
  | (false, h) => (.noMem, h, d)
  | (true, h) =>
    let (code, json, h) := formatter .nil h
    if code ≠ .ok then (code, h.delete (.item none .object json), d)
    else
      let (code, d) := d.format p json
      (code, h.delete (.item none .object json), d)

/-- What `httpd_resp_set_type`, `httpd_resp_send` and `httpd_resp_send_err` do for a request. -/
structure JsonHttpd where
  setType : Bool
  send : Bool
  sendErr : Bool

/-- Send the text of the buffer. -/
def JsonHttpd.sendText (http : JsonHttpd) : StatusCode × List Emission :=
  if http.setType = false then (.error, [])
  else if http.send = false then (.error, [.response false])
  else (.ok, [.response true])

/-- The handler that `DataHandler` adds: its fanout has `formatter` and `json_formatter_`. -/
def DataHandler.handle (p : Printer δ) (http : JsonHttpd) (formatter : Formatter δ) (h : Heap) (d : DynamicFormatter) :
    (StatusCode × List Emission) × Heap × DynamicFormatter :=
  let (code, h, d) := printDocument p formatter h d
  (if code ≠ .ok then (code, []) else http.sendText, h, d)

/-- The handler that `SystemStateHandler` adds. -/
def SystemStateHandler.handle (p : Printer δ) (http : JsonHttpd) (state : Formatter δ) (h : Heap)
    (d : DynamicFormatter) : (StatusCode × List Emission) × Heap × DynamicFormatter :=
  let (code, h, d) := printDocument p state h d
  (if code ≠ .ok then (code, []) else http.sendText, h, d)

/-- `ConsoleTask::run`, with what it logs. -/
def ConsoleTask.run (p : Printer δ) (formatter : Formatter δ) (h : Heap) (d : DynamicFormatter) :
    (StatusCode × List String) × Heap × DynamicFormatter :=
  let (code, h, d) := printDocument p formatter h d
  ((code, if code ≠ .ok then [] else [d.text]), h, d)

/-! ## A device -/

/-- What is formatted for both the endpoints and the console, with the values read for it. -/
inductive Data (δ : Type) where
  | telemetry (system : List (String × Value δ)) (added : List (Document δ))
  | registration (values : List (String × String)) (added : List (Document δ))

namespace Data

def formatter : Data δ → Formatter δ
  | telemetry system added => TelemetryFormatter.format (addMembers system) (added.map (·.format))
  | registration values added => RegistrationFormatter.format values (added.map (·.format))

def document : Data δ → Document δ
  | telemetry system added => telemetryDocument system added
  | registration values added => registrationDocument values added

theorem formatter_eq (d : Data δ) : d.formatter = d.document.format := by
  cases d with
  | telemetry system added => exact telemetryFormatter_eq system added
  | registration values added => exact registrationFormatter_eq values added

end Data

/-- A request for a document, or a run of one of the tasks of `ConsolePipeline`. -/
inductive Request (δ : Type) where
  | data (http : JsonHttpd) (d : Data δ)
  | report (http : JsonHttpd) (config : TaskConfig) (totalTime : Nat) (states : List (TaskStatus δ))
  | console (d : Data δ)

/-- The endpoints and tasks that have a `DynamicFormatter`. -/
inductive Output where
  | httpTelemetry
  | httpRegistration
  | httpReport
  | consoleTelemetry
  | consoleRegistration
  deriving DecidableEq, Repr

namespace Request

def output : Request δ → Output
  | data _ (.telemetry ..) => .httpTelemetry
  | data _ (.registration ..) => .httpRegistration
  | report .. => .httpReport
  | console (.telemetry ..) => .consoleTelemetry
  | console (.registration ..) => .consoleRegistration

def document (double : Int → δ) : Request δ → Document δ
  | data _ d => d.document
  | report _ config totalTime states => systemStateDocument double config totalTime states
  | console d => d.document

end Request

/-- The reply of the server, or what a task returns and logs. -/
inductive Answer where
  | reply (r : Server.Reply)
  | logged (code : StatusCode) (lines : List String)

/-- What came of a request: the heap before and after it, and the buffer when it was answered. -/
structure Served (δ : Type) where
  request : Request δ
  before : Heap
  after : Heap
  buffer : DynamicFormatter
  answer : Answer

/-- The heap of cJSON, the buffers, and what has been served so far. -/
structure JsonDevice (δ : Type) where
  heap : Heap
  buffers : Output → DynamicFormatter
  served : List (Served δ)

namespace JsonDevice

/-- With buffers of these sizes. -/
def new (failures : Nat → Bool) (sizes : Output → Nat) : JsonDevice δ :=
  ⟨⟨0, 0, failures⟩, fun output => ⟨sizes output, ""⟩, []⟩

/-- A request has been answered. -/
def serve (s : JsonDevice δ) (r : Request δ) (heap : Heap) (buffer : DynamicFormatter) (answer : Answer) :
    JsonDevice δ :=
  ⟨heap, fun output => if output = r.output then buffer else s.buffers output,
    s.served ++ [⟨r, s.heap, heap, buffer, answer⟩]⟩

def exec (double : Int → δ) (p : Printer δ) (s : JsonDevice δ) (r : Request δ) : JsonDevice δ :=
  match r with
  | .data http d =>
    let (result, h, buffer) := DataHandler.handle p http d.formatter s.heap (s.buffers r.output)
    s.serve r h buffer (.reply (Server.answer http.sendErr result))
  | .report http config totalTime states =>
    let (result, h, buffer) := SystemStateHandler.handle p http
      (SystemStateFormatter.format double config totalTime states) s.heap (s.buffers r.output)
    s.serve r h buffer (.reply (Server.answer http.sendErr result))
  | .console d =>
    let ((code, lines), h, buffer) := ConsoleTask.run p d.formatter s.heap (s.buffers r.output)
    s.serve r h buffer (.logged code lines)

/-- The requests in turn. -/
def run (double : Int → δ) (p : Printer δ) (s : JsonDevice δ) (requests : List (Request δ)) : JsonDevice δ :=
  requests.foldl (exec double p) s

end JsonDevice

/-! ## What is served -/

section
variable (p : Printer δ)

/-- What `printDocument` leaves of the heap `h`. -/
structure Printed (d : Document δ) (h : Heap) (b : DynamicFormatter) (r : StatusCode × Heap × DynamicFormatter) :
    Prop where
  live : r.2.1.live = h.live
  failures : r.2.1.failures = h.failures
  ok_iff : r.1 = .ok ↔ h.Clean r.2.1 ∧ d.reads = true ∧ (p.print d.items b.size).isSome
  text : r.1 = .ok → p.print d.items b.size = some r.2.2.text
  size : r.2.2.size = b.size

theorem printed (d : Document δ) (h : Heap) (b : DynamicFormatter) :
    Printed p d h b (printDocument p d.format h b) := by
  obtain ⟨format, items, reads, formats, completes, needs⟩ := d
  unfold printDocument Heap.make
  cases makes : h.failures h.calls with
  | true =>
    exact {
      live := rfl
      failures := rfl
      ok_iff := by
        refine iff_of_false (by simp) ?_
        rintro ⟨clean, -⟩
        rw [clean h.calls (Nat.le_refl _) (Nat.lt_succ_self _)] at makes
        cases makes
      text := by simp
      size := rfl }
  | false =>
    obtain ⟨written, outcome⟩ := formats .nil h.made
    have completes' := fun reads => completes reads .nil h.made
    have needs' := needs .nil h.made
    rcases run : format .nil h.made with ⟨code, json, h'⟩
    simp only [Bool.false_eq_true, if_false, run]
    rw [run] at outcome completes' needs'
    have same : json = written := outcome.items
    have balance : (h'.delete (.item none (.object : Value δ) json)).live = h.live := by
      have live : h'.live = h.live + 1 + written.size := outcome.live
      have size : ((Items.item none (.object : Value δ) json).size : Int) = 1 + written.size := by rw [same]; rfl
      simp only [Heap.delete, size, live]
      omega
    have clean_iff : h.Clean h' ↔ h.made.Clean h' :=
      ⟨fun clean => clean.mono (Nat.le_succ _) (Nat.le_refl _) rfl,
        fun clean => (Heap.Clean.call rfl makes).trans clean rfl⟩
    by_cases ok : code = .ok
    · have whole : json = items := same.trans (outcome.whole ok)
      have good : h.Clean h' ∧ reads = true := ⟨clean_iff.mpr (outcome.clean ok), needs' ok⟩
      simp only [ok, ne_eq, not_true, if_false, DynamicFormatter.format, whole]
      rw [whole] at balance
      cases fits : p.print items b.size with
      | none =>
        exact {
          live := balance
          failures := outcome.failures
          ok_iff := by simp [fits]
          text := by simp
          size := rfl }
      | some text =>
        exact {
          live := balance
          failures := outcome.failures
          ok_iff := iff_of_true rfl ⟨good.1, good.2, by rw [fits]; rfl⟩
          text := fun _ => fits
          size := rfl }
    · simp only [ne_eq, ok, not_false_eq_true, if_true]
      exact {
        live := balance
        failures := outcome.failures
        ok_iff := iff_of_false ok fun both => ok (completes' both.2.1 (clean_iff.mp both.1))
        text := fun ok' => absurd ok' ok
        size := rfl }

end

/-! ## Every run -/

/-- Whether httpd takes the text, if it is for httpd. -/
def Request.Taken : Request δ → Prop
  | data http _ => http.setType = true ∧ http.send = true
  | report http _ _ _ => http.setType = true ∧ http.send = true
  | console _ => True

/-- No call of cJSON failed for a request, what the formatters read was there, the text fits and is taken. -/
structure Served.Succeeds (double : Int → δ) (p : Printer δ) (x : Served δ) : Prop where
  clean : x.before.Clean x.after
  reads : (x.request.document double).reads = true
  fits : (p.print (x.request.document double).items x.buffer.size).isSome
  taken : x.request.Taken

/-- A request is answered once, with the text of the whole document or with an error, and leaves nothing
behind on the heap. -/
structure Served.Sound (double : Int → δ) (p : Printer δ) (x : Served δ) : Prop where
  balance : x.after.live = x.before.live
  answer : match x.answer with
    | .reply r => r.Once ∧ (r.error.isSome ↔ r.code ≠ .ok) ∧ (r.code = .ok ↔ x.Succeeds double p)
    | .logged code lines => lines = (if code = .ok then [x.buffer.text] else []) ∧ (code = .ok ↔ x.Succeeds double p)
  text : x.Succeeds double p → p.print (x.request.document double).items x.buffer.size = some x.buffer.text

theorem sendText_cases (http : JsonHttpd) :
    http.sendText = (.ok, [.response true]) ∧ http.setType = true ∧ http.send = true ∨
      http.sendText.1 = .error ∧ completed http.sendText.2 = 0 ∧ ¬ (http.setType = true ∧ http.send = true) := by
  obtain ⟨setType, send, sendErr⟩ := http
  cases setType <;> cases send <;> decide +revert

/-- The answer to a text that has been printed or not. -/
theorem once_sendText (http : JsonHttpd) (code : StatusCode) :
    let r := Server.answer http.sendErr (if code ≠ .ok then (code, []) else http.sendText)
    r.Once ∧ (r.error.isSome ↔ r.code ≠ .ok) ∧
      (r.code = .ok ↔ code = .ok ∧ http.setType = true ∧ http.send = true) := by
  have error : ∀ r : StatusCode × List Emission, (Server.answer http.sendErr r).error.isSome ↔ r.1 ≠ .ok := by
    intro r
    unfold Server.answer
    split <;> simp_all
  dsimp only
  by_cases ok : code = .ok
  · subst ok
    rw [if_neg (not_not_intro rfl)]
    rcases sendText_cases http with ⟨sent, type, send⟩ | ⟨failed, none, no⟩
    · rw [sent]
      exact ⟨⟨fun failed => absurd rfl failed, fun _ => rfl⟩, error _, iff_of_true rfl ⟨rfl, type, send⟩⟩
    · have not_ok : http.sendText.1 ≠ .ok := by rw [failed]; decide
      exact ⟨⟨fun _ => none, fun ok => absurd ok not_ok⟩, error _, iff_of_false not_ok fun h => no h.2⟩
  · rw [if_pos ok]
    exact ⟨⟨fun _ => rfl, fun ok' => absurd ok' ok⟩, error _, iff_of_false ok fun h => ok h.1⟩

section
variable {double : Int → δ} {p : Printer δ} {r : Request δ} {h h' : Heap} {b b' : DynamicFormatter} {code : StatusCode}

theorem Printed.succeeds_iff (printed : Printed p (r.document double) h b (code, h', b')) (answer : Answer) :
    Served.Succeeds double p ⟨r, h, h', b', answer⟩ ↔ code = .ok ∧ r.Taken := by
  have ok_iff := printed.ok_iff
  rw [← printed.size] at ok_iff
  constructor
  · exact fun x => ⟨ok_iff.mpr ⟨x.clean, x.reads, x.fits⟩, x.taken⟩
  · exact fun ⟨ok, taken⟩ => ⟨(ok_iff.mp ok).1, (ok_iff.mp ok).2.1, (ok_iff.mp ok).2.2, taken⟩

theorem Printed.text_of_succeeds (printed : Printed p (r.document double) h b (code, h', b')) {answer : Answer}
    (x : Served.Succeeds double p ⟨r, h, h', b', answer⟩) :
    p.print (r.document double).items b'.size = some b'.text := by
  rw [printed.size]
  exact printed.text ((printed.succeeds_iff answer).mp x).1

/-- What the server makes of a printed document. -/
theorem Printed.sound_reply (printed : Printed p (r.document double) h b (code, h', b')) (http : JsonHttpd)
    (taken : r.Taken ↔ http.setType = true ∧ http.send = true) :
    Served.Sound double p ⟨r, h, h', b',
      .reply (Server.answer http.sendErr (if code ≠ .ok then (code, []) else http.sendText))⟩ where
  balance := printed.live
  answer := by
    obtain ⟨once, error, ok_iff⟩ := once_sendText http code
    exact ⟨once, error, ok_iff.trans ((and_congr_right' taken.symm).trans (printed.succeeds_iff _).symm)⟩
  text := printed.text_of_succeeds

/-- What a task makes of it. -/
theorem Printed.sound_logged (printed : Printed p (r.document double) h b (code, h', b')) (taken : r.Taken) :
    Served.Sound double p ⟨r, h, h', b', .logged code (if code ≠ .ok then [] else [b'.text])⟩ where
  balance := printed.live
  answer := ⟨ite_not .., (and_iff_left taken).symm.trans (printed.succeeds_iff _).symm⟩
  text := printed.text_of_succeeds

end

section
variable (double : Int → δ) (p : Printer δ)

/-- What one request leaves: the heap as it was, the buffers at their sizes, and one more answer. -/
theorem exec_sound (s : JsonDevice δ) (r : Request δ) :
    ∃ x : Served δ, (s.exec double p r).served = s.served ++ [x] ∧ x.request = r ∧ x.Sound double p ∧
      x.buffer.size = (s.buffers r.output).size ∧ (s.exec double p r).heap.live = s.heap.live ∧
      ∀ output, ((s.exec double p r).buffers output).size = (s.buffers output).size := by
  have frame : ∀ (h : Heap) (b : DynamicFormatter) (answer : Answer), b.size = (s.buffers r.output).size →
      ∀ output, ((s.serve r h b answer).buffers output).size = (s.buffers output).size := by
    intro h b answer same output
    simp only [JsonDevice.serve]
    split
    · rename_i here
      rw [same, here]
    · rfl
  have printed := printed p (r.document double) s.heap (s.buffers r.output)
  cases r with
  | data http d =>
    simp only [JsonDevice.exec, DataHandler.handle, d.formatter_eq]
    exact ⟨_, rfl, rfl, printed.sound_reply http Iff.rfl, printed.size, printed.live, frame _ _ _ printed.size⟩
  | report http config totalTime states =>
    simp only [JsonDevice.exec, SystemStateHandler.handle, systemStateFormatter_eq]
    exact ⟨_, rfl, rfl, printed.sound_reply http Iff.rfl, printed.size, printed.live, frame _ _ _ printed.size⟩
  | console d =>
    simp only [JsonDevice.exec, ConsoleTask.run, d.formatter_eq]
    exact ⟨_, rfl, rfl, printed.sound_logged trivial, printed.size, printed.live, frame _ _ _ printed.size⟩

/-- Whatever is asked for and whatever fails, each request and each run of a task is answered, in turn and
once: with the text of its whole document in a buffer of its endpoint if and only if nothing failed, and
with an error and nothing before it otherwise. No item of cJSON outlives it. -/
theorem json_answered_whole (failures : Nat → Bool) (sizes : Output → Nat) (requests : List (Request δ)) :
    let s := (JsonDevice.new failures sizes).run double p requests
    s.heap.live = 0 ∧ s.served.map (·.request) = requests ∧
      ∀ x ∈ s.served, x.Sound double p ∧ x.buffer.size = sizes x.request.output := by
  suffices all : ∀ s₀ : JsonDevice δ, s₀.heap.live = 0 → (∀ output, (s₀.buffers output).size = sizes output) →
      (s₀.run double p requests).heap.live = 0 ∧
        ∃ served, (s₀.run double p requests).served = s₀.served ++ served ∧ served.map (·.request) = requests ∧
          ∀ x ∈ served, x.Sound double p ∧ x.buffer.size = sizes x.request.output by
    obtain ⟨live, served, same, asked, sound⟩ := all (.new failures sizes) rfl fun _ => rfl
    have same : ((JsonDevice.new failures sizes).run double p requests).served = served := same
    exact ⟨live, by rw [same, asked], by rw [same]; exact sound⟩
  induction requests with
  | nil => exact fun s₀ live _ => ⟨live, [], (List.append_nil _).symm, rfl, List.forall_mem_nil _⟩
  | cons r requests ih =>
    intro s₀ live sized
    obtain ⟨x, one, request, sound, size, balance, buffers⟩ := exec_sound double p s₀ r
    obtain ⟨live', served, rest, asked, sounds⟩ :=
      ih (s₀.exec double p r) (balance.trans live) fun output => (buffers output).trans (sized output)
    refine ⟨live', x :: served, ?_, ?_, ?_⟩
    · rw [JsonDevice.run, List.foldl_cons]
      exact rest.trans (by rw [one, List.append_assoc]; rfl)
    · rw [List.map_cons, asked, request]
    · exact List.forall_mem_cons.mpr ⟨⟨sound, by rw [size, sized, request]⟩, sounds⟩

end

end OcsComponents.Pipeline
