import OcsComponents.Http.ChunkStreamWriter

/-!
# The HTTP server

`ocs_http/server.{h,cpp}`, a GET request: the endpoint of its path is run, and a status
other than `OK` is answered with an error response. What is sent for a request are
`Emission`s, the calls of httpd that put something on the wire; a call that fails completes
no response.
-/

namespace OcsComponents.Http
open Status OcsComponents.Core

/-- The codes of `httpd_err_code_t` in use. -/
inductive HttpCode where
  | badRequest
  | internalServerError
  deriving DecidableEq, Repr

/-- `status_code_to_http_code`. -/
def statusCodeToHttpCode : StatusCode → HttpCode
  | .invalidArg => .badRequest
  | _ => .internalServerError

/-- `httpd_resp_send_chunk`, `httpd_resp_send` and `httpd_resp_send_err`, each with its success. -/
inductive Emission where
  | chunk (data : List Byte) (sent : Bool)
  | response (sent : Bool)
  | error (code : HttpCode) (text : String) (sent : Bool)
  deriving DecidableEq, Repr

/-- An empty chunk ends a chunked response; the others are responses as a whole. -/
def Emission.completes : Emission → Bool
  | .chunk data sent => data.isEmpty && sent
  | .response sent => sent
  | .error _ _ sent => sent

/-- The number of complete responses. -/
def completed (es : List Emission) : Nat := es.countP Emission.completes

theorem completed_append (es es' : List Emission) : completed (es ++ es') = completed es + completed es' :=
  List.countP_append

/-- The calls of a chunk writer. -/
def ChunkStreamWriter.emissions (w : ChunkStreamWriter) : List Emission :=
  w.chunks.zipIdx.map fun (data, k) => .chunk data (!w.failures k)

theorem emissions_snoc (chunks : List (List Byte)) (data : List Byte) (failures : Nat → Bool) :
    (⟨chunks ++ [data], failures⟩ : ChunkStreamWriter).emissions =
      (⟨chunks, failures⟩ : ChunkStreamWriter).emissions ++ [.chunk data (!failures chunks.length)] := by
  simp [ChunkStreamWriter.emissions, List.zipIdx_append]

/-- `UriOps::parse_path`: the URI up to its query. -/
def parsePath (uri : String) : String := .ofList (uri.toList.takeWhile (· ≠ '?'))

/-- `Server`: the endpoints in the order they were added in, and `config_.uri_match_fn`. -/
structure Server (η : Type) where
  endpointsGet : List (String × η)
  uriMatchFn : Option (String → String → Bool)

namespace Server
variable {η : Type}

/-- The endpoint for a path. -/
def find (s : Server η) (path : String) : Option η :=
  let endpoint := s.endpointsGet.find? fun endpoint =>
    match s.uriMatchFn with
    | some uriMatch => uriMatch endpoint.1 path
    | none => endpoint.1 == path
  endpoint.map (·.2)

/-- A handled request: the status of its handler, what was sent by then, and the error response
of the server, if there is one. -/
structure Reply where
  code : StatusCode
  before : List Emission
  error : Option Emission
  deriving DecidableEq

/-- The error response to a status, if it can be sent. -/
def sendErr (errSent : Bool) (code : StatusCode) : Emission := .error (statusCodeToHttpCode code) (codeToStr code) errSent

/-- What the server does with a handler's status. -/
def answer (errSent : Bool) (r : StatusCode × List Emission) : Reply :=
  ⟨r.1, r.2, if r.1 ≠ .ok then some (sendErr errSent r.1) else none⟩

/-- `handle_request_get_`, where `run` is what a handler returns and sends. -/
def handleRequestGet (s : Server η) (run : η → String → Option (StatusCode × List Emission)) (uri : String)
    (errSent : Bool) : Option Reply :=
  match s.find (parsePath uri) with
  | none => some (answer errSent (.invalidArg, []))
  | some handler => (run handler uri).map (answer errSent)

/-- No complete response before an error response, and exactly one without it. -/
structure Reply.Once (r : Reply) : Prop where
  failed : r.code ≠ .ok → completed r.before = 0
  answered : r.code = .ok → completed r.before = 1

end Server

end OcsComponents.Http
