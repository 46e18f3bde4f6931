import OcsComponents.Pipeline.WebGui

/-!
# Which file is served

A request is routed by its path, but the file under `/assets/` is that of the whole URI, and so
is its content type. So two requests for one path get the same file exactly if they do not get
it from there or have the same query.
-/

namespace OcsComponents.Pipeline
open Status OcsComponents.Core Http StreamTransceiver

/-- What `handle_file_` makes of a file name. -/
structure Resource where
  contentType : String
  filePath : String
  deriving DecidableEq, Repr

namespace WebGuiPipeline

def resource (filename : String) : Resource where
  contentType := parseContentType ("/web_gui" ++ filename)
  filePath := "/web_gui" ++ filename ++ ".gz"

/-- What it does with these. -/
def serve (g : WebGuiPipeline) (h : Httpd) (r : Resource) (fuel : Nat) : Option (StatusCode × List Emission) :=
  if g.valid = false then some (.invalidState, [])
  else if h.setType r.contentType = false then some (.error, [])
  else if h.setHdr "Content-Encoding" "gzip" = false then some (.error, [])
  else
    let transceiver := StreamTransceiver.new (.new (g.files r.filePath)) (.new h.chunkFailures) buffer
    (transceiver.transceive fileStreamReader chunkStreamWriter fuel).map fun (code, t) =>
      (code, (t.destroy fileStreamReader chunkStreamWriter).writer.emissions)

/-- The name of a file decides only about these two. -/
theorem handleFile_resource (g : WebGuiPipeline) (h : Httpd) (filename : String) (fuel : Nat) :
    g.handleFile h filename fuel = g.serve h (resource filename) fuel := rfl

/-- What the handlers pass to `handle_file_`, if they call it. -/
def selects : Endpoint → String → Option Resource
  | .root, _ => none
  | .dashboard, _ => some (resource "/index.html")
  | .assets, uri => some (resource uri)

theorem handle_selects (g : WebGuiPipeline) (h : Httpd) (fuel : Nat) (endpoint : Endpoint) (uri : String) :
    g.handle h fuel endpoint uri =
      match selects endpoint uri with
      | none => some (handleRoot h)
      | some r => g.serve h r fuel := by
  cases endpoint with
  | root => rfl
  | dashboard => exact g.handleFile_resource h "/index.html" fuel
  | assets => exact g.handleFile_resource h uri fuel

/-- The content type and the file of a GET request, where a file is served. -/
def requested (uriMatchFn : Option (String → String → Bool)) (uri : String) : Option Resource :=
  ((server uriMatchFn).find (parsePath uri)).bind fun endpoint => selects endpoint uri

/-- The URI from its first `?` on. -/
def query (uri : String) : String := .ofList (uri.toList.dropWhile (· ≠ '?'))

theorem path_query (uri : String) : parsePath uri ++ query uri = uri := by
  rw [← String.toList_inj, String.toList_append, parsePath, query, String.toList_ofList, String.toList_ofList,
    List.takeWhile_append_dropWhile]

theorem resource_injective {uri uri' : String} (same : resource uri = resource uri') : uri = uri' := by
  have file := congrArg (fun r => r.filePath.toList) same
  simp only [resource, String.toList_append] at file
  exact String.toList_inj.mp (List.append_cancel_left (List.append_cancel_right file))

/-- **Two requests for one path are served the same file exactly if** the path is not routed to
the assets, or the URIs have the same query. -/
theorem requested_same_iff (uriMatchFn : Option (String → String → Bool)) {uri uri' : String}
    (path : parsePath uri = parsePath uri') : requested uriMatchFn uri = requested uriMatchFn uri' ↔
      (server uriMatchFn).find (parsePath uri) ≠ some .assets ∨ query uri = query uri' := by
  have whole : query uri = query uri' ↔ uri = uri' := by
    constructor
    · intro same
      rw [← path_query uri, ← path_query uri', path, same]
    · rintro rfl
      rfl
  rw [whole, requested, requested, ← path]
  cases (server uriMatchFn).find (parsePath uri) with
  | none => exact iff_of_true rfl (.inl nofun)
  | some endpoint =>
    cases endpoint with
    | root => exact iff_of_true rfl (.inl nofun)
    | dashboard => exact iff_of_true rfl (.inl nofun)
    | assets =>
      rw [or_iff_right (not_not.mpr rfl)]
      constructor
      · exact fun same => resource_injective (Option.some.inj same)
      · rintro rfl
        rfl

/-- `httpd_uri_match_wildcard`, for the templates here. -/
def uriMatchWildcard (template path : String) : Bool :=
  match template.toList.reverse with
  | '*' :: start => start.reverse.isPrefixOf path.toList
  | _ => template == path

/-- A page and the same one with a query. -/
theorem requested_same_iff_dashboard :
    requested (some uriMatchWildcard) "/dashboard" = requested (some uriMatchWildcard) "/dashboard?tab=1" ↔
      (server (some uriMatchWildcard)).find (parsePath "/dashboard") ≠ some .assets ∨
        query "/dashboard" = query "/dashboard?tab=1" :=
  requested_same_iff (some uriMatchWildcard) (by decide)

/-- A script and the same one with a version. -/
theorem requested_differs : parsePath "/assets/app.js" = parsePath "/assets/app.js?v=1" ∧
    requested (some uriMatchWildcard) "/assets/app.js" ≠ requested (some uriMatchWildcard) "/assets/app.js?v=1" := by
  refine ⟨by decide, fun same => ?_⟩
  have files := congrArg (Option.map Resource.filePath) same
  exact absurd files (by decide)

end WebGuiPipeline

end OcsComponents.Pipeline
