import DiagramService.Http.Route
import DiagramService.Render.Rendering
import DiagramService.Store.Save

/-!
# The service

The service has a configuration, a store for the diagrams that it saves, and the disk that it works
on. It answers one request after another here; how requests that come at the same time are mixed is
said in `Running`.
-/

namespace DiagramService

/-- The service between two requests. -/
structure Service where
  config : Config
  store : Store
  disk : Disk

/-- What the answer to a request depends on besides the service. -/
structure Setting where
  renderer : Renderer
  /-- The endings of the names that are drawn for a scratch directory. -/
  endings : List (List Char)
  /-- What the clock shows, each time it is looked at. -/
  clock : Nat → Int

namespace Service

/-- What is said when the save directory cannot be made. -/
def noSaveDir (dir : Path) (cause : IoError) : String :=
  "Failed to create save directory " ++ dir.toString ++ ": " ++ cause.message

/-- Starts the service, for which the save directory is made. -/
def start (config : Config) (d : Disk) : Except String Service × Disk :=
  match d.makeDirs config.saveDir with
  | (.ok (), d) => (.ok ⟨config, .open_ config.saveDir, d⟩, d)
  | (.error e, d) => (.error (noSaveDir config.saveDir e), d)

/-- Renders a text. -/
def render (s : Service) (e : Setting) (text : String) : Except RenderError Bytes × Service :=
  let rendering : Rendering := ⟨s.config.renderer, s.config.workDir, text⟩
  let r := rendering.perform e.renderer e.endings s.disk (e.clock 0)
  (r.1, { s with disk := r.2 })

/-- Saves a text. -/
def save (s : Service) (e : Setting) (text : String) : Except RenderError SavedDiagram × Service :=
  let save : Save := ⟨s.config.renderer, text⟩
  let r := save.perform e.renderer s.store s.disk e.clock
  (r.1, { s with store := r.2.1, disk := r.2.2 })

/-- The saved diagrams. -/
def list (s : Service) : Except IoError (List SavedEntry) :=
  Listing.perform s.store s.disk

/-- Does what a request asks for. -/
def act (s : Service) (e : Setting) (request : Http.Request) : Http.Action → Http.Response × Service
  | .reply response => (response, s)
  | .render text =>
    let r := s.render e text
    (.ofRender r.1, r.2)
  | .save text =>
    let r := s.save e text
    (.ofSave r.1, r.2)
  | .list => (.ofList s.list, s)
  | .file path => (Http.StaticFile.serve s.disk s.store.dir request path, s)

/-- Answers a request. -/
def handle (s : Service) (e : Setting) (request : Http.Request) : Http.Response × Service :=
  let r := s.act e request (.ofRequest request)
  (r.1.finished request, r.2)

end Service

end DiagramService
