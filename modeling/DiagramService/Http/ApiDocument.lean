import DiagramService.Json.Value

/-!
# The description of the interface

A document that describes the three operations on diagrams and the values that they exchange, in the
form that tools for such interfaces read.
-/

namespace DiagramService.Http.ApiDocument

/-- A reference to the description of a type. -/
def reference (type : String) : Json :=
  .object [("$ref", .text ("#/components/schemas/" ++ type))]

/-- The description of a value, after what it is for, if that is told. -/
def value (type : List (String × Json)) (purpose : Option String) : Json :=
  .object (type ++ (purpose.map fun text => ("description", Json.text text)).toList)

/-- A text. -/
def string : List (String × Json) :=
  [("type", .text "string")]

/-- A property of an object. -/
structure Property where
  name : String
  type : List (String × Json) := string
  purpose : Option String := none

/-- The description of an object all of whose properties are required. -/
def type (purpose : String) (properties : List Property) : Json :=
  .object
    [("type", .text "object"), ("description", .text purpose),
      ("required", .list (properties.map fun p => .text p.name)),
      ("properties", .object (properties.map fun p => (p.name, value p.type p.purpose)))]

/-- The types of the bodies. -/
def types : Json :=
  .object
    [("DiagramRequest", type "Request body shared by `/render` and `/save`"
        [{ name := "uml", purpose := some "PlantUML diagram source" }]),
      ("SaveResponse", type "Response from the /save endpoint"
        [{ name := "message" },
          { name := "pumlPath", purpose := some "Path of the stored diagram source" },
          { name := "pngPath", purpose := some "Path of the stored PNG image" }]),
      ("SavedDiagramInfo", type "A saved diagram record"
        [{ name := "id", type := [("type", .text "integer"), ("format", .text "int64")],
           purpose := some "Identity token shared by both files" },
          { name := "pumlPath" },
          { name := "pngPath" },
          { name := "hasImage", type := [("type", .text "boolean")],
            purpose := some "False if the image file has been removed externally" }])]

/-- A response with its status, purpose and content. -/
def response (status purpose : String) (content : List (String × Json)) : String × Json :=
  (status, .object (("description", .text purpose) :: content))

/-- JSON content of a type. -/
def jsonContent (schema : Json) : List (String × Json) :=
  [("content", .object [("application/json", .object [("schema", schema)])])]

/-- The body of the requests with a diagram. -/
def requestBody : Json :=
  .object (jsonContent (reference "DiagramRequest") ++ [("required", .bool true)])

/-- An operation under its method. -/
def operation (method summary : String) (description : Option String) (id : String)
    (body : Option Json) (responses : List (String × Json)) : Json :=
  .object
    [(method, .object
      ([("tags", .list [.text "Diagrams"]), ("summary", .text summary)] ++
        (description.map fun text => ("description", Json.text text)).toList ++
        [("operationId", .text id)] ++ (body.map fun b => ("requestBody", b)).toList ++
        [("responses", .object responses)]))]

/-- The operations by their paths. -/
def operations : Json :=
  .object
    [("/render",
        operation "post" "Render a diagram to PNG"
          (some ("The source is rendered in a private scratch directory, so concurrent\n" ++
            "requests never see each other's output. Nothing is kept after the response."))
          "handle_render" (some requestBody)
          [response "200" "PNG image" [("content", .object [("image/png", .object [])])],
            response "400" "Empty diagram text" [],
            response "500"
              "Renderer failed, could not be started, timed out or wrote no image" []]),
      ("/save",
        operation "post" "Render a diagram and keep source and image in the save directory"
          (some ("Each call creates a new `diagram_<id>.puml` / `diagram_<id>.png` pair.\n" ++
            "Existing records are never overwritten."))
          "handle_save" (some requestBody)
          [response "200" "Diagram saved" (jsonContent (reference "SaveResponse")),
            response "400" "Empty diagram text" [],
            response "500" "Rendering failed, nothing was saved" []]),
      ("/api/diagrams",
        operation "get" "List saved diagrams, newest first" none "handle_list_diagrams" none
          [response "200" "Saved diagrams"
              (jsonContent
                (.object [("type", .text "array"), ("items", reference "SavedDiagramInfo")])),
            response "500" "Save directory could not be read" []])]

/-- The whole document. -/
def document : Json :=
  .object
    [("openapi", .text "3.1.0"),
      ("info", .object
        [("title", .text "umlserve API"),
          ("description", .text "Render PlantUML diagrams to PNG and keep saved copies"),
          ("license", .object [("name", .text "MIT")]), ("version", .text "0.1.0")]),
      ("paths", operations), ("components", .object [("schemas", types)]),
      ("tags", .list [.object
        [("name", .text "Diagrams"), ("description", .text "Diagram rendering and storage")]])]

end DiagramService.Http.ApiDocument
