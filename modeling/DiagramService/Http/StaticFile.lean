import DiagramService.Disk.Operation
import DiagramService.Http.Date
import DiagramService.Http.Range

/-!
# Serving files

The files of a directory are served by their paths. Percent signs are decoded once, and then every
component has to be a name: a path that climbs up, or that is not text, leads nowhere. A directory
stands for the page `index.html` in it. A client may ask for a part of a file, and for the file only
if it has changed, or has not changed, since some time.
-/

namespace DiagramService.Http

namespace StaticFile

/-- The value of a hexadecimal digit. -/
def hexDigit? (c : Char) : Option Nat :=
  if c.isDigit then some (c.toNat - 48)
  else if 'a' ≤ c ∧ c ≤ 'f' then some (c.toNat - 87)
  else if 'A' ≤ c ∧ c ≤ 'F' then some (c.toNat - 55)
  else none

/-- The bytes of a text in which percent signs and two digits stand for bytes. -/
def percentDecode : List Char → Bytes
  | [] => []
  | '%' :: a :: b :: rest =>
    match hexDigit? a, hexDigit? b with
    | some m, some n => UInt8.ofNat (16 * m + n) :: percentDecode rest
    | _, _ => Utf8.encodeList ['%'] ++ percentDecode (a :: b :: rest)
  | c :: rest => Utf8.encodeList [c] ++ percentDecode rest

/-- The names that a path leads through, if it leads downwards only. -/
def namesOf? (components : List Component) : Option (List FileName) :=
  match components with
  | [] => some []
  | .normal name :: rest => (namesOf? rest).map (name :: ·)
  | .current :: rest => namesOf? rest
  | _ => none

/-- The path below a directory that a requested path stands for. -/
def resolve? (dir : Path) (requested : List Char) : Option Path := do
  let text ← Utf8.decode? (percentDecode (requested.dropWhile (· == '/')))
  let names ← namesOf? (Path.ofString text).components
  return names.foldl Path.join dir

/-- The media types of files by their extensions. -/
def mediaTypes : List (String × String) :=
  [("png", "image/png"), ("txt", "text/plain"), ("html", "text/html"), ("htm", "text/html"),
    ("json", "application/json"), ("svg", "image/svg+xml"), ("jpg", "image/jpeg"),
    ("jpeg", "image/jpeg"), ("gif", "image/gif"), ("css", "text/css"), ("js", "text/javascript"),
    ("mjs", "text/javascript"), ("pdf", "application/pdf"), ("xml", "text/xml"),
    ("csv", "text/csv"), ("md", "text/markdown"), ("webp", "image/webp"), ("ico", "image/x-icon"),
    ("bmp", "image/bmp"), ("wasm", "application/wasm"), ("zip", "application/zip"),
    ("gz", "application/gzip"), ("tar", "application/x-tar"), ("log", "text/plain"),
    ("ini", "text/plain"), ("conf", "text/plain"), ("yaml", "text/x-yaml"), ("yml", "text/x-yaml"),
    ("toml", "text/x-toml"), ("mp3", "audio/mpeg"), ("mp4", "video/mp4"), ("wav", "audio/wav"),
    ("tif", "image/tiff"), ("tiff", "image/tiff"), ("sh", "application/x-sh"),
    ("rtf", "text/rtf"), ("bin", "application/octet-stream")]

/-- The media type of the file at a path. -/
def mediaType (p : Path) : String :=
  match p.extension? with
  | some ext => (mediaTypes.lookup (lower (String.ofList ext))).getD "application/octet-stream"
  | none => "application/octet-stream"

/-- The second in which a file was last written. -/
def second (modified : Int) : Int :=
  modified / 1000

/-- The time that a header field of the request names. -/
def since? (request : Request) (name : String) : Option Int :=
  (((request.field? name).bind visible?).bind Date.ofText?).map Int.ofNat

/-- The response when a file is only wanted in another state, if that is so. -/
def conditional? (request : Request) (modified : Int) : Option Response :=
  if (since? request "if-unmodified-since").any (· < second modified) then some (.bare 412)
  else if (since? request "if-modified-since").any (second modified ≤ ·) then some (.bare 304)
  else none

/-- The response with a file or the part of it that is asked for. -/
def ofContent (request : Request) (p : Path) (content : Bytes) : Response :=
  let size := content.length
  let base :=
    ((Response.bare 200).adding "content-type" (mediaType p)).adding "accept-ranges" "bytes"
  let refusal :=
    { base with status := 416 }.adding "content-range" ("bytes */" ++ Text.natText size)
  match (request.field? "range").bind visible? with
  | none =>
    { base with body := content }.adding "content-length" (Text.natText size)
  | some range =>
    match ByteRange.allBounds? size range with
    | none => refusal
    | some [(first, last)] =>
      let part := (content.drop first).take (last - first + 1)
      let told := Text.natText first ++ "-" ++ Text.natText last ++ "/" ++ Text.natText size
      (({ base with status := 206, body := part }.adding "content-range" ("bytes " ++ told)).adding
        "content-length" (Text.natText part.length))
    | some _ => { refusal with body := Utf8.encode "Cannot serve multipart range requests" }

/-- The response with the file at a path. -/
def ofFile (d : Disk) (request : Request) (p : Path) : Response :=
  match d.find .follow p with
  | .ok (_, .file content modified) =>
    match conditional? request modified with
    | some response => response
    | none => ofContent request p content
  | _ => .bare 404

/-- The response to a request for a path below a directory. -/
def serve (d : Disk) (dir : Path) (request : Request) (requested : List Char) : Response :=
  if request.method != "GET" && request.method != "HEAD" then
    (Response.bare 405).adding "allow" "GET,HEAD"
  else
    match resolve? dir requested with
    | none => .bare 404
    | some p =>
      if !d.isDir p then ofFile d request p
      else if requested.getLast? == some '/' then ofFile d request (p.join "index.html".toList)
      else (Response.bare 307).adding "location" (String.ofList (requested ++ '/' :: request.query))

end StaticFile

end DiagramService.Http
