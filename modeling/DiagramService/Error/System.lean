import DiagramService.Text.Decimal

/-!
# Errors of the operating system

An operation on files or processes fails with a numbered error of the system, or with an error that
the program words itself. Only the kind of an error decides what happens next; its text is shown.
-/

namespace DiagramService

/-- The texts of the numbered errors, from zero on. -/
def systemErrorTexts : Array String :=
  #["Success", "Operation not permitted", "No such file or directory", "No such process",
    "Interrupted system call", "Input/output error", "No such device or address",
    "Argument list too long", "Exec format error", "Bad file descriptor", "No child processes",
    "Resource temporarily unavailable", "Cannot allocate memory", "Permission denied",
    "Bad address", "Block device required", "Device or resource busy", "File exists",
    "Invalid cross-device link", "No such device", "Not a directory", "Is a directory",
    "Invalid argument", "Too many open files in system", "Too many open files",
    "Inappropriate ioctl for device", "Text file busy", "File too large", "No space left on device",
    "Illegal seek", "Read-only file system", "Too many links", "Broken pipe",
    "Numerical argument out of domain", "Numerical result out of range",
    "Resource deadlock avoided", "File name too long", "No locks available",
    "Function not implemented", "Directory not empty", "Too many levels of symbolic links",
    "Unknown error 41", "No message of desired type", "Identifier removed",
    "Channel number out of range", "Level 2 not synchronized", "Level 3 halted", "Level 3 reset",
    "Link number out of range", "Protocol driver not attached", "No CSI structure available",
    "Level 2 halted", "Invalid exchange", "Invalid request descriptor", "Exchange full", "No anode",
    "Invalid request code", "Invalid slot", "Unknown error 58", "Bad font file format",
    "Device not a stream", "No data available", "Timer expired", "Out of streams resources",
    "Machine is not on the network", "Package not installed", "Object is remote",
    "Link has been severed", "Advertise error", "Srmount error", "Communication error on send",
    "Protocol error", "Multihop attempted", "RFS specific error", "Bad message",
    "Value too large for defined data type", "Name not unique on network",
    "File descriptor in bad state", "Remote address changed",
    "Can not access a needed shared library", "Accessing a corrupted shared library",
    ".lib section in a.out corrupted", "Attempting to link in too many shared libraries",
    "Cannot exec a shared library directly", "Invalid or incomplete multibyte or wide character",
    "Interrupted system call should be restarted", "Streams pipe error", "Too many users",
    "Socket operation on non-socket", "Destination address required", "Message too long",
    "Protocol wrong type for socket", "Protocol not available", "Protocol not supported",
    "Socket type not supported", "Operation not supported", "Protocol family not supported",
    "Address family not supported by protocol", "Address already in use",
    "Cannot assign requested address", "Network is down", "Network is unreachable",
    "Network dropped connection on reset", "Software caused connection abort",
    "Connection reset by peer", "No buffer space available",
    "Transport endpoint is already connected", "Transport endpoint is not connected",
    "Cannot send after transport endpoint shutdown", "Too many references: cannot splice",
    "Connection timed out", "Connection refused", "Host is down", "No route to host",
    "Operation already in progress", "Operation now in progress", "Stale file handle",
    "Structure needs cleaning", "Not a XENIX named type file", "No XENIX semaphores available",
    "Is a named type file", "Remote I/O error", "Disk quota exceeded", "No medium found",
    "Wrong medium type", "Operation canceled", "Required key not available", "Key has expired",
    "Key has been revoked", "Key was rejected by service", "Owner died", "State not recoverable",
    "Operation not possible due to RF-kill", "Memory page has hardware error"]

/-- The kinds of error that the service tells apart. -/
inductive ErrorKind where
  | notFound
  | permissionDenied
  | alreadyExists
  | other
deriving DecidableEq, Repr

/-- The text of an error of which only the kind is known. -/
def ErrorKind.message : ErrorKind → String
  | .notFound => "entity not found"
  | .permissionDenied => "permission denied"
  | .alreadyExists => "entity already exists"
  | .other => "other error"

/-- A failed operation on files or processes. -/
inductive IoError where
  /-- An error that the system reports by its number. -/
  | system (number : Int)
  /-- An error of which only the kind is known. -/
  | plain (kind : ErrorKind)
  /-- An error with a text of its own. -/
  | worded (kind : ErrorKind) (text : String)
deriving DecidableEq, Repr

namespace IoError

/-- Nothing has the name. -/
def notFound : IoError := .system 2

/-- The permission is missing. -/
def denied : IoError := .system 13

/-- Something has the name already. -/
def exists_ : IoError := .system 17

/-- A directory was needed. -/
def notDirectory : IoError := .system 20

/-- Something other than a directory was needed. -/
def isDirectory : IoError := .system 21

/-- The arguments do not fit the operation. -/
def invalid : IoError := .system 22

/-- The name is too long. -/
def nameTooLong : IoError := .system 36

/-- The directory has entries. -/
def notEmpty : IoError := .system 39

/-- Too many links lead to the name. -/
def tooManyLinks : IoError := .system 40

/-- A path holds the character zero. -/
def zeroInPath : IoError := .worded .other "file name contained an unexpected NUL byte"

/-- A program name or argument holds the character zero. -/
def zeroInArgument : IoError := .worded .other "nul byte found in provided data"

/-- A text file is not written in UTF-8. -/
def notText : IoError := .worded .other "stream did not contain valid UTF-8"

/-- The kind of an error. -/
def kind : IoError → ErrorKind
  | .system 2 => .notFound
  | .system 1 => .permissionDenied
  | .system 13 => .permissionDenied
  | .system 17 => .alreadyExists
  | .system _ => .other
  | .plain kind => kind
  | .worded kind _ => kind

/-- The text of a numbered error. -/
def systemText (number : Int) : String :=
  let unknown := "Unknown error " ++ Text.intText number
  if number < 0 then unknown else (systemErrorTexts[number.toNat]?).getD unknown

/-- The text of an error. -/
def message : IoError → String
  | .system number => systemText number ++ " (os error " ++ Text.intText number ++ ")"
  | .plain kind => kind.message
  | .worded _ text => text

end IoError

end DiagramService
