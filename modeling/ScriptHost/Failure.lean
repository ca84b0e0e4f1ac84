import ScriptHost.Json.Reader
/-!
What can go wrong while a host runs scripts. A failure is a cause with the facts that belong to it;
`Failure.message` is its wording, and `Failure.sources` the wordings of the causes behind it.
-/

namespace ScriptHost

/-- The kind of an input or output error. -/
inductive IoKind where
  | addrInUse | addrNotAvailable | alreadyExists | argumentListTooLong | brokenPipe
  | connectionAborted | connectionRefused | connectionReset | crossesDevices | deadlock
  | directoryNotEmpty | executableFileBusy | fileTooLarge | filesystemLoop | hostUnreachable
  | inProgress | interrupted | invalidData | invalidFilename | invalidInput | isADirectory
  | networkDown | networkUnreachable | notADirectory | notConnected | notFound | notSeekable
  | other | outOfMemory | permissionDenied | quotaExceeded | readOnlyFilesystem | resourceBusy
  | staleNetworkFileHandle | storageFull | timedOut | tooManyLinks | uncategorized
  | unexpectedEof | unsupported | wouldBlock | writeZero
  deriving DecidableEq, Inhabited

/-- Every kind with its name and its description. -/
def IoKind.table : List (IoKind × String × String) :=
  [(.addrInUse, "AddrInUse", "address in use"),
   (.addrNotAvailable, "AddrNotAvailable", "address not available"),
   (.alreadyExists, "AlreadyExists", "entity already exists"),
   (.argumentListTooLong, "ArgumentListTooLong", "argument list too long"),
   (.brokenPipe, "BrokenPipe", "broken pipe"),
   (.connectionAborted, "ConnectionAborted", "connection aborted"),
   (.connectionRefused, "ConnectionRefused", "connection refused"),
   (.connectionReset, "ConnectionReset", "connection reset"),
   (.crossesDevices, "CrossesDevices", "cross-device link or rename"),
   (.deadlock, "Deadlock", "deadlock"),
   (.directoryNotEmpty, "DirectoryNotEmpty", "directory not empty"),
   (.executableFileBusy, "ExecutableFileBusy", "executable file busy"),
   (.fileTooLarge, "FileTooLarge", "file too large"),
   (.filesystemLoop, "FilesystemLoop", "filesystem loop or indirection limit (e.g. symlink loop)"),
   (.hostUnreachable, "HostUnreachable", "host unreachable"),
   (.inProgress, "InProgress", "in progress"),
   (.interrupted, "Interrupted", "operation interrupted"),
   (.invalidData, "InvalidData", "invalid data"),
   (.invalidFilename, "InvalidFilename", "invalid filename"),
   (.invalidInput, "InvalidInput", "invalid input parameter"),
   (.isADirectory, "IsADirectory", "is a directory"),
   (.networkDown, "NetworkDown", "network down"),
   (.networkUnreachable, "NetworkUnreachable", "network unreachable"),
   (.notADirectory, "NotADirectory", "not a directory"),
   (.notConnected, "NotConnected", "not connected"),
   (.notFound, "NotFound", "entity not found"),
   (.notSeekable, "NotSeekable", "seek on unseekable file"),
   (.other, "Other", "other error"),
   (.outOfMemory, "OutOfMemory", "out of memory"),
   (.permissionDenied, "PermissionDenied", "permission denied"),
   (.quotaExceeded, "QuotaExceeded", "quota exceeded"),
   (.readOnlyFilesystem, "ReadOnlyFilesystem", "read-only filesystem or storage medium"),
   (.resourceBusy, "ResourceBusy", "resource busy"),
   (.staleNetworkFileHandle, "StaleNetworkFileHandle", "stale network file handle"),
   (.storageFull, "StorageFull", "no storage space"),
   (.timedOut, "TimedOut", "timed out"),
   (.tooManyLinks, "TooManyLinks", "too many links"),
   (.uncategorized, "Uncategorized", "uncategorized error"),
   (.unexpectedEof, "UnexpectedEof", "unexpected end of file"),
   (.unsupported, "Unsupported", "unsupported"),
   (.wouldBlock, "WouldBlock", "operation would block"),
   (.writeZero, "WriteZero", "write zero")]

/-- The name of a kind. -/
def IoKind.name (k : IoKind) : String :=
  ((IoKind.table.find? (·.1 = k)).map (·.2.1)).getD ""

/-- The description of a kind. -/
def IoKind.description (k : IoKind) : String :=
  ((IoKind.table.find? (·.1 = k)).map (·.2.2)).getD ""

/-- The kind of a name. -/
def IoKind.ofName? (name : String) : Option IoKind :=
  (IoKind.table.find? (·.2.1 = name)).map (·.1)

/-- An input or output error: its kind, and its own wording if it has one. -/
structure IoFailure where
  kind : IoKind
  text : Option String := none
  deriving DecidableEq, Inhabited

/-- The wording of an input or output error. -/
def IoFailure.message (e : IoFailure) : String := e.text.getD e.kind.description

/-- What went wrong. -/
inductive Failure where
  /-- A start while running. -/
  | alreadyRunning
  /-- A stop while not running. -/
  | notRunning
  /-- The stop job did not run before the hard timeout. -/
  | shutdownTimeout
  /-- The work was given up, or its generation ended, before it had an outcome. -/
  | cancelled
  /-- The running script was aborted. -/
  | interrupted (reason : String)
  /-- A source text that is no script. -/
  | malformed (file : String) (line : Nat) (text : String)
  /-- The source transform refused its input. -/
  | transform (text : String)
  /-- An exception thrown by a script. -/
  | script (name text : String) (hasStack : Bool)
  /-- A specifier that leads to no readable file. -/
  | moduleNotFound (specifier requester : String) (cause : IoFailure)
  /-- A package manifest that cannot be read. -/
  | manifest (package : String) (cause : Json.Refusal)
  /-- A module that requires itself through its dependencies. -/
  | requireLoop (key : String)
  /-- A require with the wrong arguments. -/
  | invalidRequire (text : String)
  /-- A promise rejected with a value that reads like an error. -/
  | rejected (text : String)
  /-- A promise rejected with something that is no error. -/
  | nonErrorRejection (value typeName : String)
  /-- A failure of the script engine. -/
  | engine (text : String)
  /-- A broken invariant or a panic. -/
  | internal (text : String)
  /-- An input or output error outside of module resolution. -/
  | io (cause : IoFailure)
  deriving DecidableEq, Inhabited

namespace Failure

/-- The wording of a failure. -/
def message : Failure → String
  | .alreadyRunning => "already started"
  | .notRunning => "not started"
  | .shutdownTimeout => "timed out waiting to stop"
  | .cancelled => "execution cancelled"
  | .interrupted reason => "execution interrupted: " ++ reason
  | .malformed file line text => s!"SyntaxError: {text} ({file}:{line})"
  | .transform text => "transform failed: " ++ text
  | .script name text _ => name ++ ": " ++ text
  | .moduleNotFound specifier requester cause =>
    s!"unable to require {specifier} from {requester}: {cause.message}"
  | .manifest package cause => s!"unable to read package.json for {package}: {cause.message}"
  | .requireLoop key => s!"loop detected, {key} is already being required"
  | .invalidRequire text => text
  | .rejected text => text
  | .nonErrorRejection value typeName =>
    s!"received non-Error from rejected Promise: {value} {typeName}"
  | .engine text => "engine error: " ++ text
  | .internal text => "internal error: " ++ text
  | .io cause => "io error: " ++ cause.message

/-- The work did not complete, which is not the same as having failed. -/
def isCancelled : Failure → Bool
  | .cancelled => true
  | _ => false

/-- The wordings of the causes behind a failure. -/
def sources : Failure → List String
  | .moduleNotFound _ _ cause => [cause.message]
  | .manifest _ cause => [cause.message]
  | .io cause => [cause.message]
  | _ => []

end Failure

end ScriptHost
