import NotebookKernel.Call.Phase
import NotebookKernel.Decimal.Shortest

/-!
# Faults

The ways in which an operation fails, by cause, and the text that reports each. Where the host or a
text format has a diagnosis of its own, the report holds a mark in its place.
-/

set_option autoImplicit false

namespace NotebookKernel

/-- A span of time in whole seconds and nanoseconds. -/
structure Duration where
  seconds : Nat
  nanoseconds : Nat
deriving DecidableEq, Repr, Inhabited

namespace Duration

def ofMillis (ms : Nat) : Duration :=
  ⟨ms / 1000, ms % 1000 * 1000000⟩

def ofParts (seconds nanoseconds : Nat) : Duration :=
  ⟨seconds + nanoseconds / 1000000000, nanoseconds % 1000000000⟩

/-- The span in seconds, as the double nearest to the sum of its two parts. -/
def text (d : Duration) : String :=
  Decimal.plainText (Binary64.addRank (Binary64.rankOfNat d.seconds)
    (Binary64.divRank (Binary64.rankOfNat d.nanoseconds) (Binary64.rankOfNat 1000000000)))

end Duration

/-- Stands for the host's own wording of a failure. -/
def hostDetail : String := "<os>"

/-- Stands for the diagnosis of a text that is not in the format it should be in. -/
def formatDetail : String := "<detail>"

/-- Why a process could not be started. -/
inductive StartFailure where
  | executableMissing
  /-- A word that it is handed holds a null character. -/
  | nullInWord
  | refusedByHost
  | other (text : String)
deriving DecidableEq, Repr

/-- What breaks the rules of a protocol. -/
inductive ProtocolFault where
  /-- A frame announces a body of this many bytes, which is too many. -/
  | oversized (size limit : Nat)
  /-- The outcome of a call is taken in a phase that has none. -/
  | notFinishable (phase : Phase)
  /-- The completion sentinel was seen and the output before it is gone. -/
  | outputMissing
  | payloadNotJson
  | payloadNotMessage
  | completionShape
  | signatureShape
  | other (text : String)
deriving DecidableEq, Repr

/-- Why a file could not be written or read. -/
inductive StorageFailure where
  | nameNotPlain
  | refusedByHost
  | other (text : String)
deriving DecidableEq, Repr

/-- The ways in which an operation fails. -/
inductive Fault where
  | processUnavailable (path : String) (reason : StartFailure)
  | protocolParse (cause : ProtocolFault)
  /-- The interpreter wrote this to its error stream. -/
  | evaluation (text : String)
  | artifactIo (path : String) (cause : StorageFailure)
  | environmentParse
  /-- The language server answered with an error. -/
  | server (code : Int) (text : String)
  /-- The answer will never come, for this reason. -/
  | abandoned (reason : String)
  | processExited
  | timeout (limit : Duration)
  | io (text : String)
deriving DecidableEq, Repr

def StartFailure.message : StartFailure → String
  | executableMissing => "executable not found"
  | nullInWord => "nul byte found in provided data"
  | refusedByHost => hostDetail
  | other text => text

def ProtocolFault.message : ProtocolFault → String
  | oversized size limit =>
    "Message size " ++ toString size ++ " exceeds maximum " ++ toString limit ++ " bytes"
  | notFinishable phase => "cannot finish a call in phase " ++ phase.name
  | outputMissing => "sentinel output missing"
  | payloadNotJson => "invalid JSON payload: " ++ formatDetail
  | payloadNotMessage => "invalid JSON-RPC payload: " ++ formatDetail
  | completionShape => "invalid completion result: " ++ formatDetail
  | signatureShape => "invalid signature help result: " ++ formatDetail
  | other text => text

def StorageFailure.message : StorageFailure → String
  | nameNotPlain => "artifact name must be a plain file name"
  | refusedByHost => hostDetail
  | other text => text

namespace Fault

def message : Fault → String
  | processUnavailable path reason =>
    "Process unavailable at " ++ path ++ ": " ++ reason.message
  | protocolParse cause => "Protocol parse error: " ++ cause.message
  | evaluation text => "Evaluation failed: " ++ text
  | artifactIo path cause => "Artifact I/O error for " ++ path ++ ": " ++ cause.message
  | environmentParse => "Environment snapshot parse error: " ++ formatDetail
  | server code text => "Server error " ++ toString code ++ ": " ++ text
  | abandoned reason => "Request abandoned: " ++ reason
  | processExited => "Process exited before the call completed"
  | timeout limit => "Timed out after " ++ limit.text ++ "s"
  | io text => "I/O error: " ++ text

/-- The message of the fault that this one was caused by, when it has such a cause. -/
def source? : Fault → Option String
  | artifactIo _ cause => some cause.message
  | environmentParse => some formatDetail
  | io text => some text
  | _ => none

def kind : Fault → String
  | processUnavailable .. => "ProcessUnavailable"
  | protocolParse _ => "ProtocolParse"
  | evaluation _ => "Evaluation"
  | artifactIo .. => "ArtifactIo"
  | environmentParse => "EnvironmentParse"
  | server .. => "Server"
  | abandoned _ => "Abandoned"
  | processExited => "ProcessExited"
  | timeout _ => "Timeout"
  | io _ => "Io"

end Fault

end NotebookKernel
