import NotebookKernel.Call.Phase
import NotebookKernel.Fault
import NotebookKernel.Scanner
import NotebookKernel.Text.Blank

/-!
# Calls

One call to the interpreter gathers what the interpreter writes between the moment the program was
sent and the completion sentinel. Anything on the error stream makes the call fail with that text.
-/

set_option autoImplicit false

namespace NotebookKernel

/-- A call: its phase and what it has gathered from the two streams. -/
structure Call where
  phase : Phase
  stdout : Scanner
  stderr : Array UInt8

namespace Call

def new (sentinel : String) : Call :=
  ⟨.idle, .new sentinel, #[]⟩

def markSent (call : Call) : Call :=
  if call.phase = .idle then { call with phase := .accumulating } else call

def onStdout (call : Call) (chunk : Bytes) : Call :=
  match call with
  | ⟨.accumulating, stdout, stderr⟩ =>
    let stdout := stdout.push chunk
    ⟨if stdout.isFound then .sentinelFound else .accumulating, stdout, stderr⟩
  | call => call

/-- A chunk of the error stream. It counts from the sending of the program until the outcome is
taken. -/
def onStderr (call : Call) (chunk : Bytes) : Call :=
  match call with
  | ⟨.accumulating, stdout, stderr⟩ => ⟨.accumulating, stdout, stderr ++ chunk⟩
  | ⟨.sentinelFound, stdout, stderr⟩ => ⟨.sentinelFound, stdout, stderr ++ chunk⟩
  | call => call

def complaint (call : Call) : String :=
  String.ofList (Text.trim (Utf8.decodeLossy call.stderr.toList))

/-- Takes the outcome: the output before the sentinel, or the text of the error stream when there
is one. -/
def finish (call : Call) : Except Fault String × Call :=
  if call.phase ≠ .sentinelFound then
    (.error (.protocolParse (.notFinishable call.phase)), call)
  else
    let call := { call with phase := .parsed }
    if call.complaint.isEmpty then
      match call.stdout.take with
      | (some text, stdout) => (.ok text, { call with stdout })
      | (none, _) => (.error (.protocolParse .outputMissing), call)
    else (.error (.evaluation call.complaint), call)

end Call

end NotebookKernel
