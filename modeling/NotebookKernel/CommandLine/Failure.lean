import NotebookKernel.Settings
import NotebookKernel.Text.Lines

/-!
# Failures

Why a command ends without success, and the report of it: what failed, then its causes, the
outermost first.
-/

set_option autoImplicit false

namespace NotebookKernel.CommandLine

inductive Failure where
  | settings (fault : SettingsFault)
  /-- A file could not be read, for this cause. -/
  | unreadable (path cause : String)
  | inputNotText
  | noChunkAt (line : Nat) (path : String)
  | noChunks (path : String)
  | chunkFence (line : Nat)
  | operation (fault : Fault)
  /-- The evaluation of the chunk that starts at a line failed. -/
  | chunkFailed (startLine : Nat) (fault : Fault)
deriving DecidableEq, Repr

namespace Failure

def faultChain (fault : Fault) : List String :=
  fault.message :: fault.source?.toList

def chain : Failure → List String
  | settings fault => fault.chain
  | unreadable path cause => ["Failed to read " ++ path, cause]
  | inputNotText => ["Failed to read code from stdin", notTextDetail]
  | noChunkAt line path => ["No R chunk encloses line " ++ toString line ++ " of " ++ path]
  | noChunks path => ["No R chunks in " ++ path]
  | chunkFence line => ["Line " ++ toString line ++ " is a chunk fence"]
  | operation fault => faultChain fault
  | chunkFailed startLine fault =>
    ("Chunk at line " ++ toString startLine ++ " failed") :: faultChain fault

end Failure

def indentRest (indent text : String) : String :=
  String.ofList (text.toList.flatMap fun c => if c = '\n' then c :: indent.toList else [c])

def causeNumber (number : Nat) : String :=
  let digits := toString number
  String.ofList (List.replicate (5 - digits.length) ' ') ++ digits ++ ": "

def causeText : List String → String
  | [] => ""
  | [cause] => "\n\nCaused by:\n    " ++ indentRest "    " cause
  | causes =>
    "\n\nCaused by:" ++ String.join (causes.zipIdx.map fun (cause, number) =>
      "\n" ++ causeNumber number ++ indentRest "       " cause)

def Failure.report (failure : Failure) : String :=
  match failure.chain with
  | [] => "Error: "
  | message :: causes => "Error: " ++ message ++ causeText causes

end NotebookKernel.CommandLine
