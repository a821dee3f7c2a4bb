import NotebookKernel.Fault
import NotebookKernel.Program

/-!
# Sessions

A session talks to one interpreter over three streams. What the interpreter prints waits in two
queues, one for its output and one for its complaints, until a turn reads it; what is written to
the interpreter is kept in order. A session is over when its output has ended, whatever happens on
the other two streams.
-/

set_option autoImplicit false

namespace NotebookKernel

/-- The streams between a session and its interpreter. -/
inductive Stream where
  | input
  | output
  | complaints
deriving DecidableEq, Repr

/-- Chunks that wait to be read, in the order of their arrival, and whether more can arrive. -/
structure Channel where
  queue : List Bytes
  isOpen : Bool
deriving DecidableEq, Repr

namespace Channel

def new : Channel :=
  ⟨[], true⟩

/-- A chunk arrives. A closed channel takes none, and an empty chunk is none. -/
def push (channel : Channel) (chunk : Bytes) : Channel :=
  if channel.isOpen && !chunk.isEmpty then { channel with queue := channel.queue ++ [chunk] }
  else channel

def close (channel : Channel) : Channel :=
  { channel with isOpen := false }

def waiting (channel : Channel) : Nat :=
  channel.queue.flatten.length

def clear (channel : Channel) : Channel :=
  { channel with queue := [] }

end Channel

/-- A session: the key it is known by, whether it has a child process to kill, what was written to
the interpreter, and what the interpreter printed. -/
structure Session where
  key : String
  hasChild : Bool
  inputOpen : Bool
  written : List Bytes
  output : Channel
  complaints : Channel
deriving DecidableEq, Repr

/-- What a turn sees of the interpreter. -/
inductive StreamEvent where
  | output (chunk : Bytes)
  | complaint (chunk : Bytes)
  /-- The output has ended. -/
  | closed
deriving DecidableEq, Repr

inductive Act where
  | print (chunk : Bytes)
  | complain (chunk : Bytes)
  | close (stream : Stream)
deriving DecidableEq, Repr

namespace Session

/-- A session over streams that are connected to an interpreter, which is a child or not. -/
def attach (key : String) (hasChild : Bool) : Session :=
  ⟨key, hasChild, true, [], .new, .new⟩

def isClosed (session : Session) : Bool :=
  !session.output.isOpen

def pending (session : Session) : Nat :=
  session.output.queue.length + session.complaints.queue.length

def observe (session : Session) : Act → Session
  | .print chunk => { session with output := session.output.push chunk }
  | .complain chunk => { session with complaints := session.complaints.push chunk }
  | .close .input => { session with inputOpen := false }
  | .close .output => { session with output := session.output.close }
  | .close .complaints => { session with complaints := session.complaints.close }

/-- Gives up the child process, if there is one, to be killed; whether there was one. -/
def kill (session : Session) : Bool × Session :=
  (session.hasChild, { session with hasChild := false })

/-- Writes to the interpreter, all or nothing. To write nothing always succeeds. -/
def write (session : Session) (chunk : Bytes) : Except Fault Unit × Session :=
  if chunk.isEmpty then (.ok (), session)
  else if session.inputOpen then
    (.ok (), { session with written := session.written ++ [chunk] })
  else (.error .processExited, session)

def writePreamble (session : Session) : Except Fault Unit × Session :=
  session.write (Utf8.ofString Program.preamble)

/-- Drops what arrived while nobody was listening; the number of bytes dropped. -/
def discardStale (session : Session) : Nat × Session :=
  (session.output.waiting + session.complaints.waiting,
    { session with output := session.output.clear, complaints := session.complaints.clear })

def nextComplaint (session : Session) : Option Bytes × Session :=
  match session.complaints.queue with
  | chunk :: queue =>
    (some chunk, { session with complaints := { session.complaints with queue } })
  | [] => (none, session)

/-- What a turn sees next: complaints before output, and the end after all output. `none` while
there is nothing to see. -/
def nextEvent (session : Session) : Option StreamEvent × Session :=
  match session.nextComplaint with
  | (some chunk, session) => (some (.complaint chunk), session)
  | (none, session) =>
    match session.output.queue with
    | chunk :: queue =>
      (some (.output chunk), { session with output := { session.output with queue } })
    | [] => (if session.isClosed then some .closed else none, session)

/-- What comes of the attempt to start an interpreter. -/
inductive Launch where
  /-- There is no such executable. -/
  | missing
  /-- A null character, which ends a word, stands inside one that it is handed. -/
  | garbled
  /-- The host would not run it. -/
  | refused
  /-- It closed its input before the preamble was written. -/
  | deaf
  | running
deriving DecidableEq, Repr

/-- A session with an interpreter of its own, which has been given the preamble. -/
def start (key executable : String) : Launch → Except Fault Session
  | .missing => .error (.processUnavailable executable .executableMissing)
  | .garbled => .error (.processUnavailable executable .nullInWord)
  | .refused => .error (.processUnavailable executable .refusedByHost)
  | .deaf => .error .processExited
  | .running =>
    match (attach key true).writePreamble with
    | (.ok (), session) => .ok session
    | (.error fault, _) => .error fault

end Session

end NotebookKernel
