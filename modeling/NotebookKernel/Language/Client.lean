import NotebookKernel.Frame
import NotebookKernel.Language.Signature
import NotebookKernel.Position
import NotebookKernel.Rpc.Correlator
import NotebookKernel.Session

/-!
# Language client

The client speaks with a language server over two streams. It sends `initialize` at once and, when
that is answered, `initialized`. Callers run as tasks: a task that asks something is entered in the
table of the correlator, writes its message, and waits for the response; one that tells something
is over when its message is written. Tasks go on one step at a time (`advance`), in any order.
Messages of the server are dispatched frame by frame until its output ends or breaks, which rejects
everybody who still waits.
-/

set_option autoImplicit false

namespace NotebookKernel.Language

/-- How far the greeting has come. -/
inductive Handshake where
  /-- The request with this id waits for its response. -/
  | waiting (id : Nat)
  /-- The response is there and the notification is to be written. -/
  | answered
  | ready
  | failed (reason : String)

/-- What a caller makes of a result. -/
inductive Wish where
  | value
  | candidates
  | signatures

inductive Reply where
  | value (value : Json)
  | candidates (candidates : List Candidate)
  | signatures (signatures : List Signature)
  | nothing

inductive Stage where
  /-- Its message is to be written; a request has an id. -/
  | writing (id : Option Nat) (body : String)
  /-- It waits for the response to its request. -/
  | waiting (id : Nat)
  /-- It waits for the greeting. -/
  | greeting
  | settled (outcome : Except Fault Reply)
  /-- Its caller has gone away. -/
  | abandoned

structure Task where
  wish : Wish
  stage : Stage

/-- The client: the table of requests, the bodies of the messages written so far, what the server
sent and no frame has taken yet, whether the two streams are in use, the greeting, the limit of a
request, and the tasks by number. -/
structure Client where
  correlator : Rpc.Correlator
  inputOpen : Bool
  sent : List String
  buffer : Bytes
  reading : Bool
  handshake : Handshake
  limit : Option Duration
  tasks : List Task

def Wish.fulfil : Wish → Json → Except Fault Reply
  | value, result => .ok (.value result)
  | candidates, result => (Candidate.ofResult result).map .candidates
  | signatures, result => (Signature.ofResult result).map .signatures

def Reply.toJson : Reply → Json
  | .value json => json
  | .candidates list => .array (list.map Candidate.toJson)
  | .signatures list => .array (list.map Signature.toJson)
  | .nothing => .null

def Handshake.outcome? : Handshake → Option (Except Fault Reply)
  | .waiting _ | .answered => none
  | .ready => some (.ok .nothing)
  | .failed reason => some (.error (.abandoned reason))

def greetingParams (process : Nat) : Json :=
  .object [("capabilities", .object []), ("processId", .nat process), ("rootUri", .null)]

def documentMember (uri : String) : String × Json :=
  ("textDocument", .object [("uri", .string uri)])

def positionMember (position : Position) : String × Json :=
  ("position",
    .object [("character", .nat position.character), ("line", .nat position.line)])

def completionParams (uri : String) (position : Position) : Json :=
  .object [("context", .object [("triggerKind", .nat 1)]), positionMember position,
    documentMember uri]

def signatureParams (uri : String) (position : Position) : Json :=
  .object [positionMember position, documentMember uri]

def documentParams (uri text : String) : Json :=
  .object [("textDocument", .object [("languageId", .string "r"), ("text", .string text),
    ("uri", .string uri), ("version", .nat 1)])]

namespace Client

def write (client : Client) (body : String) : Except Fault Unit × Client :=
  if client.inputOpen then (.ok (), { client with sent := client.sent ++ [body] })
  else (.error .processExited, client)

def notificationBody (method : String) (params : Json) : String :=
  (Rpc.Notification.toJson ⟨Rpc.version, method, params⟩).render

def connect (process : Nat) (limit : Option Duration) (inputOpen : Bool) : Except Fault Client :=
  match Rpc.Correlator.new.request "initialize" (greetingParams process) with
  | (.error fault, _) => .error fault
  | (.ok request, correlator) =>
    let client : Client := ⟨correlator, inputOpen, [], [], true, .waiting request.id, limit, []⟩
    match client.write request.toJson.render with
    | (.ok (), client) => .ok client
    | (.error fault, _) => .error fault

def start (executable : String) (process : Nat) (limit : Option Duration) :
    Session.Launch → Except Fault Client
  | .missing => .error (.processUnavailable executable .executableMissing)
  | .garbled => .error (.processUnavailable executable .nullInWord)
  | .refused => .error (.processUnavailable executable .refusedByHost)
  | .deaf => connect process limit false
  | .running => connect process limit true

def addTask (client : Client) (wish : Wish) (stage : Stage) : Nat × Client :=
  (client.tasks.length, { client with tasks := client.tasks ++ [⟨wish, stage⟩] })

def setStage (client : Client) (number : Nat) (stage : Stage) : Client :=
  { client with tasks := client.tasks.modify number fun task => { task with stage } }

def ask (client : Client) (wish : Wish) (method : String) (params : Json) : Nat × Client :=
  match client.correlator.request method params with
  | (.error fault, correlator) => { client with correlator }.addTask wish (.settled (.error fault))
  | (.ok request, correlator) =>
    { client with correlator }.addTask wish (.writing (some request.id) request.toJson.render)

def completion (client : Client) (uri : String) (position : Position) : Nat × Client :=
  client.ask .candidates "textDocument/completion" (completionParams uri position)

def signatureHelp (client : Client) (uri : String) (position : Position) : Nat × Client :=
  client.ask .signatures "textDocument/signatureHelp" (signatureParams uri position)

def notify (client : Client) (method : String) (params : Json) : Nat × Client :=
  client.addTask .value (.writing none (notificationBody method params))

def didOpen (client : Client) (uri text : String) : Nat × Client :=
  client.notify "textDocument/didOpen" (documentParams uri text)

def waitReady (client : Client) : Nat × Client :=
  client.addTask .value .greeting

def cancel (client : Client) : Option Nat → Client
  | some id => { client with correlator := (client.correlator.cancel id).2 }
  | none => client

def writeFor (client : Client) (number : Nat) (id : Option Nat) (body : String) : Client :=
  match client.write body with
  | (.error fault, client) => (client.cancel id).setStage number (.settled (.error fault))
  | (.ok (), client) =>
    client.setStage number
      (match id with
      | some id => .waiting id
      | none => .settled (.ok .nothing))

def outcomeOf? (wish : Wish) : Rpc.Receipt → Option (Except Fault Reply)
  | .waiting => none
  | .answer (.ok message) => some (message.intoResult.bind wish.fulfil)
  | .answer (.error fault) => some (.error fault)
  | .unknown | .dropped | .closed => some (.error (.abandoned "response channel closed"))

def advance (client : Client) (number : Nat) : Client :=
  match client.tasks[number]? with
  | none => client
  | some task =>
    match task.stage with
    | .writing id body => client.writeFor number id body
    | .waiting id =>
      let (receipt, correlator) := client.correlator.receive id
      match outcomeOf? task.wish receipt with
      | none => client
      | some outcome => { client with correlator }.setStage number (.settled outcome)
    | .greeting =>
      match client.handshake.outcome? with
      | none => client
      | some outcome => client.setStage number (.settled outcome)
    | .settled _ | .abandoned => client

/-- The next step of the greeting, if it can take one. A response of any kind will do. -/
def advanceHandshake (client : Client) : Client :=
  match client.handshake with
  | .waiting id =>
    let (receipt, correlator) := client.correlator.receive id
    match receipt with
    | .waiting => client
    | .answer (.ok _) => { client with correlator, handshake := .answered }
    | .answer (.error fault) => { client with correlator, handshake := .failed fault.message }
    | .unknown | .dropped | .closed =>
      { client with handshake := .failed "initialize response dropped" }
  | .answered =>
    match client.write (notificationBody "initialized" (.object [])) with
    | (.ok (), client) => { client with handshake := .ready }
    | (.error fault, client) => { client with handshake := .failed fault.message }
  | .ready | .failed _ => client

/-- Lets the greeting and then every task go on as far as they can. -/
def settle (client : Client) : Client :=
  (List.range client.tasks.length).foldl (fun client number =>
    (client.advance number).advance number) client.advanceHandshake.advanceHandshake

def outcome? (client : Client) (number : Nat) : Option (Except Fault Reply) :=
  match client.tasks[number]? with
  | some ⟨_, .settled outcome⟩ => some outcome
  | _ => none

/-- Time is up for a task that waits for a response, if requests have a limit. -/
def expire (client : Client) (number : Nat) : Client :=
  match client.tasks[number]?, client.limit with
  | some ⟨_, .waiting id⟩, some limit =>
    (client.cancel (some id)).setStage number (.settled (.error (.timeout limit)))
  | _, _ => client

def abandon (client : Client) (number : Nat) : Client :=
  match client.tasks[number]? with
  | none | some ⟨_, .settled _⟩ => client
  | some ⟨_, .waiting id⟩ | some ⟨_, .writing (some id) _⟩ =>
    { client with correlator := (client.correlator.dropReceiver id).2 }.setStage number .abandoned
  | some _ => client.setStage number .abandoned

def endReading (client : Client) (reason : String) : Nat × Client :=
  let (rejected, correlator) := client.correlator.rejectAll reason
  (rejected, { client with correlator, reading := false })

def closeOutput (client : Client) : Client :=
  if client.reading then (client.endReading "language server output closed").2 else client

def closeInput (client : Client) : Client :=
  { client with inputOpen := false }

/-- Dispatches the bodies of frames in order; one that is no message is skipped. -/
def dispatchAll (correlator : Rpc.Correlator) (frames : List Frame) : Rpc.Correlator :=
  frames.foldl (fun correlator frame => (correlator.dispatchPayload frame.body).2) correlator

/-- Bytes of the server arrive. -/
def hear (client : Client) (chunk : Bytes) : Client :=
  if client.reading then
    let batch := Frame.decodeAll (client.buffer ++ chunk)
    let client := { client with
      correlator := dispatchAll client.correlator batch.frames
      buffer := batch.rest }
    if batch.oversized.isSome then client.closeOutput else client
  else client

def observe (client : Client) : Act → Client
  | .print chunk => client.hear chunk
  | .close .output => client.closeOutput
  | .close .input => client.closeInput
  | .complain _ | .close .complaints => client

def stop (client : Client) : Nat × Client :=
  client.endReading "language server stopped"

def shutdown (client : Client) : Nat × Client :=
  let (request, correlator) := client.correlator.requestWithoutHandler "shutdown" .null
  let client := { client with correlator }
  match client.write request.toJson.render with
  | (.ok (), client) => (client.write (notificationBody "exit" .null)).2.stop
  | (.error _, client) => client.stop

def pendingRequests (client : Client) : Nat :=
  client.correlator.pendingCount

end Client

end NotebookKernel.Language
