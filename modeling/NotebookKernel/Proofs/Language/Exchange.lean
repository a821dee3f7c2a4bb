import NotebookKernel.Language.Client

/-!
# A client in use

Any number of callers share a client, the greeting goes on beside them, and the server answers,
falls silent or goes away whenever it likes. Whoever writes a letter needs the pen, which one author
has at a time; the frame may leave in pieces, and whoever has begun to write does so to the end. The
operations of a client are therefore taken apart into moves, between which anything else may happen:
other authors' moves, frames of the server, the end of its output, and stops. The server may be
heard before the client has sent its first letter.
-/

set_option autoImplicit false

namespace NotebookKernel.Language

inductive Letter where
  | request (request : Rpc.Request)
  | notification (notification : Rpc.Notification)

namespace Letter

def text : Letter → String
  | request asked => asked.toJson.render
  | notification told => told.toJson.render

def id? : Letter → Option Nat
  | request asked => some asked.id
  | notification _ => none

def frame (letter : Letter) : Bytes :=
  Frame.encode letter.text

def opening (process : Nat) : Letter :=
  .request ⟨Rpc.version, 1, "initialize", greetingParams process⟩

def initialized : Letter :=
  .notification ⟨Rpc.version, "initialized", .object []⟩

def shutdown (id : Nat) : Letter :=
  .request ⟨Rpc.version, id, "shutdown", .null⟩

def exit : Letter :=
  .notification ⟨Rpc.version, "exit", .null⟩

def stage (letter : Letter) : Stage :=
  match letter.id? with
  | some id => .waiting id
  | none => .settled (.ok .nothing)

end Letter

/-- Who writes letters: the one who connects, the greeting when it was answered, a task, and a
shutdown, which writes two. -/
inductive Author where
  | opening
  | greeting
  | task (number : Nat)
  | shutdown (number : Nat)
  | exit (number : Nat)
deriving DecidableEq

/-- A letter that was written, with its author. -/
structure Entry where
  author : Author
  letter : Letter

/-- The author who writes, the letter, and how many bytes of its frame have left. -/
structure Pen where
  author : Author
  letter : Letter
  count : Nat

/-- How far connecting has come; the request is there as soon as it was entered in the table. -/
inductive Opening where
  | fresh
  | asking (request : Rpc.Request)
  | done (request : Rpc.Request)
  | failed (request? : Option Rpc.Request) (fault : Fault)

/-- What a task was begun for: a letter, a request that was refused, or the end of the greeting. -/
inductive Call where
  | send (letter : Letter)
  | refused
  | await

inductive PartingStage where
  | asking
  | leaving
  | stopping
  | ended (rejected : Nat)
  | forsaken
deriving DecidableEq

structure Parting where
  request : Rpc.Request
  stage : PartingStage

/-- A client in use: what each of its tasks was begun for, the shutdowns, who writes, the bytes that
have left, the letters that were written whole, and the messages of the server with what became of
them. -/
structure Exchange where
  client : Client
  opening : Opening
  calls : List Call
  partings : List Parting
  pen : Option Pen
  out : Bytes
  written : List Entry
  heard : List (Rpc.Message × Rpc.Dispatch)

/-- What happens to a client in use. -/
inductive Exchange.Move where
  /-- The first request of a client of the process with a number is entered in the table. -/
  | register (process : Nat)
  | ask (wish : Wish) (method : String) (params : Json)
  | tell (method : String) (params : Json)
  | await
  /-- A caller begins a shutdown. -/
  | part
  /-- An author who has a letter to write takes the pen. -/
  | take (author : Author)
  /-- So many more bytes leave. -/
  | put (count : Nat)
  /-- The frame has left, and the author goes on. -/
  | finish
  /-- The server does not listen any more, and the author goes on without having written. -/
  | refuse
  | greet
  | advance (number : Nat)
  | expire (number : Nat)
  | abandon (number : Nat)
  /-- The caller of a shutdown goes away. -/
  | forsake (number : Nat)
  /-- A shutdown stops the client. -/
  | halt (number : Nat)
  | stop
  /-- A frame of the server is dispatched. -/
  | hear (payload : Bytes)
  | closeOutput
  | closeInput

def Parting.proceed (parting : Parting) : Parting :=
  match parting.stage with
  | .asking => { parting with stage := .leaving }
  | .leaving => { parting with stage := .stopping }
  | _ => parting

def Parting.giveUp (parting : Parting) : Parting :=
  match parting.stage with
  | .asking | .leaving => { parting with stage := .stopping }
  | _ => parting

/-- A shutdown that has stopped the client, by which so many requests were rejected. -/
def Parting.halt (rejected : Nat) (parting : Parting) : Parting :=
  { parting with stage := .ended rejected }

def Parting.forsake (parting : Parting) : Parting :=
  match parting.stage with
  | .ended _ => parting
  | _ => { parting with stage := .forsaken }

namespace Opening

def request? : Opening → Option Rpc.Request
  | fresh => none
  | asking request | done request => some request
  | failed request? _ => request?

def proceed : Opening → Opening
  | asking request => done request
  | opening => opening

def giveUp : Opening → Opening
  | asking request => failed (some request) .processExited
  | opening => opening

end Opening

namespace Exchange

def new (limit : Option Duration) (inputOpen : Bool) : Exchange :=
  ⟨⟨.new, inputOpen, [], [], true, .waiting 1, limit, []⟩, .fresh, [], [], none, [], [], []⟩

def draft? (ex : Exchange) : Author → Option Letter
  | .opening =>
    match ex.opening with
    | .asking request => some (.request request)
    | _ => none
  | .greeting =>
    match ex.opening, ex.client.handshake with
    | .done _, .answered => some .initialized
    | _, _ => none
  | .task number =>
    match ex.client.tasks[number]?, ex.calls[number]? with
    | some ⟨_, .writing _ _⟩, some (.send letter) => some letter
    | _, _ => none
  | .shutdown number =>
    match ex.partings[number]? with
    | some ⟨request, .asking⟩ => some (.request request)
    | _ => none
  | .exit number =>
    match ex.partings[number]? with
    | some ⟨_, .leaving⟩ => some .exit
    | _ => none

def holds (ex : Exchange) (author : Author) : Bool :=
  ex.pen.any fun pen => pen.author == author

def proceed (ex : Exchange) (letter : Letter) : Author → Exchange
  | .opening => { ex with opening := ex.opening.proceed }
  | .greeting => { ex with client := { ex.client with handshake := .ready } }
  | .task number => { ex with client := ex.client.setStage number letter.stage }
  | .shutdown number | .exit number =>
    { ex with partings := ex.partings.modify number Parting.proceed }

def giveUp (ex : Exchange) (letter : Letter) : Author → Exchange
  | .opening =>
    { ex with client := ex.client.cancel letter.id?, opening := ex.opening.giveUp }
  | .greeting =>
    { ex with client := { ex.client with handshake := .failed Fault.processExited.message } }
  | .task number =>
    { ex with
      client := (ex.client.cancel letter.id?).setStage number (.settled (.error .processExited)) }
  | .shutdown number | .exit number =>
    { ex with partings := ex.partings.modify number Parting.giveUp }

def record (ex : Exchange) (author : Author) (letter : Letter) : Exchange :=
  { ex with
    client := { ex.client with sent := ex.client.sent ++ [letter.text] }
    pen := none
    written := ex.written ++ [⟨author, letter⟩] }

def take (ex : Exchange) (author : Author) : Exchange :=
  match ex.pen, ex.draft? author with
  | none, some letter => { ex with pen := some ⟨author, letter, 0⟩ }
  | _, _ => ex

def put (ex : Exchange) (count : Nat) : Exchange :=
  match ex.pen with
  | some pen =>
    if ex.client.inputOpen then
      let bytes := (pen.letter.frame.drop pen.count).take count
      { ex with
        out := ex.out ++ bytes
        pen := some { pen with count := pen.count + bytes.length } }
    else ex
  | none => ex

def finish (ex : Exchange) : Exchange :=
  match ex.pen with
  | some pen =>
    if pen.count = pen.letter.frame.length then
      (ex.record pen.author pen.letter).proceed pen.letter pen.author
    else ex
  | none => ex

def refuse (ex : Exchange) : Exchange :=
  match ex.pen with
  | some pen =>
    if pen.count = 0 ∧ ex.client.inputOpen = false then
      { ex with pen := none }.giveUp pen.letter pen.author
    else ex
  | none => ex

def register (ex : Exchange) (process : Nat) : Exchange :=
  match ex.client.correlator.request "initialize" (greetingParams process) with
  | (.ok request, correlator) =>
    { ex with
      client := { ex.client with correlator, handshake := .waiting request.id }
      opening := .asking request }
  | (.error fault, correlator) =>
    { ex with client := { ex.client with correlator }, opening := .failed none fault }

def callOf (ex : Exchange) (method : String) (params : Json) : Call :=
  match (ex.client.correlator.request method params).1 with
  | .ok request => .send (.request request)
  | .error _ => .refused

def ask (ex : Exchange) (wish : Wish) (method : String) (params : Json) : Exchange :=
  { ex with
    client := (ex.client.ask wish method params).2
    calls := ex.calls ++ [ex.callOf method params] }

def tell (ex : Exchange) (method : String) (params : Json) : Exchange :=
  { ex with
    client := (ex.client.notify method params).2
    calls := ex.calls ++ [.send (.notification ⟨Rpc.version, method, params⟩)] }

def await (ex : Exchange) : Exchange :=
  { ex with client := ex.client.waitReady.2, calls := ex.calls ++ [.await] }

def part (ex : Exchange) : Exchange :=
  let (request, correlator) := ex.client.correlator.requestWithoutHandler "shutdown" .null
  { ex with
    client := { ex.client with correlator }
    partings := ex.partings ++ [⟨request, .asking⟩] }

def greet (ex : Exchange) : Exchange :=
  match ex.client.handshake with
  | .waiting _ => { ex with client := ex.client.advanceHandshake }
  | _ => ex

def advance (ex : Exchange) (number : Nat) : Exchange :=
  match ex.client.tasks[number]? with
  | some ⟨_, .writing _ _⟩ => ex
  | _ => { ex with client := ex.client.advance number }

def abandon (ex : Exchange) (number : Nat) : Exchange :=
  if ex.holds (.task number) then ex else { ex with client := ex.client.abandon number }

def forsake (ex : Exchange) (number : Nat) : Exchange :=
  if ex.holds (.shutdown number) || ex.holds (.exit number) then ex
  else { ex with partings := ex.partings.modify number Parting.forsake }

def halt (ex : Exchange) (number : Nat) : Exchange :=
  match ex.partings[number]? with
  | some ⟨_, .stopping⟩ =>
    { ex with
      client := ex.client.stop.2
      partings := ex.partings.modify number (Parting.halt ex.client.stop.1) }
  | _ => ex

def hear (ex : Exchange) (payload : Bytes) : Exchange :=
  { ex with
    client := { ex.client with correlator := (ex.client.correlator.dispatchPayload payload).2 }
    heard := ex.heard ++
      (Rpc.Message.ofBytes? payload).toList.map fun m => (m, (ex.client.correlator.dispatch m).1) }

/-- The exchange after a move. Callers have to wait until the client is connected. -/
def next (ex : Exchange) (move : Move) : Exchange :=
  match move, ex.opening with
  | .register process, .fresh => ex.register process
  | .ask wish method params, .done _ => ex.ask wish method params
  | .tell method params, .done _ => ex.tell method params
  | .await, .done _ => ex.await
  | .part, .done _ => ex.part
  | .greet, .done _ => ex.greet
  | .stop, .done _ => { ex with client := ex.client.stop.2 }
  | .take author, _ => ex.take author
  | .put count, _ => ex.put count
  | .finish, _ => ex.finish
  | .refuse, _ => ex.refuse
  | .advance number, _ => ex.advance number
  | .expire number, _ => { ex with client := ex.client.expire number }
  | .abandon number, _ => ex.abandon number
  | .forsake number, _ => ex.forsake number
  | .halt number, _ => ex.halt number
  | .hear payload, _ => ex.hear payload
  | .closeOutput, _ => { ex with client := ex.client.closeOutput }
  | .closeInput, _ => { ex with client := ex.client.closeInput }
  | _, _ => ex

def after (limit : Option Duration) (inputOpen : Bool) (moves : List Move) : Exchange :=
  moves.foldl next (new limit inputOpen)

/-- The moves by which an author writes a letter, or finds that nobody listens. -/
def writeMoves (author : Author) (letter : Letter) (listening : Bool) : List Move :=
  if listening then [.take author, .put letter.frame.length, .finish] else [.take author, .refuse]

theorem foldl_writeMoves {ex : Exchange} {author : Author} {letter : Letter}
    (free : ex.pen = none) (ready : ex.draft? author = some letter) :
    (writeMoves author letter ex.client.inputOpen).foldl next ex =
      if ex.client.inputOpen then
        ({ ex with out := ex.out ++ letter.frame }.record author letter).proceed letter author
      else ex.giveUp letter author := by
  have taken : ex.next (.take author) = { ex with pen := some ⟨author, letter, 0⟩ } := by
    show ex.take author = _
    rw [take, free, ready]
  cases listening : ex.client.inputOpen with
  | true =>
    have whole : ({ ex with pen := some ⟨author, letter, 0⟩ } : Exchange).put letter.frame.length =
        { ex with
          out := ex.out ++ letter.frame
          pen := some ⟨author, letter, letter.frame.length⟩ } := by
      simp [put, listening]
    show ((ex.next (.take author)).put letter.frame.length).finish = _
    rw [taken, whole]
    simp [finish, record]
  | false =>
    have same : ({ ex with pen := none } : Exchange) = ex := by rw [← free]
    show (ex.next (.take author)).refuse = _
    rw [taken]
    simp [refuse, listening, same]

def connectMoves (process : Nat) (listening : Bool) : List Move :=
  .register process :: writeMoves .opening (.opening process) listening

def shutdownMoves (number id : Nat) (listening : Bool) : List Move :=
  .part :: (writeMoves (.shutdown number) (.shutdown id) listening ++
    ((if listening then writeMoves (.exit number) .exit true else []) ++ [.halt number]))

section Operations

variable {ex : Exchange}

theorem client_connect (process : Nat) (limit : Option Duration) (listening : Bool) :
    match Client.connect process limit listening with
    | .ok client => (after limit listening (connectMoves process listening)).client = client
    | .error fault => ∃ request?,
      (after limit listening (connectMoves process listening)).opening =
        .failed request? fault := by
  have written := @foldl_writeMoves ((new limit listening).next (.register process)) .opening
    (.opening process) rfl rfl
  have connected : after limit listening (connectMoves process listening) = _ := written
  rw [connected]
  cases listening with
  | true => rfl
  | false => exact ⟨_, rfl⟩

private theorem write_open {client : Client} (listening : client.inputOpen = true) (body : String) :
    client.write body = (.ok (), { client with sent := client.sent ++ [body] }) := by
  rw [Client.write, if_pos listening]

private theorem write_closed {client : Client} (deaf : client.inputOpen = false) (body : String) :
    client.write body = (.error .processExited, client) := by
  rw [Client.write, deaf]
  rfl

theorem client_advance {number : Nat} {wish : Wish} {letter : Letter} (free : ex.pen = none)
    (task : ex.client.tasks[number]? = some ⟨wish, .writing letter.id? letter.text⟩)
    (call : ex.calls[number]? = some (.send letter)) :
    ((writeMoves (.task number) letter ex.client.inputOpen).foldl next ex).client =
      ex.client.advance number := by
  have ready : ex.draft? (.task number) = some letter := by simp only [draft?, task, call]
  have writes : ex.client.advance number = ex.client.writeFor number letter.id? letter.text := by
    rw [Client.advance, task]
  rw [foldl_writeMoves free ready, writes, Client.writeFor.eq_def]
  cases listening : ex.client.inputOpen with
  | true =>
    rw [write_open listening, if_pos rfl]
    rfl
  | false =>
    rw [write_closed listening]
    rfl

theorem client_advanceHandshake {request : Rpc.Request} (free : ex.pen = none)
    (connected : ex.opening = .done request) (answered : ex.client.handshake = .answered) :
    ((writeMoves .greeting .initialized ex.client.inputOpen).foldl next ex).client =
      ex.client.advanceHandshake := by
  have ready : ex.draft? .greeting = some .initialized := by
    simp only [draft?, connected, answered]
  rw [foldl_writeMoves free ready, Client.advanceHandshake, answered]
  cases listening : ex.client.inputOpen with
  | true =>
    simp only [write_open listening, if_true]
    rfl
  | false =>
    simp only [write_closed listening]
    rfl

private theorem client_halt {number : Nat} {asked : Rpc.Request}
    (stopping : ex.partings[number]? = some ⟨asked, .stopping⟩) :
    (ex.next (.halt number)).client = ex.client.stop.2 := by
  show (ex.halt number).client = _
  rw [halt, stopping]

private theorem partings_modify {partings : List Parting} {number : Nat} {parting : Parting}
    (found : partings[number]? = some parting) (change : Parting → Parting) :
    (partings.modify number change)[number]? = some (change parting) := by
  rw [List.getElem?_modify_eq, found]
  rfl

private theorem parting_written {number : Nat} {parting : Parting} {author : Author}
    {letter : Letter} (own : author = .shutdown number ∨ author = .exit number)
    (listening : ex.client.inputOpen = true) (free : ex.pen = none)
    (found : ex.partings[number]? = some parting) (ready : ex.draft? author = some letter) :
    ∃ wrote, (writeMoves author letter true).foldl next ex = wrote ∧ wrote.pen = none ∧
      wrote.client = { ex.client with sent := ex.client.sent ++ [letter.text] } ∧
      wrote.partings[number]? = some parting.proceed := by
  have written := foldl_writeMoves free ready
  rw [listening, if_pos rfl] at written
  refine ⟨_, written, ?_⟩
  rcases own with rfl | rfl
  · exact ⟨rfl, rfl, partings_modify found _⟩
  · exact ⟨rfl, rfl, partings_modify found _⟩

theorem client_shutdown {request : Rpc.Request} (free : ex.pen = none)
    (connected : ex.opening = .done request) :
    ((shutdownMoves ex.partings.length ex.client.correlator.nextId ex.client.inputOpen).foldl next
      ex).client = ex.client.shutdown.2 := by
  have began : ex.next .part = ex.part := by simp only [next, connected]
  have asking : ex.part.partings[ex.partings.length]? =
      some ⟨⟨Rpc.version, ex.client.correlator.nextId, "shutdown", .null⟩, .asking⟩ :=
    List.getElem?_concat_length
  have ready : ex.part.draft? (.shutdown ex.partings.length) =
      some (.shutdown ex.client.correlator.nextId) := by
    simp only [draft?, asking, Letter.shutdown]
  rw [shutdownMoves, List.foldl_cons, List.foldl_append, List.foldl_append, began]
  cases listening : ex.client.inputOpen with
  | true =>
    obtain ⟨wrote, first, free', client, leaving⟩ :=
      @parting_written ex.part _ _ _ _ (Or.inl rfl) listening free asking ready
    have ready' : wrote.draft? (.exit ex.partings.length) = some .exit := by
      simp only [draft?, leaving, Parting.proceed]
    have listening' : wrote.client.inputOpen = true := by
      rw [client]
      exact listening
    obtain ⟨left, second, -, client', stopping⟩ :=
      parting_written (Or.inr rfl) listening' free' leaving ready'
    have last : ex.client.shutdown.2 = { ex.part.client with
        sent := ex.part.client.sent ++ [(Letter.shutdown ex.client.correlator.nextId).text] ++
          [Letter.exit.text] }.stop.2 := by
      have same : ex.part.client.inputOpen = true := listening
      simp only [Client.shutdown, Client.write, listening, same, if_true]
      rfl
    rw [first, if_pos rfl, second, List.foldl_cons, List.foldl_nil, client_halt stopping, client',
      client, last]
  | false =>
    have refused := @foldl_writeMoves ex.part _ _ free ready
    have same : ex.part.client.inputOpen = false := listening
    rw [same, if_neg Bool.false_ne_true] at refused
    have last : ex.client.shutdown.2 = ex.part.client.stop.2 := by
      simp only [Client.shutdown, Client.write, listening, if_neg Bool.false_ne_true]
      rw [← listening]
      rfl
    rw [refused, if_neg Bool.false_ne_true, List.foldl_nil, List.foldl_cons, List.foldl_nil,
      client_halt (partings_modify asking Parting.giveUp), last]
    rfl

theorem client_hear (frames : List Frame) :
    ((frames.map fun frame => Move.hear frame.body).foldl next ex).client =
      { ex.client with correlator := Client.dispatchAll ex.client.correlator frames } := by
  induction frames generalizing ex with
  | nil => rfl
  | cons frame frames ih =>
    rw [List.map_cons, List.foldl_cons, ih]
    rfl

end Operations

end Exchange

end NotebookKernel.Language
