import NotebookKernel.Rpc.Message

/-!
# Correlation of responses

The correlator numbers requests and keeps the table of those that wait for a response. Each request
with a caller has a receiver, which stays empty until the response, a rejection or a cancellation.
Once everything has been rejected the correlator is closed for good.
-/

set_option autoImplicit false

namespace NotebookKernel.Rpc

/-- The caller's end of a request. -/
inductive Receiver where
  | waiting
  /-- An answer is there and has not been taken. -/
  | holding (answer : Except Fault Message)
  /-- No answer will come: it was taken, or the request was cancelled. -/
  | closed
  /-- The caller has gone away. -/
  | dropped

def Receiver.fill (answer : Except Fault Message) : Receiver → Receiver
  | .waiting => .holding answer
  | receiver => receiver

def Receiver.close : Receiver → Receiver
  | .waiting => .closed
  | receiver => receiver

/-- What became of a dispatched message. -/
inductive Dispatch where
  | delivered (id : Nat)
  | unmatched (id : Nat)
  | notification (method : String)
  | serverRequest (method : String)
  | ignored
deriving DecidableEq, Repr

/-- The next id, the ids that wait for a response, the reason for which the correlator is closed,
and the receivers of all requests ever made. -/
structure Correlator where
  nextId : Nat
  waiting : List Nat
  closedWith : Option String
  receivers : List (Nat × Receiver)

/-- What a look at a receiver shows. -/
inductive Receipt where
  | unknown
  | dropped
  | waiting
  | closed
  | answer (answer : Except Fault Message)

namespace Correlator

def new : Correlator :=
  ⟨1, [], none, []⟩

def pendingCount (c : Correlator) : Nat :=
  c.waiting.length

def isClosed (c : Correlator) : Bool :=
  c.closedWith.isSome

def receiver? (c : Correlator) (id : Nat) : Option Receiver :=
  (c.receivers.find? fun r => r.1 == id).map Prod.snd

def updateReceiver (c : Correlator) (id : Nat) (change : Receiver → Receiver) : Correlator :=
  { c with receivers := c.receivers.map fun r => if r.1 == id then (r.1, change r.2) else r }

def takeId (c : Correlator) : Nat × Correlator :=
  (c.nextId, { c with nextId := c.nextId + 1 })

/-- A request whose response is waited for. A closed correlator refuses it with the reason that
closed it, and takes no id. -/
def request (c : Correlator) (method : String) (params : Json) :
    Except Fault Request × Correlator :=
  match c.closedWith with
  | some reason => (.error (.abandoned reason), c)
  | none =>
    let (id, c) := c.takeId
    (.ok ⟨version, id, method, params⟩,
      { c with waiting := c.waiting ++ [id], receivers := c.receivers ++ [(id, .waiting)] })

def requestWithoutHandler (c : Correlator) (method : String) (params : Json) :
    Request × Correlator :=
  let (id, c) := c.takeId
  (⟨version, id, method, params⟩, c)

def release (c : Correlator) (id : Nat) : Correlator :=
  { c with waiting := c.waiting.filter (· != id) }

/-- Routes a message. One with a method comes from the other side; any other is a response, which
goes to the request with its number. -/
def dispatch (c : Correlator) (m : Message) : Dispatch × Correlator :=
  match m.method with
  | some method => (if m.id.isSome then .serverRequest method else .notification method, c)
  | none =>
    match m.numericId? with
    | none => (.ignored, c)
    | some id =>
      if c.waiting.contains id then
        (.delivered id, (c.release id).updateReceiver id (Receiver.fill (.ok m)))
      else (.unmatched id, c)

def dispatchPayload (c : Correlator) (payload : Bytes) : Except Fault Dispatch × Correlator :=
  match Message.ofBytes? payload with
  | none => (.error (.protocolParse .payloadNotMessage), c)
  | some m =>
    let (outcome, c) := c.dispatch m
    (.ok outcome, c)

def cancel (c : Correlator) (id : Nat) : Bool × Correlator :=
  if c.waiting.contains id then (true, (c.release id).updateReceiver id Receiver.close)
  else (false, c)

/-- Rejects every waiting request for a reason and closes the correlator. The first reason is kept
for later requests. -/
def rejectAll (c : Correlator) (reason : String) : Nat × Correlator :=
  let rejected := c.waiting.foldl
    (fun c id => c.updateReceiver id (Receiver.fill (.error (.abandoned reason)))) c
  (c.waiting.length,
    { rejected with waiting := [], closedWith := some (c.closedWith.getD reason) })

def dropReceiver (c : Correlator) (id : Nat) : Bool × Correlator :=
  match c.receiver? id with
  | none | some .dropped => (false, c)
  | some _ => (true, c.updateReceiver id fun _ => .dropped)

/-- Looks at the receiver of a request and takes the answer that it holds. -/
def receive (c : Correlator) (id : Nat) : Receipt × Correlator :=
  match c.receiver? id with
  | none => (.unknown, c)
  | some .waiting => (.waiting, c)
  | some .dropped => (.dropped, c)
  | some .closed => (.closed, c)
  | some (.holding answer) => (.answer answer, c.updateReceiver id fun _ => .closed)

end Correlator

end NotebookKernel.Rpc
