import NotebookKernel.Fault
import NotebookKernel.Json.Printer
import NotebookKernel.Json.Record
import NotebookKernel.Text.Numeral

/-!
# JSON-RPC messages

Requests and notifications as they are sent, and messages of any kind as they are received. A
received message may be a response, a notification or a request of the other side; which of them
it is shows in the fields that it has. A field that is null counts as absent.
-/

set_option autoImplicit false

namespace NotebookKernel.Rpc

def version : String := "2.0"

/-- A request: the other side answers with the same id. -/
structure Request where
  jsonrpc : String
  id : Nat
  method : String
  params : Json

/-- A notification: there is no answer. -/
structure Notification where
  jsonrpc : String
  method : String
  params : Json

structure ErrorObject where
  code : Int
  message : String
  data : Option Json

structure Message where
  jsonrpc : Option String
  id : Option Json
  method : Option String
  params : Option Json
  result : Option Json
  error : Option ErrorObject

def Request.toJson (r : Request) : Json :=
  .object [("jsonrpc", .string r.jsonrpc), ("id", .nat r.id), ("method", .string r.method),
    ("params", r.params)]

def Request.ofTree? (depth : Nat) (tree : Json.Tree) : Option Request := do
  let (inner, record) ← tree.record? depth [["jsonrpc"], ["id"], ["method"], ["params"]]
  let jsonrpc ← record.required 0 (Json.Tree.within inner Json.string?)
  let id ← record.required 1 (Json.Tree.within inner (Json.natBelow? Text.wordBound))
  let method ← record.required 2 (Json.Tree.within inner Json.string?)
  let params ← record.required 3 (Json.Tree.within inner some)
  return ⟨jsonrpc, id, method, params⟩

def Notification.toJson (n : Notification) : Json :=
  .object [("jsonrpc", .string n.jsonrpc), ("method", .string n.method), ("params", n.params)]

def Notification.ofTree? (depth : Nat) (tree : Json.Tree) : Option Notification := do
  let (inner, record) ← tree.record? depth [["jsonrpc"], ["method"], ["params"]]
  let jsonrpc ← record.required 0 (Json.Tree.within inner Json.string?)
  let method ← record.required 1 (Json.Tree.within inner Json.string?)
  let params ← record.required 2 (Json.Tree.within inner some)
  return ⟨jsonrpc, method, params⟩

def member {α : Type} (key : String) (write : α → Json) : Option α → List (String × Json)
  | none => []
  | some value => [(key, write value)]

def keep (value : Json) : Json :=
  value

def ErrorObject.toJson (e : ErrorObject) : Json :=
  .object ([("code", .int e.code), ("message", .string e.message)] ++ member "data" keep e.data)

def codeInt? : Json → Option Int :=
  Json.intWithin? (-(Text.signedBound : Int)) ((Text.signedBound : Int) - 1)

def ErrorObject.ofTree? (depth : Nat) (tree : Json.Tree) : Option ErrorObject := do
  let (inner, record) ← tree.record? depth [["code"], ["message"], ["data"]]
  let code ← record.required 0 (Json.Tree.within inner codeInt?)
  let message ← record.required 1 (Json.Tree.within inner Json.string?)
  let data ← record.optional 2 (Json.Tree.within inner (Json.orNull some))
  return ⟨code, message, data⟩

def ErrorObject.ofNullable? (depth : Nat) : Json.Tree → Option (Option ErrorObject)
  | .null => some none
  | tree => (ErrorObject.ofTree? depth tree).map some

namespace Message

def fields : List (List String) :=
  [["jsonrpc"], ["id"], ["method"], ["params"], ["result"], ["error"]]

def ofTree? (depth : Nat) (tree : Json.Tree) : Option Message := do
  let (inner, record) ← tree.record? depth fields
  let jsonrpc ← record.optional 0 (Json.Tree.within inner (Json.orNull Json.string?))
  let id ← record.optional 1 (Json.Tree.within inner (Json.orNull some))
  let method ← record.optional 2 (Json.Tree.within inner (Json.orNull Json.string?))
  let params ← record.optional 3 (Json.Tree.within inner (Json.orNull some))
  let result ← record.optional 4 (Json.Tree.within inner (Json.orNull some))
  let error ← record.optional 5 (ErrorObject.ofNullable? inner)
  return ⟨jsonrpc, id, method, params, result, error⟩

def ofBytes? (payload : Bytes) : Option Message :=
  (Json.Tree.ofBytes? payload).bind (ofTree? Json.depthLimit)

def toJson (m : Message) : Json :=
  .object (member "jsonrpc" .string m.jsonrpc ++ member "id" keep m.id ++
    member "method" .string m.method ++ member "params" keep m.params ++
    member "result" keep m.result ++ member "error" ErrorObject.toJson m.error)

/-- The id as a number: a whole number, or a numeral in a string. -/
def numericId? (m : Message) : Option Nat :=
  match m.id with
  | some (.int i) => if 0 ≤ i then some i.toNat else none
  | some (.string s) => Text.readNumeral? Text.wordBound s.toList
  | _ => none

/-- What a response says: its error, else its result, which is null when absent. -/
def intoResult (m : Message) : Except Fault Json :=
  match m.error with
  | some e => .error (.server e.code e.message)
  | none => .ok (m.result.getD .null)

end Message

end NotebookKernel.Rpc
