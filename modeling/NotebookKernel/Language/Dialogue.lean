import NotebookKernel.Host
import NotebookKernel.Language.Client
import NotebookKernel.VirtualDocument

/-!
# Dialogues

A client and the language server of a host, one call after another. The server acts only when a
message is written to it; a call that is not over when the server has done all it will runs out of
time, or, where no limit is set, is waited for forever: what comes of such a call is `none`.
-/

set_option autoImplicit false

namespace NotebookKernel.Language

/-- What a language server is asked about a position. -/
inductive Question where
  | completion
  | signature
deriving DecidableEq, Repr

def Question.put (uri : String) (position : Position) (client : Client) :
    Question → Nat × Client
  | completion => client.completion uri position
  | signature => client.signatureHelp uri position

/-- A client, the state of its server, the files, and how many messages the server has heard. -/
structure Dialogue (Mind : Type) where
  client : Client
  mind : Mind
  tree : FileTree
  heard : Nat

namespace Dialogue

variable {Mind : Type}

/-- Lets the client go on as far as it can. -/
def settle (dialogue : Dialogue Mind) : Dialogue Mind :=
  { dialogue with client := dialogue.client.settle }

/-- Hands a message to the server, which reacts. -/
def hand (host : Host Mind) (dialogue : Dialogue Mind) (body : String) : Dialogue Mind :=
  let (acts, tree, mind) := host.react dialogue.mind dialogue.tree (Frame.encode body)
  { dialogue with tree, mind, client := acts.foldl Client.observe dialogue.client }

/-- Hands over what the client wrote since the server last heard from it. -/
def deliver (dialogue : Dialogue Mind) (host : Host Mind) : Dialogue Mind :=
  let bodies := dialogue.client.sent.drop dialogue.heard
  (bodies.foldl (hand host) { dialogue with heard := dialogue.client.sent.length }).settle

def await (dialogue : Dialogue Mind) (number : Nat) :
    Option (Except Fault Reply) × Dialogue Mind :=
  let client := dialogue.client.expire number
  (client.outcome? number, { dialogue with client })

/-- Makes a call. The second delivery is of what the client writes when it hears the first
answer. A limit of no time is over at once. -/
def call (dialogue : Dialogue Mind) (host : Host Mind) (start : Client → Nat × Client) :
    Option (Except Fault Reply) × Dialogue Mind :=
  let (number, client) := start dialogue.client
  let client := client.settle
  let client := if client.limit = some ⟨0, 0⟩ then client.expire number else client
  (({ dialogue with client }.deliver host).deliver host).await number

/-- Announces a document to a server that has been greeted, and puts a question about it. -/
def inquire (dialogue : Dialogue Mind) (host : Host Mind) (document : VirtualDocument)
    (text : String) (question : Question) (position : Position) :
    Option (Except Fault Reply) × Dialogue Mind :=
  match dialogue.call host Client.waitReady with
  | (some (.ok _), dialogue) =>
    match dialogue.call host fun client => client.didOpen document.uri text with
    | (some (.ok _), dialogue) =>
      dialogue.call host fun client => question.put document.uri position client
    | unopened => unopened
  | unready => unready

def shutdown (dialogue : Dialogue Mind) (host : Host Mind) : Dialogue Mind :=
  { dialogue with client := dialogue.client.shutdown.2 }.deliver host

end Dialogue

variable {Mind : Type}

/-- Starts a language server, puts one question about a text, and stops the server. -/
def inquire (host : Host Mind) (settings : Settings) (tree : FileTree) (document : VirtualDocument)
    (text : String) (question : Question) (position : Position) :
    Option (Except Fault Reply) × FileTree :=
  let child := host.languageServer settings
  let (launch, mind) := host.launch tree child
  match Client.start child.executable host.process settings.requestLimit launch with
  | .error fault => (some (.error fault), tree)
  | .ok client =>
    let dialogue : Dialogue Mind := ⟨client, mind, tree, 0⟩
    match dialogue.inquire host document text question position with
    | (none, dialogue) => (none, dialogue.tree)
    | (some outcome, dialogue) => (some outcome, (dialogue.shutdown host).tree)

def inquireText (host : Host Mind) (settings : Settings) (tree : FileTree) (text : String)
    (question : Question) (position : Position) : Option (Except Fault Reply) × FileTree :=
  let desk : DocumentDesk := ⟨tree, host.cwd, 0⟩
  match desk.create (toString host.process) host.env.scratchDir text with
  | (.error fault, desk) => (some (.error fault), desk.tree)
  | (.ok document, desk) =>
    match inquire host settings desk.tree document text question position with
    | (none, tree) => (none, tree)
    | (some outcome, tree) => (some outcome, ({ desk with tree }.drop document).tree)

end NotebookKernel.Language
