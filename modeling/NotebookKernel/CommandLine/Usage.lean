import NotebookKernel.CommandLine.Arguments

/-!
# Usage

The help texts, each with a line on how its command is called, and a table of what can stand in the
call.
-/

set_option autoImplicit false

namespace NotebookKernel.CommandLine

def programName : String := "ridian"

def versionText : String :=
  programName ++ " 0.2.0"

abbrev Table := List (String × String)

def tableLines (table : Table) : List String :=
  let width := (table.map fun entry => entry.1.length).foldl max 0
  table.map fun entry =>
    "  " ++ entry.1 ++ String.ofList (List.replicate (width - entry.1.length + 2) ' ') ++ entry.2

/-- A table under its heading, with an empty line before it; nothing for an empty table. -/
def sectionLines (heading : String) (table : Table) : List String :=
  if table.isEmpty then [] else ["", heading ++ ":"] ++ tableLines table

namespace Topic

def summary : Topic → String
  | program => "Persistent R sessions and language-server queries"
  | eval => "Evaluate a snippet read from a file or stdin"
  | chunk => "Evaluate the R chunk enclosing a document line"
  | run => "Evaluate every R chunk of a document in order, in one session"
  | complete => "Completions at a position inside an R chunk"
  | signature => "Signature help at a position inside an R chunk"
  | help => "Print this message or the help of the given subcommand(s)"

def call : Topic → String
  | program => "[OPTIONS] <COMMAND>"
  | eval => "eval [OPTIONS] [FILE]"
  | chunk => "chunk [OPTIONS] <DOCUMENT> <LINE>"
  | run => "run [OPTIONS] <DOCUMENT>"
  | complete => "complete [OPTIONS] <DOCUMENT> <LINE> <CHARACTER>"
  | signature => "signature [OPTIONS] <DOCUMENT> <LINE> <CHARACTER>"
  | help => "help [COMMAND]..."

def places : Topic → Table
  | program => []
  | eval => [("[FILE]", "File holding the code (stdin when omitted)")]
  | chunk => [("<DOCUMENT>", ""), ("<LINE>", "Zero-based line inside the chunk")]
  | run => [("<DOCUMENT>", "")]
  | complete | signature =>
    [("<DOCUMENT>", ""), ("<LINE>", "Zero-based document line"),
      ("<CHARACTER>", "Zero-based character offset")]
  | help => [("[COMMAND]...", "Print help for the subcommand(s)")]

def configEntry : String × String :=
  ("    --config <CONFIG>", "Settings file (defaults to the user config directory)")

def helpEntry : String × String :=
  ("-h, --help", "Print help")

def options : Topic → Table
  | program => [configEntry, helpEntry, ("-V, --version", "Print version")]
  | eval =>
    [configEntry,
      ("    --session <SESSION>",
        "Session key; evaluations with the same key share variables [default: scratch]"),
      ("    --label <LABEL>", "Label used in artifact file names [default: snippet]"),
      ("-o, --option <OPTIONS>", "Chunk option override, e.g. `-o output=false`"), helpEntry]
  | chunk | run | complete | signature => [configEntry, helpEntry]
  | help => []

def commands : Topic → Table
  | program => names.map fun entry => (entry.1, entry.2.summary)
  | _ => []

def usage (topic : Topic) : String :=
  "Usage: " ++ programName ++ " " ++ topic.call

def helpText (topic : Topic) : String :=
  "\n".intercalate
    ([topic.summary, "", topic.usage] ++ sectionLines "Commands" topic.commands ++
      sectionLines "Arguments" topic.places ++ sectionLines "Options" topic.options)

end Topic

end NotebookKernel.CommandLine
