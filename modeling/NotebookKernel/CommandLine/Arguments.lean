import NotebookKernel.Language.Dialogue
import NotebookKernel.Text.Numeral

/-!
# Arguments

What the words of a command line ask for. Words are read from the left at two levels, that of the
program and that of a command; each has options, with a value behind an equals sign or in the next
word, and a command has positional words. Reading stops at the first word that is out of place, and
at the first one that asks for help or for the version.
-/

set_option autoImplicit false

namespace NotebookKernel.CommandLine

/-- What a help text can be about. -/
inductive Topic where
  | program
  | eval
  | chunk
  | run
  | complete
  | signature
  | help
deriving DecidableEq, Repr

def Topic.names : List (String × Topic) :=
  [("eval", .eval), ("chunk", .chunk), ("run", .run), ("complete", .complete),
    ("signature", .signature), ("help", .help)]

def Topic.ofName? (name : String) : Option Topic :=
  (Topic.names.find? fun entry => entry.1 == name).map Prod.snd

/-- A snippet to evaluate: the key of its session, its label, options that override its own, and
its file, if it is in one. -/
structure Snippet where
  session : String
  label : String
  options : List (String × String)
  file : Option String
deriving DecidableEq, Repr

inductive Command where
  | eval (snippet : Snippet)
  | chunk (document : String) (line : Nat)
  | run (document : String)
  | inquire (question : Language.Question) (document : String) (line character : Nat)
deriving DecidableEq, Repr

/-- A command, and the file of the settings, if one is named. -/
structure Invocation where
  config : Option String
  command : Command
deriving DecidableEq, Repr

/-- Why reading ends before the last word. -/
inductive Stop where
  /-- A word is out of place, or one is missing. -/
  | refused
  | help (topic : Topic)
  | version
deriving DecidableEq, Repr

/-- An option with a value: its long name, its letter, whether it may be repeated, and which values
it takes. -/
structure OptionRule where
  long : String
  short : Option Char
  repeats : Bool
  accepts : String → Bool

/-- A level: what its help is about, whether it tells the version, its options, and which words
stand in its positions. -/
structure Level where
  topic : Topic
  tellsVersion : Bool
  rules : List OptionRule
  places : List (String → Bool)

def isPath (word : String) : Bool :=
  !word.isEmpty

def number? (word : String) : Option Nat :=
  Text.readNumeral? Text.wordBound word.toList

def isNumber (word : String) : Bool :=
  (number? word).isSome

def assignment? (word : String) : Option (String × String) :=
  (Search.splitFirst ['='] word.toList).map fun parts =>
    (String.ofList (Text.trim parts.1), String.ofList (Text.trim parts.2))

def configRule : OptionRule :=
  ⟨"config", none, false, isPath⟩

def snippetRules : List OptionRule :=
  [⟨"session", none, false, fun _ => true⟩, ⟨"label", none, false, fun _ => true⟩,
    ⟨"option", some 'o', true, fun word => (assignment? word).isSome⟩]

def Level.program : Level :=
  ⟨.program, true, [configRule], []⟩

def Level.ofCommand (topic : Topic) : Level :=
  match topic with
  | .eval => ⟨topic, false, configRule :: snippetRules, [isPath]⟩
  | .chunk => ⟨topic, false, [configRule], [isPath, isNumber]⟩
  | .run => ⟨topic, false, [configRule], [isPath]⟩
  | .complete | .signature => ⟨topic, false, [configRule], [isPath, isNumber, isNumber]⟩
  | .program | .help => ⟨topic, false, [], []⟩

/-- How far a level has been read: the values of its options, in order, the words in its
positions, the option that waits for a value, and whether all further words are positional. -/
structure Progress where
  given : List (String × String)
  placed : List String
  waiting : Option OptionRule
  literal : Bool

def Progress.start : Progress :=
  ⟨[], [], none, false⟩

/-- Whether a word can be the value of an option or stand in a position. -/
def isPlain (word : String) : Bool :=
  word == "-" || word.toList.head? != some '-'

def Progress.value? (progress : Progress) (long : String) : Option String :=
  (progress.given.find? fun entry => entry.1 == long).map Prod.snd

def Progress.give (progress : Progress) (rule : OptionRule) (value : String) :
    Except Stop Progress :=
  if !rule.accepts value || (!rule.repeats && (progress.value? rule.long).isSome) then
    .error .refused
  else .ok { progress with given := progress.given ++ [(rule.long, value)], waiting := none }

def Progress.place (progress : Progress) (level : Level) (word : String) : Except Stop Progress :=
  match level.places[progress.placed.length]? with
  | none => .error .refused
  | some accepts =>
    if accepts word then .ok { progress with placed := progress.placed ++ [word] }
    else .error .refused

def Progress.option (progress : Progress) (rule : Option OptionRule) (value : Option String) :
    Except Stop Progress :=
  match rule, value with
  | none, _ => .error .refused
  | some rule, none => .ok { progress with waiting := some rule }
  | some rule, some value => progress.give rule value

/-- Reads an option by its long name. Nothing can be attached to one that asks for a text. -/
def Progress.long (progress : Progress) (level : Level) (name : String) (value : Option String) :
    Except Stop Progress :=
  if name = "help" then .error (if value.isNone then .help level.topic else .refused)
  else if name = "version" ∧ level.tellsVersion then
    .error (if value.isNone then .version else .refused)
  else progress.option (level.rules.find? fun rule => rule.long == name) value

/-- The value attached to a letter: what follows it, less one equals sign. -/
def attached? : List Char → Option String
  | [] => none
  | '=' :: value => some (String.ofList value)
  | value => some (String.ofList value)

def Progress.short (progress : Progress) (level : Level) (letter : Char) (rest : List Char) :
    Except Stop Progress :=
  if letter = 'h' then .error (.help level.topic)
  else if letter = 'V' ∧ level.tellsVersion then .error .version
  else progress.option (level.rules.find? fun rule => rule.short == some letter) (attached? rest)

def Progress.word (progress : Progress) (level : Level) (word : String) : Except Stop Progress :=
  match word.toList with
  | ['-', '-'] => .ok { progress with literal := true }
  | '-' :: '-' :: text =>
    match Search.splitFirst ['='] text with
    | some (name, value) =>
      progress.long level (String.ofList name) (some (String.ofList value))
    | none => progress.long level (String.ofList text) none
  | '-' :: letter :: rest => progress.short level letter rest
  | _ => progress.place level word

def Progress.push (progress : Progress) (level : Level) (word : String) : Except Stop Progress :=
  if progress.literal then progress.place level word
  else
    match progress.waiting with
    | some rule => if isPlain word then progress.give rule word else .error .refused
    | none => progress.word level word

def Progress.overrides (progress : Progress) : List (String × String) :=
  (progress.given.filter fun entry => entry.1 == "option").filterMap fun entry =>
    assignment? entry.2

def Progress.snippet (progress : Progress) : Snippet where
  session := (progress.value? "session").getD "scratch"
  label := (progress.value? "label").getD "snippet"
  options := progress.overrides
  file := progress.placed.head?

def Progress.command? (progress : Progress) (topic : Topic) : Option Command :=
  match topic, progress.placed with
  | .eval, _ => some (.eval progress.snippet)
  | .chunk, [document, line] => (number? line).map (.chunk document)
  | .run, [document] => some (.run document)
  | .complete, [document, line, character] => do
    return .inquire .completion document (← number? line) (← number? character)
  | .signature, [document, line, character] => do
    return .inquire .signature document (← number? line) (← number? character)
  | _, _ => none

/-- Reads the words of a command. Its own file of settings goes before that of the program. -/
def readCommand (outer : Progress) (topic : Topic) (words : List String) :
    Except Stop Invocation := do
  let level := Level.ofCommand topic
  let progress ← words.foldlM (fun progress word => Progress.push progress level word) .start
  match progress.waiting, progress.command? topic with
  | none, some command =>
    return ⟨(progress.value? "config").or (outer.value? "config"), command⟩
  | _, _ => throw .refused

def readHelp : List String → Stop
  | [] => .help .program
  | [name] =>
    match Topic.ofName? name with
    | some topic => .help topic
    | none => .refused
  | _ => .refused

/-- Reads the words of a command line, of which some were read at the level of the program. -/
def readFrom (progress : Progress) : List String → Except Stop Invocation
  | [] => .error .refused
  | word :: rest =>
    if progress.waiting.isNone && !progress.literal && isPlain word then
      match Topic.ofName? word with
      | none => .error .refused
      | some .help => .error (readHelp rest)
      | some topic => readCommand progress topic rest
    else
      match progress.push .program word with
      | .error stop => .error stop
      | .ok progress => readFrom progress rest

def read (words : List String) : Except Stop Invocation :=
  readFrom .start words

end NotebookKernel.CommandLine
