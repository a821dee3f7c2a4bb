import NotebookKernel.Fault
import NotebookKernel.FileTree
import NotebookKernel.Text.Blank
import NotebookKernel.Toml.Reader

/-!
# Settings

Settings come from a TOML text, then from the environment. Every field may be left out, and fields
that are not known are skipped; an empty path of an executable stands for the usual one.
-/

set_option autoImplicit false

namespace NotebookKernel

abbrev Environment := List (String × String)

namespace Environment

def get? (env : Environment) (name : String) : Option String :=
  (env.find? fun entry => entry.1 == name).map Prod.snd

def accountHome : String := "/root"

def home (env : Environment) : String :=
  match env.get? "HOME" with
  | some dir => if dir.isEmpty then accountHome else dir
  | none => accountHome

/-- A directory of the user: the one that a variable names, when its path is absolute, else one in
the home directory. -/
def userDir (env : Environment) (name usual : String) : String :=
  match (env.get? name).filter Path.isAbsolute with
  | some dir => dir
  | none => Path.join env.home usual

def dataDir (env : Environment) : String :=
  env.userDir "XDG_DATA_HOME" ".local/share"

def configDir (env : Environment) : String :=
  env.userDir "XDG_CONFIG_HOME" ".config"

def scratchDir (env : Environment) : String :=
  (env.get? "TMPDIR").getD "/tmp"

end Environment

/-- How the interpreter and the language server are run, and what bounds their answers. -/
structure Settings where
  executablePath : String
  /-- The rendering helper that the interpreter is told of. -/
  auxExecutablePath : String
  interpreterArgs : List String
  languageServerArgs : List String
  /-- The directory that comes first on the search path of child processes. -/
  firstPath : Option String
  /-- Further variables of child processes. -/
  env : Environment
  artifactRoot : Option String
  evalTimeout : Option Nat
  requestTimeout : Option Nat
  previewChars : Nat
deriving DecidableEq, Repr

/-- Why settings could not be had. -/
inductive SettingsFault where
  /-- The file could not be read, for this cause. -/
  | unreadable (path cause : String)
  | malformed (path : String)
deriving DecidableEq, Repr

def SettingsFault.chain : SettingsFault → List String
  | unreadable path cause => ["Failed to read settings from " ++ path, cause]
  | malformed path =>
    ["Failed to parse settings in " ++ path, "Invalid settings TOML", formatDetail]

def notTextDetail : String := "stream did not contain valid UTF-8"

namespace Settings

def default : Settings where
  executablePath := ""
  auxExecutablePath := ""
  interpreterArgs := ["--vanilla", "--quiet", "--slave"]
  languageServerArgs := ["--slave", "-e", "languageserver::run()"]
  firstPath := none
  env := []
  artifactRoot := none
  evalTimeout := none
  requestTimeout := none
  previewChars := 200

def text? : Toml.Value → Option String
  | .string text => some text
  | _ => none

def texts? : Toml.Value → Option (List String)
  | .array items => items.mapM text?
  | _ => none

def number? : Toml.Value → Option Nat
  | .integer n => if 0 ≤ n then some n.toNat else none
  | _ => none

def momentKey : String := "$__toml_private_datetime"

def environment? : Toml.Value → Option Environment
  | .table _ entries => entries.mapM fun entry => (text? entry.2).map (entry.1, ·)
  | .moment text => some [(momentKey, text)]
  | _ => none

def field? {α : Type} (entries : Toml.Entries) (key : String) (read : Toml.Value → Option α)
    (usual : α) : Option α :=
  match entries.find? key with
  | none => some usual
  | some value => read value

def ofEntries? (entries : Toml.Entries) : Option Settings := do
  let usual := Settings.default
  let executablePath ← field? entries "executable_path" text? usual.executablePath
  let auxExecutablePath ← field? entries "aux_executable_path" text? usual.auxExecutablePath
  let interpreterArgs ← field? entries "interpreter_args" texts? usual.interpreterArgs
  let languageServerArgs ← field? entries "language_server_args" texts? usual.languageServerArgs
  let firstPath ← field? entries "path_prefix" (fun v => (text? v).map some) usual.firstPath
  let env ← field? entries "env" environment? usual.env
  let artifactRoot ← field? entries "artifact_root" (fun v => (text? v).map some) usual.artifactRoot
  let evalTimeout ← field? entries "eval_timeout_secs" (fun v => (number? v).map some) usual.evalTimeout
  let requestTimeout ←
    field? entries "request_timeout_secs" (fun v => (number? v).map some) usual.requestTimeout
  let previewChars ← field? entries "preview_chars" number? usual.previewChars
  return { executablePath, auxExecutablePath, interpreterArgs, languageServerArgs, firstPath, env,
           artifactRoot, evalTimeout, requestTimeout, previewChars }

def ofText? (text : String) : Option Settings :=
  (Toml.parse? text).bind ofEntries?

def defaultPath (env : Environment) : String :=
  Path.join (Path.join env.configDir "ridian") "config.toml"

def override (settings : Settings) (env : Environment) : Settings :=
  { settings with
    executablePath := (env.get? "RIDIAN_R_PATH").getD settings.executablePath
    auxExecutablePath := (env.get? "RIDIAN_PANDOC_PATH").getD settings.auxExecutablePath }

def readFile (tree : FileTree) (cwd : Place) (path : String) : Except SettingsFault Settings :=
  match tree.read? cwd path with
  | none => .error (.unreadable path hostDetail)
  | some contents =>
    match Utf8.decode? contents with
    | none => .error (.unreadable path notTextDetail)
    | some text =>
      match ofText? (String.ofList text) with
      | none => .error (.malformed path)
      | some settings => .ok settings

/-- The settings in force: those of the named file or of the default one, if it is there, with the
paths that the environment names. -/
def load (env : Environment) (tree : FileTree) (cwd : Place) (named : Option String) :
    Except SettingsFault Settings :=
  let path := named.getD (defaultPath env)
  let settings := if tree.reaches cwd path then readFile tree cwd path else .ok .default
  settings.map fun settings => settings.override env

def executable (settings : Settings) : String :=
  let configured := Text.trimmed settings.executablePath
  if configured.isEmpty then "/usr/local/bin/R" else configured

def artifactDir (settings : Settings) (env : Environment) : String :=
  settings.artifactRoot.getD (Path.join (Path.join env.dataDir "ridian") "artifacts")

def evalLimit (settings : Settings) : Option Duration :=
  settings.evalTimeout.map (⟨·, 0⟩)

def requestLimit (settings : Settings) : Option Duration :=
  settings.requestTimeout.map (⟨·, 0⟩)

/-- The search path of child processes, when it is changed. A directory with a colon in its name
cannot stand there. -/
def searchPath? (settings : Settings) (env : Environment) : Option String :=
  match settings.firstPath with
  | none => none
  | some first =>
    if first.toList.contains ':' then none
    else
      match env.get? "PATH" with
      | some rest => some (first ++ ":" ++ rest)
      | none => some first

/-- The variables that are set for child processes; those of the settings win. -/
def childEnv (settings : Settings) (env : Environment) : Environment :=
  let aux := Text.trimmed settings.auxExecutablePath
  let helper : Environment := if aux.isEmpty then [] else [("RSTUDIO_PANDOC", aux)]
  let path : Environment := ((settings.searchPath? env).map fun path => [("PATH", path)]).getD []
  (helper ++ path).filter (fun entry => (settings.env.get? entry.1).isNone) ++ settings.env

end Settings

end NotebookKernel
