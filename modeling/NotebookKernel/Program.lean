import NotebookKernel.Chunk
import NotebookKernel.Sentinels

/-!
# Programs

Each evaluation sends the interpreter one self-contained program. It runs the user's code in the
environment of the session, prints what the code shows, one marked line for each captured
artifact, a snapshot of the environment, and last the completion sentinel. The program is a
template whose slots are filled one kind after another, the user's code last, so that nothing in
the code is taken for a slot.
-/

set_option autoImplicit false

namespace NotebookKernel.Program

/-- The lines of the program that every new session is given. -/
def preambleLines : List String :=
  ["library(jsonlite)",
   "if (!exists(\"user_env\")) \x7b",
   "  user_env <- new.env()",
   "\x7d",
   "options(browser = 'false')",
   "options(bitmapType = 'cairo')",
   "options(device = function(...) jpeg(filename = tempfile(), width = 800, height = 600, ...))"]

/-- The opening of a program: packages, options, and the hook that saves widgets. -/
def headerLines : List String :=
  ["suppressPackageStartupMessages(\x7b",
   "  library(evaluate)",
   "  library(jsonlite)",
   "\x7d)",
   "if (!exists(\"user_env\")) \x7b",
   "  user_env <- new.env()",
   "\x7d",
   ".ridian_opts <- list(echo = <<ECHO>>, warning = <<WARNING>>, error = <<ERROR>>, include = <<INCLUDE>>, output = <<OUTPUT>>)",
   ".ridian_show <- .ridian_opts$output && .ridian_opts$include",
   "if (requireNamespace(\"htmlwidgets\", quietly = TRUE)) \x7b",
   "  registerS3method(\"print\", \"htmlwidget\", function(x, ..., viewer = NULL) \x7b",
   "    widget_file <- paste0(\"widget_\", <<LABEL>>, \"_\", format(Sys.time(), \"%Y%m%d%H%M%S\"), \".html\")",
   "    htmlwidgets::saveWidget(x, file.path(<<SCRATCH>>, widget_file), selfcontained = TRUE)",
   "    cat(<<WIDGET>>, widget_file, \"\\n\", sep = \"\")",
   "    invisible(x)",
   "  \x7d, envir = asNamespace(\"htmlwidgets\"))",
   "\x7d",
   ".ridian_start <- Sys.time()"]

def helpLines : List String :=
  ["print.help_files_with_topic <- function(x, ...) \x7b",
   "  paths <- as.character(x)",
   "  if (length(paths) == 0) \x7b",
   "    writeLines(gettextf(\"No documentation for %s in specified packages and libraries\", sQuote(attr(x, \"topic\"))))",
   "    return(invisible(x))",
   "  \x7d",
   "  file <- paths[1L]",
   "  tools::Rd2HTML(utils:::.getHelpFile(file), out = <<HELP_FILE>>, package = basename(dirname(dirname(file))))",
   "  invisible(x)",
   "\x7d"]

/-- The evaluation of the code, the capture of what it shows, and the report with its markers. -/
def bodyLines : List String :=
  [".ridian_results <- evaluate(<<CODE>>, envir = user_env)",
   ".ridian_outputs <- character()",
   ".ridian_images <- character()",
   "for (.ridian_res in .ridian_results) \x7b",
   "  if (inherits(.ridian_res, \"source\")) \x7b",
   "    next",
   "  \x7d else if (inherits(.ridian_res, \"warning\")) \x7b",
   "    if (.ridian_opts$warning && .ridian_opts$include) \x7b",
   "      .ridian_outputs <- c(.ridian_outputs, paste(\"Warning:\", conditionMessage(.ridian_res)))",
   "    \x7d",
   "  \x7d else if (inherits(.ridian_res, \"message\")) \x7b",
   "    if (.ridian_show) \x7b",
   "      .ridian_outputs <- c(.ridian_outputs, sub(\"\\n$\", \"\", conditionMessage(.ridian_res)))",
   "    \x7d",
   "  \x7d else if (inherits(.ridian_res, \"error\")) \x7b",
   "    if (.ridian_opts$error && .ridian_opts$include) \x7b",
   "      .ridian_outputs <- c(.ridian_outputs, paste(\"Error:\", conditionMessage(.ridian_res)))",
   "    \x7d",
   "  \x7d else if (is.character(.ridian_res)) \x7b",
   "    if (.ridian_show) \x7b",
   "      .ridian_outputs <- c(.ridian_outputs, .ridian_res)",
   "    \x7d",
   "  \x7d else if (inherits(.ridian_res, \"recordedplot\")) \x7b",
   "    if (.ridian_show) \x7b",
   "      .ridian_plot <- paste0(\"plot_\", <<LABEL>>, \"_\", length(.ridian_images) + 1, \"_\", format(Sys.time(), \"%Y%m%d%H%M%S\"), \".jpg\")",
   "      jpeg(filename = file.path(<<SCRATCH>>, .ridian_plot), width = 800, height = 600)",
   "      replayPlot(.ridian_res)",
   "      invisible(dev.off())",
   "      .ridian_images <- c(.ridian_images, .ridian_plot)",
   "    \x7d",
   "  \x7d",
   "\x7d",
   "if (.ridian_show && requireNamespace(\"gganimate\", quietly = TRUE)) \x7b",
   "  .ridian_anim <- tryCatch(as.character(gganimate::last_animation())[1], error = function(e) NA_character_)",
   "  if (!is.na(.ridian_anim) && file.exists(.ridian_anim) && file.info(.ridian_anim)$mtime > .ridian_start) \x7b",
   "    .ridian_gif <- paste0(\"animation_\", <<LABEL>>, \"_\", format(Sys.time(), \"%Y%m%d%H%M%S\"), \".gif\")",
   "    invisible(file.copy(.ridian_anim, file.path(<<SCRATCH>>, .ridian_gif)))",
   "    .ridian_images <- c(.ridian_images, .ridian_gif)",
   "  \x7d",
   "\x7d",
   "if (.ridian_show) \x7b",
   "  if (length(.ridian_outputs) > 0) \x7b",
   "    cat(paste(.ridian_outputs, collapse = \"\\n\"), \"\\n\", sep = \"\")",
   "  \x7d",
   "  for (.ridian_img in .ridian_images) \x7b",
   "    cat(<<IMAGE>>, .ridian_img, \"\\n\", sep = \"\")",
   "  \x7d",
   "\x7d",
   ".ridian_env <- lapply(ls(envir = user_env), function(var_name) \x7b",
   "  var_value <- get(var_name, envir = user_env)",
   "  list(",
   "    name = var_name,",
   "    type = class(var_value),",
   "    size = as.numeric(object.size(var_value)),",
   "    value = substr(paste(capture.output(str(var_value, max.level = 0)), collapse = \" \"), 1, <<PREVIEW>>)",
   "  )",
   "\x7d)",
   "cat(\"\\n\", <<ENVIRONMENT>>, \"\\n\", sep = \"\")",
   "cat(toJSON(.ridian_env, auto_unbox = TRUE))",
   "cat(\"\\n\", <<COMPLETION>>, \"\\n\", sep = \"\")"]

def textOfLines (lines : List String) : List Char :=
  lines.flatMap fun line => line.toList ++ ['\n']

def preamble : String :=
  String.ofList (textOfLines preambleLines)

def slot (name : String) : List Char :=
  ['<', '<'] ++ name.toList ++ ['>', '>']

def fill (text : List Char) (name : String) (value : List Char) : List Char :=
  Search.replaceAll (slot name) value text

def fillAll (text : List Char) (values : List (String × List Char)) : List Char :=
  values.foldl (fun text v => fill text v.1 v.2) text

def stringLiteral (text : String) : List Char :=
  Json.quoteChars text.toList

def pathLiteral (path : String) : List Char :=
  Json.quoteChars (path.toList.map fun c => if c = '\\' then '/' else c)

def flagLiteral (flag : Bool) : List Char :=
  (if flag then "TRUE" else "FALSE").toList

structure Spec where
  code : String
  label : String
  options : ChunkOptions
  /-- Whether help pages are written to the help file. -/
  help : Bool
  /-- The directory that takes the artifacts. -/
  scratchDir : String
  helpFile : String
  sentinels : Sentinels
  /-- How much of a variable's value the snapshot shows, at least one character. -/
  previewChars : Nat

def header (spec : Spec) : List Char :=
  fillAll (textOfLines headerLines)
    [("ECHO", flagLiteral spec.options.echo),
     ("WARNING", flagLiteral spec.options.warning),
     ("ERROR", flagLiteral spec.options.error),
     ("INCLUDE", flagLiteral spec.options.included),
     ("OUTPUT", flagLiteral spec.options.output),
     ("WIDGET", stringLiteral spec.sentinels.widget),
     ("LABEL", stringLiteral (Chunk.fileSafeLabel spec.label)),
     ("SCRATCH", pathLiteral spec.scratchDir)]

def helpHook (spec : Spec) : List Char :=
  if spec.help then fill (textOfLines helpLines) "HELP_FILE" (pathLiteral spec.helpFile) else []

def bodyFrame (spec : Spec) : List Char :=
  fillAll (textOfLines bodyLines)
    [("LABEL", stringLiteral (Chunk.fileSafeLabel spec.label)),
     ("SCRATCH", pathLiteral spec.scratchDir),
     ("IMAGE", stringLiteral spec.sentinels.image),
     ("ENVIRONMENT", stringLiteral spec.sentinels.environment),
     ("COMPLETION", stringLiteral spec.sentinels.completion),
     ("PREVIEW", (toString (max spec.previewChars 1)).toList)]

def compose (spec : Spec) : String :=
  String.ofList
    (header spec ++ helpHook spec ++ fill (bodyFrame spec) "CODE" (stringLiteral spec.code))

end NotebookKernel.Program
