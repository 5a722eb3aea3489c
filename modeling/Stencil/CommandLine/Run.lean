import Stencil.CommandLine.Arguments
import Stencil.CommandLine.Location
import Stencil.Template.Render
import Stencil.Value.Json
import Stencil.Value.Yaml

/-!
A run from the command line.

The template is read and compiled under its file name, then the data file is
read, as YAML or JSON by its extension, and the template is rendered. The first
step that fails ends the run with a report. How files are read is left open, so
a run is the same for a file system and for a folder in memory.
-/

namespace Stencil.CommandLine

/-- The name of the program. -/
def programName : String :=
  "hakurei"

def versionText : String :=
  programName ++ " 0.1.0\n"

def helpText : String :=
  "Render a Hakurei template\n" ++
  "\n" ++
  "Usage: " ++ programName ++ " [OPTIONS] <TEMPLATE>\n" ++
  "\n" ++
  "Arguments:\n" ++
  "  <TEMPLATE>  Template file to render\n" ++
  "\n" ++
  "Options:\n" ++
  "  -d, --data <DATA>                  JSON or YAML file providing the render context\n" ++
  "      --missing-keys <MISSING_KEYS>  What to do when an interpolation key has no value " ++
  "[default: warn] [possible values: ignore, warn, error]\n" ++
  "      --no-trim                      Keep leading and trailing whitespace in the output\n" ++
  "  -v, --verbose...                   Increase log verbosity (-v debug, -vv trace)\n" ++
  "  -h, --help                         Print help\n" ++
  "  -V, --version                      Print version\n"

/-! ### Rendering files -/

/-- The text of a file that must be there. -/
def required (text : Option String) (complaint : String) : Logged String String :=
  .ofExcept (match text with
    | some text => .ok text
    | none => .error complaint)

/-- The value of a data file, by the extension of its path. -/
def readData (path text : String) : Except String Value :=
  match Location.extension? path with
  | some "yaml" | some "yml" =>
    match Value.ofYaml? text with
    | some value => .ok value
    | none => .error s!"Invalid YAML in {path}"
  | _ =>
    match Value.ofJson? text with
    | some value => .ok value
    | none => .error s!"Invalid JSON in {path}"

/-- The context of a render: that of the data file, or no data at all. -/
def contextOf (path? text? : Option String) : Logged String Value :=
  match path? with
  | none => return .object []
  | some path => do
    let text ← required text? s!"Failed to read data file {path}"
    .ofExcept (readData path text)

/-- What the texts of the template and the data file come to. A file that cannot be
read has no text. -/
def renderFiles (invocation : Invocation) (source? data? : Option String) :
    Logged String String := do
  let path := invocation.template
  let source ← required source? s!"Failed to read template {path}"
  let template ← (Template.compile (some (Location.fileName path)) source).mapError
    TemplateError.message
  let context ← contextOf invocation.data data?
  (template.render context invocation.options).mapError TemplateError.message

/-! ### Runs -/

/-- How a run ends. -/
inductive Exit where
  /-- The text is for standard output. -/
  | success (output : String) (log : List Event)
  | failure (message : String) (log : List Event)
  | misuse (cause : Misuse)

namespace Exit

def code : Exit → Nat
  | .success _ _ => 0
  | .failure _ _ => 1
  | .misuse _ => 2

/-- What is written to standard output. -/
def output : Exit → String
  | .success output _ => output
  | _ => ""

/-- What is reported when a run fails. -/
def report? : Exit → Option String
  | .failure message _ => some ("Error: " ++ message)
  | _ => none

/-- The first line of the report. -/
def headline? (exit : Exit) : Option String :=
  exit.report?.map fun report => String.ofList (Text.firstLine report.toList)

end Exit

/-- The severity from which events are shown. -/
def shownFrom (verbosity : Nat) : Level :=
  match verbosity with
  | 0 => .warn
  | 1 => .debug
  | _ => .trace

/-- An event at the level is shown when events from the other level on are. -/
def isShown (level fromLevel : Level) : Bool :=
  match level, fromLevel with
  | .warn, _ | .debug, .debug | .debug, .trace | .trace, .trace => true
  | _, _ => false

/-- How a render ends a run. Output that was trimmed ends in a newline. -/
def Exit.ofRender (invocation : Invocation) (rendered : Logged String String) : Exit :=
  let log := rendered.events.filter fun event =>
    isShown event.level (shownFrom invocation.verbosity)
  match rendered.result with
  | .ok output => .success (output ++ if invocation.noTrim then "" else "\n") log
  | .error message => .failure message log

/-- Runs a command, given how the text of a file is read. -/
def run {m : Type → Type} [Monad m] (read : String → m (Option String)) (arguments : List String) :
    m Exit :=
  match Invocation.ofArguments arguments with
  | .error .help => pure (.success helpText [])
  | .error .version => pure (.success versionText [])
  | .error (.misuse cause) => pure (.misuse cause)
  | .ok invocation => do
    let source? ← read invocation.template
    let data? ← match invocation.data with
      | some path => read path
      | none => pure none
    pure (.ofRender invocation (renderFiles invocation source? data?))

end Stencil.CommandLine
