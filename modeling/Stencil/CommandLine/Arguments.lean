import Stencil.Options

/-!
Command-line arguments.

The arguments are taken one at a time. A flag is written out after two dashes, or
as a letter after one; letters may stand together. A flag that takes a value has
it behind `=`, in the rest of its letters, or as the next argument, which may
not look like a flag then. Everything else is the template, which is given
exactly once, and so is everything behind `--`. The first thing that is wrong
ends the reading, and so does a flag that asks for help or for the version.
-/

namespace Stencil.CommandLine

/-! ### Flags -/

/-- A flag of the command line. -/
inductive Flag where
  | data
  | missingKeys
  | noTrim
  | verbose
  | help
  | version
  deriving DecidableEq, Repr

namespace Flag

def all : List Flag :=
  [.data, .missingKeys, .noTrim, .verbose, .help, .version]

/-- How a flag is written out. -/
def long : Flag → String
  | .data => "data"
  | .missingKeys => "missing-keys"
  | .noTrim => "no-trim"
  | .verbose => "verbose"
  | .help => "help"
  | .version => "version"

/-- The letter of a flag. -/
def letter? : Flag → Option Char
  | .data => some 'd'
  | .verbose => some 'v'
  | .help => some 'h'
  | .version => some 'V'
  | .missingKeys | .noTrim => none

def takesValue : Flag → Bool
  | .data | .missingKeys => true
  | _ => false

def ofLong? (text : List Char) : Option Flag :=
  all.find? fun flag => flag.long.toList == text

def ofLetter? (c : Char) : Option Flag :=
  all.find? fun flag => flag.letter? == some c

end Flag

/-! ### Requests -/

/-- What a render from the command line is to do. -/
structure Invocation where
  template : String
  data : Option String
  missingKeys : MissingKeys
  /-- Blanks at the ends of the output stay. -/
  noTrim : Bool
  /-- How often more log lines were asked for. -/
  verbosity : Nat
  deriving DecidableEq, Repr

/-- The options of the render. -/
def Invocation.options (invocation : Invocation) : Options :=
  ⟨invocation.missingKeys, !invocation.noTrim⟩

/-- Why arguments are refused. -/
inductive Misuse where
  | unknownFlag (text : String)
  | repeated (flag : Flag)
  | missingValue (flag : Flag)
  | unexpectedValue (flag : Flag)
  | invalidValue (flag : Flag) (value : String)
  | emptyTemplate
  | secondTemplate (text : String)
  | noTemplate
  deriving DecidableEq, Repr

/-- The wording of a misuse. -/
def Misuse.message : Misuse → String
  | .unknownFlag text => s!"unexpected argument '{text}' found"
  | .repeated flag => s!"the argument '--{flag.long}' cannot be used multiple times"
  | .missingValue flag => s!"a value is required for '--{flag.long}' but none was supplied"
  | .unexpectedValue flag => s!"unexpected value for '--{flag.long}' found"
  | .invalidValue flag value => s!"invalid value '{value}' for '--{flag.long}'"
  | .emptyTemplate => "a value is required for '<TEMPLATE>' but none was supplied"
  | .secondTemplate text => s!"unexpected argument '{text}' found"
  | .noTemplate => "the following required arguments were not provided: <TEMPLATE>"

/-- How the reading of arguments may end early. -/
inductive Ending where
  | help
  | version
  | misuse (cause : Misuse)
  deriving DecidableEq, Repr

/-! ### Reading -/

/-- The arguments that have been read. -/
structure Arguments where
  template : Option String := none
  data : Option String := none
  missingKeys : Option MissingKeys := none
  noTrim : Bool := false
  verbosity : Nat := 0
  /-- A flag that waits for its value. -/
  pending : Option Flag := none
  /-- Behind `--` there are no flags. -/
  literal : Bool := false

namespace Arguments

def refuse {α : Type} (cause : Misuse) : Except Ending α :=
  .error (.misuse cause)

/-- Takes the value of a flag. -/
def setValue (arguments : Arguments) (flag : Flag) (value : List Char) :
    Except Ending Arguments :=
  let text := String.ofList value
  let settled := { arguments with pending := none }
  match flag with
  | .data =>
    if text = "" then
      refuse (.invalidValue flag text)
    else if arguments.data.isSome then
      refuse (.repeated flag)
    else
      .ok { settled with data := some text }
  | .missingKeys =>
    match MissingKeys.ofName? text with
    | none => refuse (.invalidValue flag text)
    | some policy =>
      if arguments.missingKeys.isSome then
        refuse (.repeated flag)
      else
        .ok { settled with missingKeys := some policy }
  | flag => refuse (.unexpectedValue flag)

/-- Takes a flag that has no value with it. -/
def setFlag (arguments : Arguments) (flag : Flag) : Except Ending Arguments :=
  match flag with
  | .data | .missingKeys => .ok { arguments with pending := some flag }
  | .noTrim =>
    if arguments.noTrim then refuse (.repeated flag) else .ok { arguments with noTrim := true }
  | .verbose => .ok { arguments with verbosity := arguments.verbosity + 1 }
  | .help => .error .help
  | .version => .error .version

/-- Takes the template. -/
def setTemplate (arguments : Arguments) (text : String) : Except Ending Arguments :=
  if arguments.template.isSome then
    refuse (.secondTemplate text)
  else if text = "" then
    refuse .emptyTemplate
  else
    .ok { arguments with template := some text }

/-- Refuses to go on while a flag waits for its value. -/
def settled (arguments : Arguments) : Except Ending Arguments :=
  match arguments.pending with
  | some flag => refuse (.missingValue flag)
  | none => .ok arguments

/-- Takes a flag that is written out, with what stands behind two dashes. -/
def takeLong (arguments : Arguments) (text : List Char) : Except Ending Arguments :=
  match Flag.ofLong? (text.takeWhile (· != '=')), text.dropWhile (· != '=') with
  | none, _ => refuse (.unknownFlag (String.ofList ('-' :: '-' :: text)))
  | some flag, [] => arguments.setFlag flag
  | some flag, _ :: value => arguments.setValue flag value

/-- Takes letters. The first one that takes a value has the rest as its value. -/
def takeLetters (arguments : Arguments) : List Char → Except Ending Arguments
  | [] => .ok arguments
  | c :: cs =>
    match Flag.ofLetter? c with
    | none => refuse (.unknownFlag (String.ofList ['-', c]))
    | some flag =>
      if flag.takesValue then
        match cs with
        | [] => arguments.setFlag flag
        | '=' :: value => arguments.setValue flag value
        | value => arguments.setValue flag value
      else do
        let after ← arguments.setFlag flag
        after.takeLetters cs

/-- Takes the next argument. -/
def take (arguments : Arguments) (text : String) : Except Ending Arguments :=
  if arguments.literal then
    arguments.setTemplate text
  else
    match text.toList with
    | ['-', '-'] => do return { ← arguments.settled with literal := true }
    | '-' :: '-' :: rest => do (← arguments.settled).takeLong rest
    | '-' :: c :: rest => do (← arguments.settled).takeLetters (c :: rest)
    | cs =>
      match arguments.pending with
      | some flag => arguments.setValue flag cs
      | none => arguments.setTemplate text

/-- What the arguments ask for once all have been read. -/
def finish (arguments : Arguments) : Except Ending Invocation := do
  let arguments ← arguments.settled
  match arguments.template with
  | none => refuse .noTemplate
  | some template =>
    return {
      template
      data := arguments.data
      missingKeys := arguments.missingKeys.getD .warn
      noTrim := arguments.noTrim
      verbosity := arguments.verbosity }

end Arguments

/-- What the arguments ask for. -/
def Invocation.ofArguments (list : List String) : Except Ending Invocation := do
  let arguments ← list.foldlM Arguments.take {}
  arguments.finish

example : Invocation.ofArguments ["-vdw.json", "t", "-v"] =
    .ok ⟨"t", some "w.json", .warn, false, 2⟩ := rfl
example : Invocation.ofArguments ["t", "--data", "--no-trim"] =
    .error (.misuse (.missingValue .data)) := rfl

end Stencil.CommandLine
