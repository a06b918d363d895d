import UriTemplate.Context
import UriTemplate.Expansion
import UriTemplate.Template.Render

/-!
# Command line

`expand TEMPLATE` expands a template, with variables from a context file (`-c`, `--context`) and
from assignments (`--var`), and `parse TEMPLATE` shows a template as JSON. `Command.ofArgs` reads
the arguments and `Command.run` does the work, given how files are read.

An option waits for its value until the next argument, and takes effect only when the next option
or positional argument is read, or at the end; a fault of an option is therefore found after a
fault of the argument behind it.
-/

namespace UriTemplate

/-- Why arguments are refused. -/
inductive UsageFault
  | missingSubcommand
  | invalidSubcommand
  | missingRequiredArgument
  | unknownArgument
  /-- An option has no value. -/
  | invalidValue
  /-- A flag has a value. -/
  | tooManyValues
  /-- An option or a flag is repeated that may stand once only. -/
  | argumentConflict
  /-- Help is asked for. -/
  | displayHelp
deriving DecidableEq

/-- The name of a fault. -/
def UsageFault.name : UsageFault → Text
  | missingSubcommand => "MissingSubcommand".toList
  | invalidSubcommand => "InvalidSubcommand".toList
  | missingRequiredArgument => "MissingRequiredArgument".toList
  | unknownArgument => "UnknownArgument".toList
  | invalidValue => "InvalidValue".toList
  | tooManyValues => "TooManyValues".toList
  | argumentConflict => "ArgumentConflict".toList
  | displayHelp => "DisplayHelp".toList

/-- What the program is asked to do. -/
inductive Command
  | expand (template : Text) (contextFile : Option Text) (assignments : List Text)
  | parse (template : Text)
deriving DecidableEq

/-- The subcommands. -/
inductive Subcommand
  | expand
  | parse
deriving DecidableEq

/-- The options that have a value. -/
inductive ValueOption
  | context
  | assignment
deriving DecidableEq

/-- What a switch on the command line stands for. -/
inductive Switch
  | verbose
  | help
  | valued (option : ValueOption)
deriving DecidableEq

/-- The switch of a long name; the options with a value belong to `expand` only. -/
def Switch.ofLong? (sub : Option Subcommand) (name : Text) : Option Switch :=
  if name = "verbose".toList then some verbose
  else if name = "help".toList then some help
  else if sub ≠ some .expand then none
  else if name = "context".toList then some (valued .context)
  else if name = "var".toList then some (valued .assignment)
  else none

/-- The switch of a letter. -/
def Switch.ofLetter? (sub : Option Subcommand) (c : Char) : Option Switch :=
  if c = 'v' then some verbose
  else if c = 'h' then some help
  else if c = 'c' ∧ sub = some .expand then some (valued .context)
  else none

/-- An argument that has been read and has not taken effect yet. -/
inductive PendingArgument
  | template (text : Text)
  | valued (option : ValueOption) (value : Option Text)
deriving DecidableEq

/-- The arguments of a subcommand that have been read. -/
structure ArgumentReader where
  subcommand : Option Subcommand
  verbose : Bool
  templateSeen : Bool
  template : Option Text
  contextFile : Option Text
  assignments : List Text
  pending : Option PendingArgument

namespace ArgumentReader

/-- The reader before any argument. -/
def start (sub : Option Subcommand) : ArgumentReader := ⟨sub, false, false, none, none, [], none⟩

/-- An option takes effect. -/
def apply (r : ArgumentReader) : ValueOption → Text → Except UsageFault ArgumentReader
  | .context, value =>
    if r.contextFile.isSome then .error .argumentConflict
    else .ok { r with contextFile := some value }
  | .assignment, value => .ok { r with assignments := r.assignments ++ [value] }

/-- The argument read last takes effect. -/
def settle (r : ArgumentReader) : Except UsageFault ArgumentReader :=
  match r.pending with
  | none => .ok r
  | some (.template text) => .ok { r with pending := none, template := some text }
  | some (.valued _ none) => .error .invalidValue
  | some (.valued option (some value)) => { r with pending := none }.apply option value

/-- Reads a flag. -/
def readFlag (r : ArgumentReader) (isHelp : Bool) : Except UsageFault ArgumentReader := do
  let r ← r.settle
  if isHelp then .error .displayHelp
  else if r.verbose then .error .argumentConflict
  else .ok { r with verbose := true }

/-- Reads an option, with the value that is written in the same argument. -/
def readOption (r : ArgumentReader) (option : ValueOption) (value : Option Text) :
    Except UsageFault ArgumentReader := do
  let r ← r.settle
  match value with
  | some value => r.apply option value
  | none => .ok { r with pending := some (.valued option none) }

/-- Reads an argument behind two hyphens. -/
def readLong (r : ArgumentReader) (s : Text) : Except UsageFault ArgumentReader :=
  let (name, value) := match splitFirst? (· = '=') s with
    | some (name, value) => (name, some value)
    | none => (s, none)
  match Switch.ofLong? r.subcommand name with
  | none => .error .unknownArgument
  | some (.valued option) => r.readOption option value
  | some switch =>
    if value.isSome then .error .tooManyValues else r.readFlag (switch = .help)

/-- Reads letters behind a hyphen. An option takes the letters behind it for its value. -/
def readLetters (r : ArgumentReader) : Text → Except UsageFault ArgumentReader
  | [] => .ok r
  | c :: s =>
    match Switch.ofLetter? r.subcommand c with
    | none => .error .unknownArgument
    | some (.valued option) =>
      r.readOption option <| match s with
        | [] => none
        | '=' :: value => some value
        | value => some value
    | some switch => do (← r.readFlag (switch = .help)).readLetters s

/-- Reads the template; there may be one only. -/
def readPositional (r : ArgumentReader) (s : Text) : Except UsageFault ArgumentReader :=
  if r.templateSeen then .error .unknownArgument
  else do
    let r ← r.settle
    .ok { r with templateSeen := true, pending := some (.template s) }

/-- Reads an argument that is no switch: the value of the option in front of it, or the
template. -/
def readPlain (r : ArgumentReader) (s : Text) : Except UsageFault ArgumentReader :=
  match r.pending with
  | some (.valued option none) => .ok { r with pending := some (.valued option (some s)) }
  | _ => r.readPositional s

/-- Reads the arguments of a subcommand; behind two hyphens alone none is a switch. -/
def read (r : ArgumentReader) : List Text → Except UsageFault ArgumentReader
  | [] => r.settle
  | ['-', '-'] :: args => do (← args.foldlM readPositional r).settle
  | ('-' :: '-' :: s) :: args => do (← r.readLong s).read args
  | ('-' :: c :: s) :: args => do (← r.readLetters (c :: s)).read args
  | s :: args => do (← r.readPlain s).read args

/-- The command of a subcommand whose arguments have been read. -/
def command (r : ArgumentReader) : Subcommand → Except UsageFault Command
  | .expand =>
    r.template.elim (.error .missingRequiredArgument) fun t =>
      .ok (.expand t r.contextFile r.assignments)
  | .parse => r.template.elim (.error .missingRequiredArgument) fun t => .ok (.parse t)

end ArgumentReader

/-- The subcommand of a name. -/
def Subcommand.ofName? (s : Text) : Option Subcommand :=
  if s = "expand".toList then some expand
  else if s = "parse".toList then some parse
  else none

namespace Command

/-- The name of the subcommand that shows help. -/
def helpName : Text := "help".toList

/-- Asks for help, on the program or on a subcommand. -/
def helpFault : List Text → UsageFault
  | [] => .displayHelp
  | [s] =>
    if (Subcommand.ofName? s).isSome || s = helpName then .displayHelp else .invalidSubcommand
  | _ => .invalidSubcommand

/-- Reads the arguments in front of the subcommand, then its own. -/
def ofArgsFrom (r : ArgumentReader) : List Text → Except UsageFault Command
  | [] => .error .missingSubcommand
  | s :: args =>
    if s = helpName then .error (helpFault args)
    else match Subcommand.ofName? s with
    | some sub => do (← (ArgumentReader.start (some sub)).read args).command sub
    | none =>
      match s with
      | ['-', '-'] =>
        match args with
        | [] => .error .missingSubcommand
        | t :: _ =>
          if (Subcommand.ofName? t).isSome || t = helpName then .error .unknownArgument
          else .error .invalidSubcommand
      | '-' :: '-' :: s => do ofArgsFrom (← r.readLong s) args
      | '-' :: c :: s => do ofArgsFrom (← r.readLetters (c :: s)) args
      | _ => .error .invalidSubcommand

/-- The command that arguments ask for. -/
def ofArgs (args : List Text) : Except UsageFault Command :=
  ofArgsFrom (ArgumentReader.start none) args

/-- The context file that a command needs. -/
def contextFile? : Command → Option Text
  | expand _ file _ => file
  | parse _ => none

end Command

/-- Why a command fails. -/
inductive CommandFailure
  | usage (fault : UsageFault)
  | malformed (error : SyntaxError)
  | unreadable (file : Text)
  | badContext (file : Text) (error : ContextError)
  | badAssignment (error : AssignmentError)
  | unsupported (error : ShapeError)

/-- The wording of a failure. -/
def CommandFailure.message : CommandFailure → Text
  | usage fault => fault.name
  | malformed e => e.message
  | unreadable file => "Could not read context file ".toList ++ file
  | badContext file e =>
    "Invalid context file ".toList ++ file ++ (e.message?.elim [] fun m => ": ".toList ++ m)
  | badAssignment e => e.message
  | unsupported e => e.message

/-- The text of a file, which must be UTF-8. -/
def decodeFile? (bytes : ByteArray) : Option Text := (String.fromUTF8? bytes).map String.toList

/-- Reads a context file, given how files are read. -/
def loadContext (fileBytes? : Text → Option ByteArray) (file : Text) :
    Except CommandFailure Value :=
  match (fileBytes? file).bind decodeFile? with
  | none => .error (.unreadable file)
  | some text => (parseContext (ContextFormat.ofPath file) text).mapError (.badContext file)

/-- Reads assignments up to the first one that is malformed. -/
def parseAssignments : List Text → Except AssignmentError (List (Text × Text))
  | [] => .ok []
  | text :: texts => do
    let assignment ← parseAssignment text
    let assignments ← parseAssignments texts
    .ok (assignment :: assignments)

namespace Command

/-- The output of a command, given how files are read: first the template is read, then the context
file, then the assignments. -/
def run (fileBytes? : Text → Option ByteArray) : Command → Except CommandFailure Text
  | expand source file assignments => do
    let t ← (Template.parse source).mapError .malformed
    let context ← file.elim (.ok emptyContext) (loadContext fileBytes?)
    let overrides ← (parseAssignments assignments).mapError .badAssignment
    (t.expand (applyOverrides context overrides)).mapError .unsupported
  | parse source => do
    let t ← (Template.parse source).mapError .malformed
    .ok t.toJson.pretty

/-- The output of the program for its arguments. -/
def runArgs (fileBytes? : Text → Option ByteArray) (args : List Text) :
    Except CommandFailure Text := do
  let command ← (ofArgs args).mapError .usage
  command.run fileBytes?

end Command

end UriTemplate
