import DotDiagram.Host.Basic
import DotDiagram.Workspace.ClassGraph

/-! The command line: a class diagram goes in, from a file or from the input, and its
document comes out, laid out by a program if a format is asked for. -/

namespace DotDiagram

structure CommandLine where
  file : Option String
  theme : Option String
  direction : Option RankDir
  name : Option String
  format : Option String
  output : Option String
  engine : Option String
  deriving DecidableEq

namespace CommandLine

inductive Setting where
  | theme | direction | name | format | output | engine
  deriving DecidableEq

/-- Arguments are refused for bad usage, or answered with help. -/
inductive Refusal where
  | usage | help
  deriving DecidableEq

def blank : CommandLine := ⟨none, none, none, none, none, none, none⟩

def Setting.ofLetter? : Char → Option Setting
  | 't' => some .theme
  | 'd' => some .direction
  | 'n' => some .name
  | 'f' => some .format
  | 'o' => some .output
  | _ => none

def Setting.ofWord? : String → Option Setting
  | "theme" => some .theme
  | "direction" => some .direction
  | "name" => some .name
  | "format" => some .format
  | "output" => some .output
  | "engine" => some .engine
  | _ => none

/-- What an argument is before the end of options. -/
inductive Argument where
  | value (s : String)
  | alone (setting : Setting)
  | attached (setting : Setting) (value : String)
  | endOfOptions
  | help
  | unknown

def wordArgument (cs : List Char) : Argument :=
  let word := String.ofList (cs.takeWhile (· != '='))
  match Setting.ofWord? word, cs.dropWhile (· != '=') with
  | some setting, [] => .alone setting
  | some setting, _ :: value => .attached setting (String.ofList value)
  | none, [] => if word == "help" then .help else .unknown
  | none, _ => .unknown

/-- The value may follow the letter at once or after an equals sign. -/
def letterArgument (c : Char) (cs : List Char) : Argument :=
  match Setting.ofLetter? c, cs with
  | some setting, [] => .alone setting
  | some setting, '=' :: value => .attached setting (String.ofList value)
  | some setting, value => .attached setting (String.ofList value)
  | none, _ => if c = 'h' then .help else .unknown

def Argument.ofText (arg : String) : Argument :=
  match arg.toList with
  | ['-', '-'] => .endOfOptions
  | '-' :: '-' :: cs => wordArgument cs
  | '-' :: c :: cs => letterArgument c cs
  | _ => .value arg

/-- A setting is set at most once. -/
def set (c : CommandLine) (setting : Setting) (value : String) : Except Refusal CommandLine :=
  match setting with
  | .theme => if c.theme.isSome then .error .usage else .ok { c with theme := some value }
  | .direction =>
    match RankDir.ofText? value with
    | none => .error .usage
    | some dir => if c.direction.isSome then .error .usage else .ok { c with direction := some dir }
  | .name => if c.name.isSome then .error .usage else .ok { c with name := some value }
  | .format => if c.format.isSome then .error .usage else .ok { c with format := some value }
  | .output =>
    if c.output.isSome || value.isEmpty then .error .usage
    else .ok { c with output := some value }
  | .engine => if c.engine.isSome then .error .usage else .ok { c with engine := some value }

def setFile (c : CommandLine) (path : String) : Except Refusal CommandLine :=
  if c.file.isSome || path.isEmpty then .error .usage else .ok { c with file := some path }

def readFiles : List String → CommandLine → Except Refusal CommandLine
  | [], c => .ok c
  | path :: rest, c => (c.setFile path).bind (readFiles rest)

/-- Arguments are read from left to right, and the first that is refused decides. -/
def readArgs : List String → CommandLine → Except Refusal CommandLine
  | [], c => .ok c
  | arg :: rest, c =>
    match Argument.ofText arg with
    | .value path => (c.setFile path).bind (readArgs rest)
    | .attached setting value => (c.set setting value).bind (readArgs rest)
    | .alone setting =>
      match rest with
      | [] => .error .usage
      | next :: rest =>
        match Argument.ofText next with
        | .value value => (c.set setting value).bind (readArgs rest)
        | _ => .error .usage
    | .endOfOptions => readFiles rest c
    | .help => .error .help
    | .unknown => .error .usage

def ofArgs (args : List String) : Except Refusal CommandLine := readArgs args blank

def defaultEngine : String := "dot"

def options (c : CommandLine) : ClassGraphOptions :=
  { name := c.name.getD ClassGraphOptions.default.name
    theme := c.theme
    rankDir := c.direction }

/-- How a run ends: what goes to the output, or why it failed. -/
inductive Outcome where
  | done (output : String)
  | failed (complaint : String)
  | refused (refusal : Refusal)
  deriving DecidableEq

def Outcome.exitCode : Outcome → Nat
  | .done _ => 0
  | .failed _ => 1
  | .refused .help => 0
  | .refused .usage => 2

def Outcome.output : Outcome → String
  | .done output => output
  | _ => ""

/-- The line that tells of a failure. -/
def Outcome.errorLine? : Outcome → Option String
  | .failed complaint => some ("ERROR: " ++ complaint ++ "\n")
  | _ => none

variable {m : Type → Type} [Monad m]

def readDiagram (host : Host m) : Option String → m (Except String String)
  | some path => do
    return (← host.readFile path).mapError fun fault =>
      "failed to read " ++ path ++ ": " ++ fault.message
  | none => do
    return (← host.readInput).mapError fun fault => "failed to read stdin: " ++ fault.message

def laidOut (host : Host m) (c : CommandLine) (document : String) : m (Except Error String) :=
  match c.format with
  | some format => host.layOut (c.engine.getD defaultEngine) format document
  | none => pure (.ok document)

def deliver (host : Host m) (output : Option String) (result : String) : m Outcome :=
  match output with
  | none => pure (.done result)
  | some path => do
    match ← host.writeFile path result with
    | .ok () => return .done ""
    | .error fault => return .failed ("failed to write output: " ++ fault.message)

def perform (host : Host m) (c : CommandLine) : m Outcome := do
  match ← readDiagram host c.file with
  | .error complaint => return .failed complaint
  | .ok text =>
    match renderClassDiagram text c.options with
    | .error e => return .failed e.message
    | .ok document =>
      match ← laidOut host c document with
      | .error e => return .failed e.message
      | .ok result => deliver host c.output result

def run (host : Host m) (args : List String) : m Outcome :=
  match ofArgs args with
  | .error refusal => pure (.refused refusal)
  | .ok c => perform host c

end CommandLine

end DotDiagram
