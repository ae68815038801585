import DotDiagram.Error
import DotDiagram.Text.Blank

/-! What the command line needs of the system it runs on. -/

namespace DotDiagram

/-- Why the system refused a file. -/
inductive SystemFault where
  | absent | notDirectory | isDirectory
  | other (complaint : String)
  deriving DecidableEq

def SystemFault.message : SystemFault → String
  | .absent => "No such file or directory (os error 2)"
  | .notDirectory => "Not a directory (os error 20)"
  | .isDirectory => "Is a directory (os error 21)"
  | .other complaint => complaint

inductive ProgramRun where
  | notFound
  | refused (fault : SystemFault)
  | finished (success : Bool) (output complaint : String)
  deriving DecidableEq

structure Host (m : Type → Type) where
  readFile (path : String) : m (Except SystemFault String)
  readInput : m (Except SystemFault String)
  writeFile (path content : String) : m (Except SystemFault Unit)
  runProgram (program : String) (args : List String) (input : String) : m ProgramRun

/-- The arguments of a layout program: the format, then the file to write if any. -/
def layoutArgs (format : String) (output : Option String) : List String :=
  ("-T" ++ format) :: (output.map fun path => ["-o", path]).getD []

def layoutResult (program : String) : ProgramRun → Except Error String
  | .notFound => .error (.programNotFound program)
  | .refused fault => .error (.system fault.message)
  | .finished true output _ => .ok output
  | .finished false _ complaint => .error (.programFailed (trimText complaint))

namespace Host

variable {m : Type → Type} [Monad m]

/-- Lays a document out; the answer is what the program writes. -/
def layOut (host : Host m) (program format document : String) : m (Except Error String) := do
  return layoutResult program (← host.runProgram program (layoutArgs format none) document)

def layOutToFile (host : Host m) (program format path document : String) :
    m (Except Error Unit) := do
  let run ← host.runProgram program (layoutArgs format (some path)) document
  return (layoutResult program run).map fun _ => ()

end Host

end DotDiagram
