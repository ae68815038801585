import DotDiagram.CommandLine

/-! The program. It starts no other programs, so layout ends with the program not found. -/

namespace DotDiagram

def systemFault : IO.Error → SystemFault
  | .noFileOrDirectory .. => .absent
  | .inappropriateType _ 20 _ => .notDirectory
  | .inappropriateType _ 21 _ => .isDirectory
  | e => .other (toString e)

def attempt {α : Type} (action : IO α) : IO (Except SystemFault α) := do
  match ← action.toBaseIO with
  | .ok a => return .ok a
  | .error e => return .error (systemFault e)

def systemHost : Host IO where
  readFile path := attempt (IO.FS.readFile path)
  readInput := attempt do
    let stdin ← IO.getStdin
    let mut bytes := ByteArray.empty
    let mut chunk ← stdin.read 65536
    while !chunk.isEmpty do
      bytes := bytes ++ chunk
      chunk ← stdin.read 65536
    match String.fromUTF8? bytes with
    | some text => return text
    | none => throw (IO.userError "stream did not contain valid UTF-8")
  writeFile path content := attempt (IO.FS.writeFile path content)
  runProgram _ _ _ := return .notFound

end DotDiagram

open DotDiagram in
def main (args : List String) : IO UInt32 := do
  let outcome ← CommandLine.run systemHost args
  IO.print outcome.output
  match outcome.errorLine? with
  | some line => IO.eprint line
  | none => pure ()
  return outcome.exitCode.toUInt32
