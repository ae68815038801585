import DotDiagram.Host.Basic
import DotDiagram.Keyed

/-! A host in memory: one directory with files in it, an input, and a few programs. -/

namespace DotDiagram

structure Memory where
  input : String
  files : Keyed String

namespace Memory

/-- What a path leads to. -/
inductive Place where
  | directory
  | sink
  | file (name content : String)
  | vacant (name : String)
  | nowhere (fault : SystemFault)

def pathParts : List Char → List (List Char)
  | [] => [[]]
  | c :: cs =>
    match pathParts cs with
    | [] => [[c]]
    | part :: parts => if c = '/' then [] :: part :: parts else (c :: part) :: parts

def isOwnDirectory (part : List Char) : Bool := part.isEmpty || part == ['.']

def locateRelative (files : Keyed String) (parts : List (List Char)) : Place :=
  match parts.filter (!isOwnDirectory ·) with
  | [] => .directory
  | name :: below =>
    let name := String.ofList name
    let asDirectory := !below.isEmpty || (parts.getLast?.map isOwnDirectory).getD false
    match files.get? name with
    | some content => if asDirectory then .nowhere .notDirectory else .file name content
    | none =>
      if name == ".." && below.isEmpty then .directory
      else if asDirectory then .nowhere .absent
      else .vacant name

def locate (files : Keyed String) (path : String) : Place :=
  match path.toList with
  | [] => .nowhere .absent
  | '/' :: rest =>
    if path == "/dev/null" then .sink
    else if (pathParts rest).all isOwnDirectory || path == "/dev" || path == "/tmp" then .directory
    else .nowhere .absent
  | chars => locateRelative files (pathParts chars)

def read (path : String) (memory : Memory) : Except SystemFault String :=
  match locate memory.files path with
  | .file _ content => .ok content
  | .sink => .ok ""
  | .directory => .error .isDirectory
  | .vacant _ => .error .absent
  | .nowhere fault => .error fault

def write (path content : String) (memory : Memory) : Except SystemFault Memory :=
  match locate memory.files path with
  | .file name _ | .vacant name =>
    .ok { memory with files := memory.files.insert name content }
  | .sink => .ok memory
  | .directory => .error .isDirectory
  | .nowhere fault => .error fault

def showTabs (text : String) : String :=
  String.ofList (text.toList.flatMap fun c => if c = '\t' then ['^', 'I'] else [c])

def linesOf (text : String) : List String :=
  let lines := text.splitOn "\n"
  if lines.getLast? == some "" then lines.dropLast else lines

def sortLines (text : String) : String :=
  String.join (((linesOf text).mergeSort fun a b => a ≤ b).map (· ++ "\n"))

/-- The fault of a file without the system's number for it. -/
def faultText : SystemFault → String
  | .absent => "No such file or directory"
  | .notDirectory => "Not a directory"
  | .isDirectory => "Is a directory"
  | .other complaint => complaint

/-- The programs at hand: one that fails, one that shows tabs, and one that sorts lines
into a file. -/
def run (program : String) (args : List String) (input : String) (memory : Memory) :
    ProgramRun × Memory :=
  match program, args with
  | "false", _ => (.finished false "" "", memory)
  | "true", _ => (.finished true "" "", memory)
  | "cat", ["-T"] => (.finished true (showTabs input) "", memory)
  | "sort", [_, "-o", path] =>
    match memory.write path (sortLines input) with
    | .ok memory => (.finished true "" "", memory)
    | .error fault =>
      let complaint := "sort: open failed: " ++ path ++ ": " ++ faultText fault ++ "\n"
      (.finished false "" complaint, memory)
  | "sort", [_] => (.finished true (sortLines input) "", memory)
  | _, _ => (.notFound, memory)

def host : Host (StateM Memory) where
  readFile path := fun memory => (memory.read path, memory)
  readInput := fun memory => (.ok memory.input, memory)
  writeFile path content := fun memory =>
    match memory.write path content with
    | .ok memory => (.ok (), memory)
    | .error fault => (.error fault, memory)
  runProgram program args input := fun memory => memory.run program args input

end Memory

end DotDiagram
