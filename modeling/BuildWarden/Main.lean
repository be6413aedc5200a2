import BuildWarden.Command.Program
import BuildWarden.Toml.Reader
/-!
# Command line

Runs the program on a tree that is written on the standard input, and shows what it says. Lines for
the shell run on the same tree. The tree is written as a document: its tables are directories and
its texts are files, and a file is a program if its first line names another one.
-/

namespace BuildWarden

/-- A file with a text. -/
def Leaf.ofText (text : String) : Leaf :=
  .file (Text.Utf8.encode text) (text.startsWith "#!")

namespace Tree

/-- The tree that a document writes; what is neither a table nor a text is left out. -/
def ofDocument : Toml.Document → Tree
  | .empty => empty
  | .value name (.text text) rest => leaf name (.ofText text) (ofDocument rest)
  | .value _ _ rest => ofDocument rest
  | .table name _ inside rest => dir name (ofDocument inside) (ofDocument rest)
  | .tables _ _ _ rest => ofDocument rest

end Tree

/-- The directory of the tree. -/
def workingDirectory : Location := ["work"]

/-- A world in which nothing has happened on a tree. -/
def World.ofTree (tree : Tree) : World where
  disk := Shell.withHostPrograms { tree := .dir "work" tree .empty, here := workingDirectory }

/-- What is shown when the arguments are refused, or when a page is asked for. -/
def usage : String :=
  "usage: " ++ Command.Invocation.programName ++ " [OPTIONS] COMMAND, where COMMAND is one of "
    ++ Text.joined ", " Command.Invocation.commandNames

/-- The status for refused arguments. -/
def refusedStatus : Command.ArgumentFault → UInt32
  | .help | .version => 0
  | _ => 2

end BuildWarden

/-- Runs the program with the arguments and ends with its status. -/
def main (arguments : List String) : IO UInt32 := do
  let text ← (← IO.getStdin).readToEnd
  match BuildWarden.Toml.parse? text with
  | none =>
    IO.eprintln "the tree cannot be read"
    return 2
  | some document =>
    let world := BuildWarden.World.ofTree (BuildWarden.Tree.ofDocument document)
    match BuildWarden.Command.runProgram {} 1 arguments world with
    | (.refused fault, _) =>
      IO.eprintln BuildWarden.usage
      return BuildWarden.refusedStatus fault
    | (.helped, _) =>
      IO.println BuildWarden.usage
      return 0
    | (.ended status, world) =>
      (← IO.getStdout).write (ByteArray.mk world.consoleBytes.toArray)
      return UInt32.ofInt status
