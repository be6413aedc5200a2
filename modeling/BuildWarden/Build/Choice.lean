import BuildWarden.Fault
import BuildWarden.Text.Blank
import BuildWarden.Text.Search
/-!
# Choices

The closed sets of words an option accepts: what to do, in which mode, for which target, with which
threads and which compiler. A word is accepted in any case and with blanks around it.
-/

namespace BuildWarden

/-- The accepted words of an option, and what each of them means. -/
structure Choices (α : Type) where
  option : String
  words : List (String × α)

namespace Choices
variable {α : Type}

/-- What a word means, whatever its case and the blanks around it. -/
def find? (choices : Choices α) (text : String) : Option α :=
  (choices.words.find? fun (word, _) => Text.sameIgnoringCase word (Text.trim text)).map (·.2)

/-- The fault of a word that is not accepted; it lists the accepted ones. -/
def refusal (choices : Choices α) (text : String) : Fault :=
  .invalidOption choices.option text (Text.joined ", " (choices.words.map (·.1)))

/-- Reads a word of the option. -/
def parse (choices : Choices α) (text : String) : Except Fault α :=
  match choices.find? text with
  | some value => .ok value
  | none => .error (choices.refusal text)

end Choices

/-- What a build is to do. -/
inductive Action where
  | install
  | uninstall
  | lib
  | test
  | doc
  deriving DecidableEq, Repr

namespace Action

/-- The name of an action. -/
def name : Action → String
  | install => "install"
  | uninstall => "uninstall"
  | lib => "lib"
  | test => "test"
  | doc => "doc"

/-- The names that are accepted for an action. -/
def choices : Choices Action :=
  ⟨"action", [install, uninstall, lib, test, doc].map fun action => (action.name, action)⟩

end Action

/-- Optimised or for debugging. -/
inductive Mode where
  | release
  | debug
  deriving DecidableEq, Repr

namespace Mode

/-- The name of a mode. -/
def name : Mode → String
  | release => "release"
  | debug => "debug"

/-- The names that are accepted for a mode. -/
def choices : Choices Mode :=
  ⟨"mode", [release, debug].map fun mode => (mode.name, mode)⟩

end Mode

/-- The native library, or its Python binding. -/
inductive Target where
  | library
  | binding
  deriving DecidableEq, Repr

namespace Target

/-- The name of a target. -/
def name : Target → String
  | library => "aGrUM"
  | binding => "pyAgrum"

/-- The names that are accepted for a target. -/
def choices : Choices Target :=
  ⟨"target", [library, binding].map fun target => (target.name, target)⟩

end Target

/-- The threading backend. -/
inductive Threads where
  | omp
  | std
  deriving DecidableEq, Repr

namespace Threads

/-- The name of a threading library. -/
def name : Threads → String
  | omp => "omp"
  | std => "std"

/-- The names that are accepted for a threading library. -/
def choices : Choices Threads :=
  ⟨"threads", [omp, std].map fun threads => (threads.name, threads)⟩

end Threads
end BuildWarden
