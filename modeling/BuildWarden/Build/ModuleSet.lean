import BuildWarden.Text.Blank
import BuildWarden.Text.Search
import BuildWarden.Text.UpperCase
/-!
# Module sets

The modules to enable, written with `+` between the names. Names are kept in upper case, apart from
the umbrella module, whose name is recognised in any case and kept in its own spelling. A set holds
its names in increasing order and each of them once, so every line built from it is reproducible.
-/

namespace BuildWarden

/-- Modules to enable, by name, in increasing order. -/
structure ModuleSet where
  names : List String
  deriving DecidableEq, Repr

namespace ModuleSet

/-- The module that stands for all the others, as it is spelled. -/
def umbrella : String := "aGrUM"

/-- The name a token stands for. -/
def canonicalName (token : String) : String :=
  if Text.sameIgnoringCase token umbrella then umbrella else Text.upperCase token

/-- Adds a name at its place, unless it is there already. -/
def insertName (name : String) : List String → List String
  | [] => [name]
  | first :: rest =>
    if name < first then name :: first :: rest
    else if name = first then first :: rest
    else first :: insertName name rest

/-- The set of the given names. -/
def ofNames (names : List String) : ModuleSet :=
  ⟨names.foldl (fun set name => insertName name set) []⟩

/-- The names a text lists; blank tokens name nothing. -/
def tokens (text : String) : List String :=
  (List.splitOn '+' text.toList).filterMap fun piece => Text.nonBlank? (String.ofList piece)

/-- Reads names with `+` between them. -/
def parse (text : String) : ModuleSet :=
  ofNames ((tokens text).map canonicalName)

/-- The set as text that reads back as the set. -/
def shown (set : ModuleSet) : String :=
  Text.joined "+" set.names

/-- Whether the set holds the name, in exactly this spelling. -/
def contains (set : ModuleSet) (name : String) : Bool :=
  set.names.contains name

end ModuleSet
end BuildWarden
