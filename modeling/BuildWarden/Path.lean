import BuildWarden.Text.Search
/-!
# Paths

Paths are texts and nothing in them is normalised: joining appends, and a path is shown as it was
written. Only `relativeTo` reads a path by its components, for which doubled slashes and single dots
behind the first component do not count.
-/

namespace BuildWarden.Path

/-- A path that starts at the root. -/
def isAbsolute (path : String) : Bool :=
  ['/'].isPrefixOf path.toList

/-- A path below another one. An absolute path stands for itself. -/
def join (base path : String) : String :=
  if isAbsolute path then path
  else if base.isEmpty || ['/'].isSuffixOf base.toList then base ++ path
  else base ++ "/" ++ path

/-- What stands between the slashes. -/
def pieces (path : String) : List (List Char) :=
  List.splitOn '/' path.toList

/-- A piece that names nothing. -/
def isIdle (piece : List Char) : Bool :=
  piece.isEmpty || piece == ['.']

/-- The sequence without idle pieces at its end. -/
def dropIdleEnd (parts : List (List Char)) : List (List Char) :=
  (parts.reverse.dropWhile isIdle).reverse

/-- Where a path starts. -/
inductive Start where
  | root
  | here
  | inside
  deriving DecidableEq, Repr

/-- Where the path starts, and the pieces behind that. -/
def opened (path : String) : Start × List (List Char) :=
  if path.isEmpty then (.inside, [])
  else
    match pieces path with
    | [] :: rest => (.root, rest)
    | ['.'] :: rest => (.here, rest)
    | all => (.inside, all)

/-- The names in a path, in order. -/
def names (path : String) : List (List Char) :=
  (opened path).2.filter (!isIdle ·)

/-- The pieces behind the given names, if the path leads through them. -/
def behind? : (names parts : List (List Char)) → Option (List (List Char))
  | [], parts => some parts
  | _ :: _, [] => none
  | name :: names, piece :: parts =>
    if isIdle piece then behind? (name :: names) parts
    else if name == piece then behind? names parts
    else none

/-- Pieces with slashes between them. -/
def shown (parts : List (List Char)) : List Char :=
  ['/'].intercalate parts

/-- What is left of the path behind the components of `base`; nothing if they are not in front. -/
def strip? (base path : String) : Option (List Char) :=
  let (baseStart, _) := opened base
  let (start, parts) := opened path
  if baseStart = .inside && (names base).isEmpty then
    match start with
    | .root => some ('/' :: shown (dropIdleEnd parts))
    | .here => some (shown (['.'] :: dropIdleEnd parts))
    | .inside => some (shown (dropIdleEnd parts))
  else if baseStart = start then
    (behind? (names base) parts).map fun rest => shown (dropIdleEnd (rest.dropWhile isIdle))
  else none

/-- The path relative to `base` for display: backslashes become slashes, and a path that is not
below `base` is shown whole. -/
def relativeTo (base path : String) : String :=
  let kept := (strip? base path).getD path.toList
  String.ofList (kept.map fun c => if c = '\\' then '/' else c)

/-- The name before its last dot. A dot in front does not count. -/
def stem (name : String) : String :=
  match Text.cutAt? '.' name.toList.reverse with
  | some (_, []) | none => name
  | some (_, front) => String.ofList front.reverse

/-- The name with another extension. -/
def withExtension (extension name : String) : String :=
  stem name ++ "." ++ extension

end BuildWarden.Path
