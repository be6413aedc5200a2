import BuildWarden.Shell.Edit
import BuildWarden.Text.Lines
/-!
# Programs of the host

The programs that lines and scripts may count on being there, as far as they are of use to a build:
reading, editing and moving files, and looking at texts.
-/

namespace BuildWarden.Shell.Utilities

/-- Complains about one file. -/
def complainOf (utility what : String) (fault : OsFault) (state : State) : State :=
  state.complain (utility ++ ": " ++ what ++ ": " ++ fault.words)

/-- The letters of options in front, and the other words. -/
def options : List String → List Char × List String
  | "--" :: rest => ([], rest)
  | word :: rest =>
    match word.toList with
    | '-' :: c :: letters =>
      let (others, words) := options rest
      (c :: letters ++ others, words)
    | _ => ([], word :: rest)
  | [] => ([], [])

/-- Applies a change to each of some paths; the status is one if any of them fails. -/
def forEach (change : String → State → Except State State) : List String → Nat × State → Nat × State
  | [], result => result
  | path :: rest, (status, state) =>
    match change path state with
    | .ok state => forEach change rest (status, state)
    | .error state => forEach change rest (1, state)

/-- The contents of files, or of the usual input if no file is named. -/
def contents (utility : String) (paths : List String) (state : State) :
    Nat × List Bytes × State :=
  if paths.isEmpty then
    let (bytes, state) := state.readInput
    (0, [bytes], state)
  else
    paths.foldl (fun (status, found, state) path =>
      if path = "-" then
        let (bytes, state) := state.readInput
        (status, found ++ [bytes], state)
      else
        match state.disk.read path with
        | .ok bytes => (status, found ++ [bytes], state)
        | .error fault => (1, found, complainOf utility path fault state)) (0, [], state)

/-- A program that reads texts and writes what a function makes of them. -/
def filter (utility : String) (paths : List String) (change : Bytes → Bytes) (state : State) :
    Nat × State :=
  let (status, found, state) := contents utility paths state
  (status, state.write 1 (change found.flatten))

/-- Writes files one after the other. -/
def cat : Utility := fun words state =>
  let paths := (options words).2
  forEach (fun path state =>
    if path = "-" then
      let (bytes, state) := state.readInput
      .ok (state.write 1 bytes)
    else
      match state.disk.read path with
      | .ok bytes => .ok (state.write 1 bytes)
      | .error fault => .error (complainOf "cat" path fault state))
    (if paths.isEmpty then ["-"] else paths) (0, state)

/-- The lines of a content, without their ends. -/
def linesOf (bytes : Bytes) : List Bytes :=
  let all := List.splitOn 10 bytes
  if all.getLast? = some [] then all.dropLast else all

/-- Lines with their ends. -/
def unlines (lines : List Bytes) : Bytes :=
  lines.flatMap (· ++ [10])

/-- The number behind an option with the given letter, and the other words. -/
def numberOption (letter : Char) (usual : Nat) : List String → Nat × List String
  | word :: rest =>
    match word.toList with
    | '-' :: digits =>
      let digits := if digits.head? = some letter then digits.drop 1 else digits
      if digits.isEmpty then ((rest.head?.bind String.toNat?).getD usual, rest.drop 1)
      else ((String.ofList digits).toNat?.getD usual, rest)
    | _ => (usual, word :: rest)
  | [] => (usual, [])

/-- Writes the first lines. -/
def head : Utility := fun words state =>
  let (count, paths) := numberOption 'n' 10 words
  filter "head" paths (fun bytes => unlines ((linesOf bytes).take count)) state

/-- Writes the last lines, or those from a line on. -/
def tail : Utility := fun words state =>
  let (skipped, words) := match words with
    | "-n" :: word :: rest =>
      match word.toList with
      | '+' :: digits => ((String.ofList digits).toNat?, rest)
      | _ => (none, words)
    | words => (none, words)
  let (count, paths) := numberOption 'n' 10 words
  filter "tail" paths (fun bytes =>
    let lines := linesOf bytes
    unlines (lines.drop (match skipped with
      | some first => first - 1
      | none => lines.length - count))) state

/-- Compares the texts of lines byte by byte. -/
def lineLe : (first second : Bytes) → Bool
  | [], _ => true
  | _ :: _, [] => false
  | a :: first, b :: second => a < b || (a == b && lineLe first second)

/-- The number at the start of a line. -/
def numberIn (line : Bytes) : Int :=
  let text := (Edit.charsOf line).dropWhile fun c => c = ' ' || c = '\t'
  let (negative, text) := match text with
    | '-' :: rest => (true, rest)
    | text => (false, text)
  let value : Int := Edit.numberOf (text.takeWhile (·.isDigit))
  if negative then -value else value

/-- Writes the lines in order. -/
def sort : Utility := fun words state =>
  let (letters, paths) := options words
  filter "sort" paths (fun bytes =>
    let sorted := (linesOf bytes).mergeSort fun first second =>
      if letters.contains 'n' && numberIn first != numberIn second then
        numberIn first ≤ numberIn second
      else lineLe first second
    let kept := if letters.contains 'u' then sorted.eraseDups else sorted
    unlines (if letters.contains 'r' then kept.reverse else kept)) state

/-- The number of words in a content. -/
def countWords (bytes : Bytes) : Nat :=
  ((Text.Utf8.decodeLenient bytes).splitOn "\n").foldl (fun count line =>
    count + ((line.splitOn " ").filter (· != "")).length) 0

/-- The counts of a content that letters ask for: lines, words and bytes. -/
def countsOf (letters : List Char) (bytes : Bytes) : List Nat :=
  let counts := [('l', bytes.count 10), ('w', countWords bytes), ('c', bytes.length)]
  let letters := if letters.isEmpty then ['l', 'w', 'c'] else letters
  (counts.filter fun (letter, _) => letters.contains letter).map (·.2)

/-- Counts lines, words and bytes. -/
def wc : Utility := fun words state =>
  let (letters, paths) := options words
  if paths.isEmpty then
    let (bytes, state) := state.readInput
    let counts := countsOf letters bytes
    let width := if counts.length = 1 then 0 else 7
    let columns := counts.map fun count =>
      String.ofList (Builtins.padded false width (toString count).toList)
    (0, state.print (Text.joined " " columns ++ "\n"))
  else
    let (status, found, state) := contents "wc" paths state
    let width := if paths.length = 1 && letters.length = 1 then 0
      else (toString found.flatten.length).length
    let row (counts : List Nat) (name : String) : String :=
      let columns := counts.map fun count =>
        String.ofList (Builtins.padded false width (toString count).toList)
      Text.joined " " (columns ++ [name]) ++ "\n"
    let rows := (found.zip paths).map fun (bytes, path) => row (countsOf letters bytes) path
    let total := if paths.length = 1 then [] else [row (countsOf letters found.flatten) "total"]
    (status, state.print (String.join (rows ++ total)))

/-- Writes the lines that an expression describes. -/
def grep : Utility := fun words state =>
  let (letters, rest) := options words
  match rest with
  | [] => (2, state.complain "Usage: grep [OPTION]... PATTERNS [FILE]...")
  | pattern :: paths =>
    let folded (chars : List Char) : List Char :=
      if letters.contains 'i' then chars.map Char.toLower else chars
    let sought := folded (Edit.charsOf (Text.Utf8.encode pattern))
    let described : Option (List Char → Bool) :=
      if letters.contains 'F' then some fun line => Text.hasPart sought line
      else (Expression.read? (letters.contains 'E') sought).map Expression.isIn
    match described with
    | none => (2, state.complain "grep: Invalid regular expression")
    | some described =>
      let (status, found, state) := contents "grep" paths state
      let several := paths.length > 1
      let names := if paths.isEmpty then ["(standard input)"] else paths
      let report (content : Bytes) (path : String) : Bool × Bytes :=
        let kept := ((linesOf content).zipIdx 1).filter fun (line, _) =>
          described (folded (Edit.charsOf line)) != letters.contains 'v'
        let front := if several then path ++ ":" else ""
        let shown (line : Bytes) (number : Nat) : Bytes :=
          Text.Utf8.encode (front ++ if letters.contains 'n' then toString number ++ ":" else "")
            ++ line
        (!kept.isEmpty,
          if letters.contains 'q' then []
          else if letters.contains 'l' then
            if kept.isEmpty then [] else Text.Utf8.encode (path ++ "\n")
          else if letters.contains 'c' then
            Text.Utf8.encode (front ++ toString kept.length ++ "\n")
          else unlines (kept.map fun (line, number) => shown line number))
      let reports := (found.zip names).map fun (content, path) => report content path
      let any := reports.any (·.1)
      (if status != 0 && !(any && letters.contains 'q') then 2 else if any then 0 else 1,
        state.write 1 (reports.flatMap (·.2)))

/-- The characters of a set as it is written, ranges put in. -/
def characterSet : List Char → List Char
  | first :: '-' :: last :: rest =>
    (List.range (last.toNat + 1 - first.toNat)).map (fun n => Char.ofNat (first.toNat + n))
      ++ characterSet rest
  | '\\' :: 'n' :: rest => '\n' :: characterSet rest
  | '\\' :: 't' :: rest => '\t' :: characterSet rest
  | '\\' :: 'r' :: rest => '\r' :: characterSet rest
  | '[' :: ':' :: rest =>
    let name := rest.takeWhile Char.isAlpha
    (List.range 256).map Char.ofNat |>.filter (Expression.namedClass name)
  | '\\' :: c :: rest => c :: characterSet rest
  | c :: rest => c :: characterSet rest
  | [] => []

/-- Runs of a character that is in a set become one. -/
def squeeze (within : Char → Bool) : List Char → List Char
  | first :: second :: rest =>
    if first = second && within first then squeeze within (second :: rest)
    else first :: squeeze within (second :: rest)
  | text => text

/-- Puts characters in place of others, or takes them out. -/
def exchange : Utility := fun words state =>
  let (letters, sets) := options words
  let old := characterSet ((sets.headD "").toList)
  let new := characterSet ((sets.getD 1 "").toList)
  let within (c : Char) : Bool := old.contains c != (letters.contains 'c' || letters.contains 'C')
  let (bytes, state) := state.readInput
  let out := (Edit.charsOf bytes).filterMap fun c =>
    if letters.contains 'd' then if within c then none else some c
    else if !within c || sets.length < 2 then some c
    else
      match old.idxOf? c with
      | some place => some ((new[place]?).getD (new.getLastD c))
      | none => new.getLast?
  let last (c : Char) : Bool := if sets.length < 2 then within c else new.contains c
  let out := if letters.contains 's' then squeeze last out else out
  (0, state.write 1 (Edit.bytesOf out))

/-- The words of a stream editor: whether it edits files in place, whether it prints only what it is
told to, its scripts, and the other words. -/
structure EditorWords where
  inPlace : Bool := false
  silent : Bool := false
  extended : Bool := false
  scripts : List String := []
  others : List String := []

/-- Reads the words of a stream editor. -/
def editorWords : List String → EditorWords
  | "-i" :: rest => { editorWords rest with inPlace := true }
  | "-n" :: rest => { editorWords rest with silent := true }
  | "-ni" :: rest | "-in" :: rest => { editorWords rest with inPlace := true, silent := true }
  | "-E" :: rest | "-r" :: rest => { editorWords rest with extended := true }
  | "--" :: rest | "-s" :: rest | "-u" :: rest => editorWords rest
  | "-e" :: script :: rest =>
    let read := editorWords rest
    { read with scripts := script :: read.scripts }
  | word :: rest =>
    let read := editorWords rest
    { read with others := word :: read.others }
  | [] => {}

/-- Edits the lines of files, perhaps in place. -/
def editStream : Utility := fun words state =>
  let read := editorWords words
  let (scripts, paths) := if read.scripts.isEmpty then (read.others.take 1, read.others.drop 1)
    else (read.scripts, read.others)
  if scripts.isEmpty then
    (1, state.complain
      "Usage: sed [OPTION]... \x7bscript-only-if-no-other-script\x7d [input-file]...")
  else
    let text := Edit.charsOf (Text.Utf8.encode (Text.joined "\n" scripts))
    match Edit.steps? (text.length + 1) read.extended text with
    | none =>
      let place := "sed: -e expression #1, char " ++ toString text.length ++ ": "
      (1, state.complain (place ++ if text.head? = some 's' then "unterminated \x60s' command"
        else "unknown command: \x60" ++ String.ofList (text.take 1) ++ "'"))
    | some steps =>
      let refuse (path : String) (fault : OsFault) (state : State) : State :=
        match fault with
        | .isDirectory =>
          state.complain (if read.inPlace then
              "sed: couldn't edit " ++ path ++ ": not a regular file"
            else "sed: couldn't read " ++ path ++ ": " ++ fault.words)
        | fault => state.complain ("sed: can't read " ++ path ++ ": " ++ fault.words)
      if read.inPlace then
        let (status, state) := forEach (fun path state =>
          let edited := (state.disk.read path).bind fun bytes =>
            state.disk.write path (Edit.edit read.silent steps bytes)
          match edited with
          | .ok disk => .ok { state with disk }
          | .error fault => .error (refuse path fault state)) paths (0, state)
        (if status = 0 then 0 else 2, state)
      else if paths.isEmpty then
        let (bytes, state) := state.readInput
        (0, state.write 1 (Edit.edit read.silent steps bytes))
      else
        let (found, state, status) := paths.foldl (fun (found, state, status) path =>
          match state.disk.read path with
          | .ok bytes => (found ++ [bytes], state, status)
          | .error fault => (found, refuse path fault state, 2)) ([], state, 0)
        let whole := (found.dropLast.flatMap fun bytes => unlines (linesOf bytes))
          ++ found.getLastD []
        (status, state.write 1 (Edit.edit read.silent steps whole))

/-- Applies an operation of the disk to each path. -/
def onDisk (utility what : String) (change : Disk → String → Except OsFault Disk)
    (paths : List String) (state : State) : Nat × State :=
  forEach (fun path state =>
    match change state.disk path with
    | .ok disk => .ok { state with disk }
    | .error fault => .error (complainOf utility (what ++ " '" ++ path ++ "'") fault state))
    paths (0, state)

/-- Makes the files that are not there. -/
def touch : Utility := fun words state =>
  onDisk "touch" "cannot touch" (fun disk path =>
    if disk.isThere path then .ok disk else disk.write path []) (options words).2 state

/-- Makes directories; `-p` makes those above them as well. -/
def makeDirectory : Utility := fun words state =>
  let (letters, paths) := options words
  onDisk "mkdir" "cannot create directory" (fun disk path =>
    if letters.contains 'p' then
      match disk.makeDirs path with
      | (disk, none) => .ok disk
      | (_, some fault) => .error fault
    else
      match disk.locate false path with
      | .ok (.vacant location) =>
        .ok { disk with tree := disk.tree.put location (.dir .empty) }
      | .ok (.taken _ _) => .error .exists
      | .error fault => .error fault) paths state

/-- Removes files; `-r` removes directories, and `-f` takes what is not there. -/
def remove : Utility := fun words state =>
  let (letters, paths) := options words
  let forced := letters.contains 'f'
  let deep := letters.contains 'r' || letters.contains 'R'
  onDisk "rm" "cannot remove" (fun disk path =>
    match disk.locate false path with
    | .ok (.taken _ (.dir _)) =>
      if deep then
        match disk.removeTree path with
        | (disk, none) => .ok disk
        | (_, some fault) => .error fault
      else .error .isDirectory
    | .ok (.taken location _) => .ok { disk with tree := disk.tree.erase location }
    | .ok (.vacant _) => if forced then .ok disk else .error .missing
    | .error fault => if forced then .ok disk else .error fault) paths state

/-- Removes empty directories. -/
def removeDirectory : Utility := fun words state =>
  onDisk "rmdir" "failed to remove" (fun disk path =>
    match disk.locate false path with
    | .ok (.taken location (.dir .empty)) =>
      .ok { disk with tree := disk.tree.erase location }
    | .ok (.taken _ (.dir _)) => .error .notEmpty
    | .ok (.taken _ _) => .error .notDirectory
    | .ok (.vacant _) => .error .missing
    | .error fault => .error fault) (options words).2 state

/-- The last name of a path. -/
def lastName (path : String) : String :=
  String.ofList ((Path.names path).getLastD [])

/-- The path of a copy: below a directory, the copy keeps its name. -/
def destination (disk : Disk) (source target : String) : String :=
  if disk.isDir target then Path.join target (lastName source) else target

/-- Puts an item where a path leads. -/
def putAt (disk : Disk) (path : String) (item : Item) : Except OsFault Disk :=
  match disk.locate false path with
  | .ok (.taken location _) | .ok (.vacant location) =>
    .ok { disk with tree := disk.tree.put location item }
  | .error fault => .error fault

/-- Copies files; `-r` copies directories. -/
def copy : Utility := fun words state =>
  let (letters, paths) := options words
  let target := paths.getLastD ""
  let deep := letters.any fun letter => ['r', 'R', 'a'].contains letter
  forEach (fun source state =>
    match state.disk.open? source with
    | .error fault => .error (complainOf "cp" ("cannot stat '" ++ source ++ "'") fault state)
    | .ok (_, item) =>
      if !deep && item matches .dir _ then
        .error (state.complain ("cp: -r not specified; omitting directory '" ++ source ++ "'"))
      else
        match putAt state.disk (destination state.disk source target) item with
        | .ok disk => .ok { state with disk }
        | .error fault =>
          .error (complainOf "cp" ("cannot create regular file '" ++ target ++ "'") fault state))
    paths.dropLast (0, state)

/-- Moves files and directories. -/
def move : Utility := fun words state =>
  let paths := (options words).2
  let target := paths.getLastD ""
  onDisk "mv" "cannot stat" (fun disk source =>
    match disk.locate false source with
    | .ok (.taken location item) =>
      putAt { disk with tree := disk.tree.erase location } (destination disk source target) item
    | .ok (.vacant _) => .error .missing
    | .error fault => .error fault) paths.dropLast state

/-- Makes a symbolic link. -/
def link : Utility := fun words state =>
  match (options words).2 with
  | [source, target] =>
    onDisk "ln" "failed to create symbolic link" (fun disk target =>
      match disk.locate false target with
      | .ok (.vacant location) =>
        .ok { disk with tree := disk.tree.put location (.leaf (.link source)) }
      | .ok (.taken _ _) => .error .exists
      | .error fault => .error fault) [destination state.disk source target] state
  | _ => (1, state.complain "ln: missing file operand")

/-- Makes files programs, or no longer programs. -/
def changeMode : Utility := fun words state =>
  match words with
  | mode :: paths =>
    let executable := (mode.toList.contains 'x' && mode.toList.contains '+')
      || mode.toList.any fun c => ['1', '3', '5', '7'].contains c
    onDisk "chmod" "cannot access" (fun disk path => do
      let (location, item) ← disk.open? path
      match item with
      | .leaf (.file content _) =>
        return { disk with tree := disk.tree.put location (.leaf (.file content executable)) }
      | _ => return disk) paths state
  | [] => (1, state.complain "chmod: missing operand")

/-- Lists directories in the order of the names. -/
def list : Utility := fun words state =>
  let (letters, paths) := options words
  let shown (inside : Tree) : List String :=
    let names := inside.entries.map Prod.fst
    let all := if letters.contains 'a' then "." :: ".." :: names else names
    (all.filter fun name =>
      letters.contains 'a' || letters.contains 'A' || name.toList.head? != some '.').mergeSort
        fun first second => decide (first ≤ second)
  let (status, state) := forEach (fun path state =>
    match state.disk.open? path with
    | .ok (_, .dir inside) =>
      if letters.contains 'd' then .ok (state.print (path ++ "\n"))
      else .ok (state.print (String.join ((shown inside).map (· ++ "\n"))))
    | .ok (_, .leaf _) => .ok (state.print (path ++ "\n"))
    | .error fault => .error (complainOf "ls" ("cannot access '" ++ path ++ "'") fault state))
    (if paths.isEmpty then ["."] else paths) (0, state)
  (2 * status, state)

/-- Writes the last name of a path, perhaps without an ending. -/
def baseName : Utility := fun words state =>
  let name := lastName (words.headD "")
  let ending := words.getD 1 ""
  let kept := if ending.toList.isSuffixOf name.toList && name != ending then
      String.ofList (name.toList.take (name.length - ending.length))
    else name
  (0, state.print (kept ++ "\n"))

/-- Writes a path without its last name. -/
def directoryName : Utility := fun words state =>
  let parts := (Path.pieces (words.headD "")).reverse.dropWhile (·.isEmpty)
  let front := ((parts.drop 1).dropWhile (·.isEmpty)).reverse
  let absolute := Path.isAbsolute (words.headD "")
  let shown := String.ofList (Path.shown front)
  (0, state.print ((if shown.isEmpty then if absolute then "/" else "." else shown) ++ "\n"))

/-- Writes the numbers of a sequence. -/
def sequence : Utility := fun words state =>
  let numbers := words.filterMap String.toInt?
  let (first, step, last) : Int × Int × Int := match numbers with
    | [last] => (1, 1, last)
    | [first, last] => (first, 1, last)
    | [first, step, last] => (first, step, last)
    | _ => (1, 1, 0)
  let count := if step = 0 then 0 else ((last - first) / step + 1).toNat
  (0, state.print (String.join ((List.range count).map fun (n : Nat) =>
    toString (first + step * n) ++ "\n")))

/-- Writes what it reads to files as well. -/
def tee : Utility := fun words state =>
  let (letters, paths) := options words
  let (bytes, state) := state.readInput
  let state := state.write 1 bytes
  onDisk "tee" "cannot open" (fun disk path =>
    let before := if letters.contains 'a' then (disk.read path).toOption.getD [] else []
    disk.write path (before ++ bytes)) paths state

/-- The status of a program that does not know one of its options. -/
def misuseStatus (name : String) : Nat :=
  if ["grep", "ls", "sort"].contains name then 2 else 1

/-- A program that knows no long options. -/
def withoutLongOptions (name : String) (utility : Utility) : String × Utility :=
  (name, fun words state =>
    match (words.takeWhile (· != "--")).find? (·.startsWith "--") with
    | some word =>
      (misuseStatus name,
        (state.complain (name ++ ": unrecognized option '" ++ word ++ "'")).complain
          ("Try '" ++ name ++ " --help' for more information."))
    | none => utility words state)

/-- The programs whose words are options and names. -/
def optionPrograms : List (String × Utility) :=
  [("cat", cat), ("head", head), ("tail", tail), ("sort", sort), ("wc", wc), ("grep", grep),
    ("tr", exchange), ("sed", editStream), ("touch", touch), ("mkdir", makeDirectory),
    ("rm", remove), ("rmdir", removeDirectory), ("cp", copy), ("mv", move), ("ln", link),
    ("chmod", changeMode), ("ls", list), ("basename", baseName), ("dirname", directoryName),
    ("seq", sequence), ("tee", tee), ("sleep", fun _ state => (0, state))]

/-- The programs by name. -/
def programs : List (String × Utility) :=
  (optionPrograms.map fun (name, utility) => withoutLongOptions name utility)
  ++ [("echo", Builtins.echo), ("printf", Builtins.printf), ("test", Builtins.test),
    ("[", Builtins.bracketTest), ("pwd", Builtins.printDirectory),
    ("true", fun _ state => (0, state)), ("false", fun _ state => (1, state))]

end BuildWarden.Shell.Utilities
