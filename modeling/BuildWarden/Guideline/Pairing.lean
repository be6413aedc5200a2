import BuildWarden.Guideline.Check
import BuildWarden.Guideline.Template
/-!
# Paired headers

Every header of the library has a source unit of the same name beside it. Implementation
headers, and a few headers by name, need none. A missing unit can be made: it includes the header.
-/

namespace BuildWarden.Guideline

/-- Headers that need no source unit. -/
def unpairedHeaders : List String := ["agrum.h", "inline.h"]

/-- How the names of implementation headers end. -/
def implementationEndings : List String := ["_tpl", "_inl"]

/-- Whether a header needs a source unit. -/
def needsUnit (layout : Layout) (header : SourceFile) : Bool :=
  !isExcepted (shownName layout header) pairingExceptions
    && !unpairedHeaders.contains header.name
    && !implementationEndings.any fun ending =>
      ending.toList.isSuffixOf (Path.stem header.name).toList

/-- The name of the source unit of a header. -/
def unitName (header : SourceFile) : String :=
  Path.withExtension "cpp" header.name

/-- The text of the source unit of a header, which includes it by its path in the sources. -/
def unitText (layout : Layout) (header : SourceFile) : String :=
  unitFor (Path.relativeTo layout.sourcesDir header.path)

/-- Examines one header, making its source unit if asked to. -/
def examinePairing (settings : Console.Settings) (layout : Layout) (correct : Bool) : Examination :=
  fun header world =>
    let report (text : String) (world : World) : World :=
      world.say settings (.error ("No cpp file for [" ++ shownName layout header ++ "]" ++ text))
    if !needsUnit layout header || world.disk.isFileIn header.directory (unitName header) then
      (.fine, world)
    else if correct then
      match world.disk.writeIn header.directory (unitName header)
        (Text.Utf8.encode (unitText layout header)) with
      | .ok disk => (.violation true, report " : [added]" { world with disk })
      | .error fault =>
        (.violation false, report (" : cannot create it (" ++ fault.message ++ ")") world)
    else (.violation false, report "" world)

/-- Checks that the headers of the library are paired. -/
def checkPairing (settings : Console.Settings) (layout : Layout) (listing : Listing)
    (correct : Bool) (world : World) : CheckResult × World :=
  let headers := SourceKind.headers.sources layout listing world.disk
  let (outcomes, world) := examineAll (examinePairing settings layout correct) headers world
  (({ name := "cpp_pairing", kind := "missing cppfile" } : CheckResult).count outcomes, world)

end BuildWarden.Guideline
