import BuildWarden.Guideline.Check
import BuildWarden.Guideline.Template
/-!
# Licences

Every library source names its licence in its first lines. Where it does not, the licence can be
written in front: it takes the place of everything up to the first end of a header comment, and
without such an end the whole content stays. Contents are bytes, so a source in any encoding
survives.
-/

namespace BuildWarden.Guideline

/-- The line feed, which ends a line. -/
def lineFeed : UInt8 := 0x0A

/-- The first lines of a content, each with its end. -/
def leadingLines (count : Nat) (content : Bytes) : Bytes :=
  let all := List.splitOn lineFeed content
  let lines := if all.getLast? = some [] then all.dropLast else all
  (lines.take count).flatMap (· ++ [lineFeed])

/-- Whether a content names its licence in its first lines. -/
def hasLicense (content : Bytes) : Bool :=
  Text.contains licenseMarker (Text.Utf8.decodeLenient (leadingLines licenseSearchLines content))

/-- What stands behind the first end of a header comment; everything if there is none. -/
def withoutHeader (content : Bytes) : Bytes :=
  (Text.afterPart? (Text.Utf8.encode headerTerminator) content).getD content

/-- The content with the licence in front. -/
def withLicense (content : Bytes) : Bytes :=
  Text.Utf8.encode licenseTemplate ++ withoutHeader content

/-- Examines one source, writing the licence if asked to. -/
def examineLicense (settings : Console.Settings) (layout : Layout) (correct : Bool) : Examination :=
  fun file world =>
    let shown := "[" ++ shownName layout file ++ "]"
    let missing := shown ++ " has no LGPL copyright in its first lines"
    if isExcepted (shownName layout file) licenseExceptions then (.fine, world)
    else
      match contentAt world.disk file.location with
      | .error fault =>
        (.fine, world.say settings (.error (shown ++ " could not be read: " ++ fault.message)))
      | .ok content =>
        if hasLicense content then (.fine, world)
        else if correct then
          match world.disk.writeIn file.directory file.name (withLicense content) with
          | .ok disk =>
            (.violation true,
              ({ world with disk } : World).say settings (.notice (missing ++ " : [changed]")))
          | .error fault =>
            (.violation false,
              world.say settings (.error (shown ++ " could not be rewritten: " ++ fault.message)))
        else (.violation false, world.say settings (.notice missing))

/-- Checks that the library sources name their licence. -/
def checkLicense (settings : Console.Settings) (layout : Layout) (listing : SourceKind → Listing)
    (correct : Bool) (world : World) : CheckResult × World :=
  let (outcomes, world) :=
    examineKinds (examineLicense settings layout correct) layout listing SourceKind.all world
  (({ name := "license", kind := "missing LGPL licence" } : CheckResult).count outcomes, world)

/-- Whether the file at a path names its licence. -/
def fileHasLicense (disk : Disk) (path : String) : Except OsFault Bool := do
  return hasLicense (← disk.read path)

/-- Writes the licence into the file at a path. -/
def addLicense (disk : Disk) (path : String) : Except OsFault Disk := do
  disk.write path (withLicense (← disk.read path))

end BuildWarden.Guideline
