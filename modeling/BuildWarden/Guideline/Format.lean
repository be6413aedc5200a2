import BuildWarden.Guideline.Check
import BuildWarden.Text.Lines
/-!
# Formatting

A formatter says how a source should read. A source that reads differently is a violation, and the
formatter can be asked to change it in place.
-/

namespace BuildWarden.Guideline

/-- A formatter of sources. -/
structure Formatter where
  name : String
  /-- Whether it can run on this host -/
  available : Bool
  /-- The text a source should have, or why there is none -/
  reformat : SourceFile → World → Except String String × World
  /-- Gives a source the text it should have, or says why that failed -/
  apply : SourceFile → World → Except String Unit × World

/-- Examines one source, changing it if asked to. -/
def examineFormat (settings : Console.Settings) (layout : Layout) (formatter : Formatter)
    (correct : Bool) : Examination :=
  fun file world =>
    let shown := "[" ++ shownName layout file ++ "]"
    let refuse (what reason : String) (world : World) : World :=
      world.say settings (.error (shown ++ " could not be " ++ what ++ ": " ++ reason))
    if isExcepted (shownName layout file) formatExceptions then (.fine, world)
    else
      match formatter.reformat file world with
      | (.error reason, world) => (.fine, refuse "formatted" reason world)
      | (.ok formatted, world) =>
        match contentAt world.disk file.location with
        | .error fault => (.fine, refuse "read" fault.message world)
        | .ok content =>
          let current := Text.Utf8.decodeLenient content
          let found := shown ++ " not correctly formatted ("
            ++ toString (Text.changedLines current formatted) ++ " lines)"
          if current = formatted then
            (.fine, world.say settings (.progress ("[" ++ file.name ++ "] OK")))
          else if correct then
            match formatter.apply file world with
            | (.ok (), world) =>
              (.violation true, world.say settings (.notice (found ++ " : [changed]")))
            | (.error reason, world) => (.violation false, refuse "rewritten" reason world)
          else (.violation false, world.say settings (.notice found))

/-- Checks that the library sources read as the formatter says. -/
def checkFormat (settings : Console.Settings) (layout : Layout) (formatter : Formatter)
    (listing : SourceKind → Listing) (correct : Bool) (world : World) : CheckResult × World :=
  let result : CheckResult := { name := "format", kind := "format" }
  if formatter.available then
    let (outcomes, world) :=
      examineKinds (examineFormat settings layout formatter correct) layout listing
        SourceKind.all world
    (result.count outcomes, world)
  else
    ({ result with skipped := true },
      world.say settings (.error ("No correct [" ++ formatter.name ++ "] tool has been found.")))

end BuildWarden.Guideline
