import BuildWarden.Console.Message
import BuildWarden.Tree.Disk
/-!
# Worlds

What commands act on: a disk, what was written to the console so far, and the command lines that
were handed to the host. Messages that the settings hide are never written, so what a command does
to the disk cannot depend on what it says.
-/

namespace BuildWarden

/-- Something written to the console: a message, or what another program wrote there itself. -/
inductive Entry where
  | message (message : Console.Message)
  | bytes (bytes : Bytes)
  deriving DecidableEq, Repr

/-- A command line handed to the host, the directory for it, and whether that was there. -/
structure Call where
  line : String
  directory : String
  present : Bool
  deriving DecidableEq, Repr

/-- What commands act on. -/
structure World where
  disk : Disk
  transcript : List Entry := []
  calls : List Call := []

namespace World

/-- Writes a message, unless the settings hide it. -/
def say (world : World) (settings : Console.Settings) (message : Console.Message) : World :=
  if message.shownUnder settings then
    { world with transcript := world.transcript ++ [.message message] }
  else world

/-- Passes on what another program writes. -/
def pass (world : World) (bytes : Bytes) : World :=
  if bytes.isEmpty then world else { world with transcript := world.transcript ++ [.bytes bytes] }

/-- The bytes on the console, without colours. -/
def consoleBytes (world : World) : Bytes :=
  world.transcript.flatMap fun
    | .message message =>
      (message.render false).flatMap fun line => line.flatMap String.utf8EncodeChar ++ [0x0A]
    | .bytes bytes => bytes

end World
end BuildWarden
