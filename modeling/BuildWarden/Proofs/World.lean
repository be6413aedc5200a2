import BuildWarden.World
/-!
# What messages change

A message changes neither the disk nor what was handed to the host. It is written behind what was
written before, if the settings show it, and errors are always shown. What is read off the console
later, such as the commands that were shown, grows message by message in the same way.
-/

namespace BuildWarden.World

/-- Saying something leaves the disk alone. -/
@[simp]
theorem say_disk (world : World) (settings : Console.Settings) (message : Console.Message) :
    (world.say settings message).disk = world.disk := by
  unfold say
  split <;> rfl

/-- Saying something calls nothing. -/
@[simp]
theorem say_calls (world : World) (settings : Console.Settings) (message : Console.Message) :
    (world.say settings message).calls = world.calls := by
  unfold say
  split <;> rfl

/-- A message is appended to the transcript if it is shown. -/
theorem say_transcript (world : World) (settings : Console.Settings) (message : Console.Message) :
    (world.say settings message).transcript =
      world.transcript ++ if message.shownUnder settings then [.message message] else [] := by
  unfold say
  split
  · rfl
  · rw [List.append_nil]

/-- Writes messages, unless the settings hide them. -/
def sayAll (world : World) (settings : Console.Settings) (messages : List Console.Message) :
    World :=
  messages.foldl (·.say settings ·) world

/-- Saying messages leaves the disk alone. -/
@[simp]
theorem sayAll_disk (world : World) (settings : Console.Settings)
    (messages : List Console.Message) : (world.sayAll settings messages).disk = world.disk := by
  induction messages generalizing world with
  | nil => rfl
  | cons message rest ih => exact (ih _).trans (say_disk world settings message)

/-- Saying messages calls nothing. -/
@[simp]
theorem sayAll_calls (world : World) (settings : Console.Settings)
    (messages : List Console.Message) : (world.sayAll settings messages).calls = world.calls := by
  induction messages generalizing world with
  | nil => rfl
  | cons message rest ih => exact (ih _).trans (say_calls world settings message)

/-- Messages are said one after the other. -/
theorem sayAll_append (world : World) (settings : Console.Settings)
    (front back : List Console.Message) :
    world.sayAll settings (front ++ back) = (world.sayAll settings front).sayAll settings back :=
  List.foldl_append

/-- The texts on the console that are of one kind. -/
def texts (kind : Console.Message → Option String) (world : World) : List String :=
  world.transcript.filterMap fun
    | .message message => kind message
    | .bytes _ => none

private theorem texts_say (kind : Console.Message → Option String) (world : World)
    (settings : Console.Settings) (message : Console.Message) :
    (world.say settings message).texts kind =
      world.texts kind ++ if message.shownUnder settings then (kind message).toList else [] := by
  rw [texts, say_transcript, List.filterMap_append]
  split
  · cases given : kind message <;> simp [texts, given]
  · rfl

/-- The texts of a kind that were said are followed by those of the shown messages. -/
theorem texts_sayAll (kind : Console.Message → Option String) (world : World)
    (settings : Console.Settings) (messages : List Console.Message) :
    (world.sayAll settings messages).texts kind =
      world.texts kind ++ (messages.filter (·.shownUnder settings)).filterMap kind := by
  induction messages generalizing world with
  | nil => simp [sayAll]
  | cons message rest ih =>
      have later := ih (world.say settings message)
      rw [texts_say, List.append_assoc] at later
      refine later.trans (congrArg (world.texts kind ++ ·) ?_)
      cases shown : message.shownUnder settings <;> cases given : kind message <;>
        simp [shown, given]

end BuildWarden.World
