import BuildWarden.Proofs.World
/-!
# Verbosity

The settings of the console decide what is shown. An action that uses them for nothing else goes the
same way under all settings: it gives the same answer, leaves the same disk and says the same
entries, of which the settings show some. Under quiet these are the errors, and what other programs
write themselves.
-/

namespace BuildWarden

/-- A line of a document, which all settings show. -/
def Console.Message.isLine : Console.Message → Bool
  | .line _ => true
  | _ => false

/-- Whether an entry is shown. What another program writes always is. -/
def Entry.shownUnder (settings : Console.Settings) : Entry → Bool
  | .message spoken => spoken.shownUnder settings
  | .bytes _ => true

@[simp]
private theorem shownUnder_message (settings : Console.Settings) (message : Console.Message) :
    (Entry.message message).shownUnder settings = message.shownUnder settings :=
  rfl

/-- The messages among entries, in order. -/
def messages (entries : List Entry) : List Console.Message :=
  entries.filterMap fun
    | .message message => some message
    | .bytes _ => none

@[simp]
private theorem messages_message (message : Console.Message) (rest : List Entry) :
    messages (.message message :: rest) = message :: messages rest :=
  rfl

/-- The messages of a transcript are its entries that are messages. -/
theorem mem_messages {entries : List Entry} {message : Console.Message} :
    message ∈ messages entries ↔ .message message ∈ entries := by
  unfold messages
  rw [List.mem_filterMap]
  constructor
  · rintro ⟨_ | _, member, same⟩
    · cases same
      exact member
    · cases same
  · exact fun member => ⟨_, member, rfl⟩

/-- The messages among what is shown are the messages that are shown. -/
theorem messages_filter (settings : Console.Settings) (entries : List Entry) :
    messages (entries.filter (·.shownUnder settings)) =
      (messages entries).filter (·.shownUnder settings) := by
  induction entries with
  | nil => rfl
  | cons entry rest ih =>
      cases entry with
      | bytes content => exact ih
      | message message =>
          by_cases shown : message.shownUnder settings = true
          · simp [shown, ih]
          · simp [shown, ih]

/-- Each message is of the given kind, and none is a line of a document. -/
def Admits (may : Console.Message → Prop) (said : List Entry) : Prop :=
  ∀ message, .message message ∈ said → may message ∧ message.isLine = false

namespace Admits
variable {may other : Console.Message → Prop} {said more : List Entry}

/-- A check that says nothing says only what is admitted. -/
theorem nil : Admits may [] := fun _ none => by cases none

/-- One message that is admitted may be said. -/
theorem singleton {message : Console.Message} (kind : may message)
    (spoken : message.isLine = false) : Admits may [.message message] := by
  intro found member
  cases List.mem_singleton.mp member
  exact ⟨kind, spoken⟩

/-- What is admitted one after the other is admitted together. -/
theorem append (first : Admits may said) (second : Admits may more) : Admits may (said ++ more) :=
  fun message member => (List.mem_append.mp member).elim (first message) (second message)

/-- What is admitted is admitted by a weaker demand. -/
theorem mono (admits : Admits may said) (weaker : ∀ message, may message → other message) :
    Admits other said :=
  fun message member => (admits message member).imp_left (weaker message)

/-- **Quiet keeps exactly the errors** of what another setting shows. -/
theorem messages_quiet (admits : Admits may said) {quiet loud : Console.Settings}
    (silent : quiet.quiet = true) :
    messages (said.filter (·.shownUnder quiet)) =
      (messages (said.filter (·.shownUnder loud))).filter (·.isError) := by
  rw [messages_filter, messages_filter, List.filter_filter]
  refine List.filter_congr fun message member => ?_
  have spoken := (admits message (mem_messages.mp member)).2
  cases message with
  | line text => cases spoken
  | _ => simp [Console.Message.shownUnder, Console.Message.isError, silent]

end Admits

variable {α β : Type}

/-- Whatever is shown and whatever was printed before, the action gives this answer and ends in this
world, and it says these entries, of which the settings show some. -/
def Goes (act : Console.Settings → World → α × World) (world : World) (answer : α) (after : World)
    (said : List Entry) : Prop :=
  ∀ settings transcript, act settings { world with transcript } =
    (answer, { after with transcript := transcript ++ said.filter (·.shownUnder settings) })

/-- From this world the action goes the same way under all settings, and it says only messages of
one kind. -/
def IndifferentAt (may : Console.Message → Prop) (act : Console.Settings → World → α × World)
    (world : World) : Prop :=
  ∃ answer after said, Goes act world answer after said ∧ Admits may said

/-- An action that is indifferent to the settings, wherever it starts. -/
def Indifferent (may : Console.Message → Prop) (act : Console.Settings → World → α × World) :
    Prop :=
  ∀ world, IndifferentAt may act world

section Goes
variable {act : Console.Settings → World → α × World}
  {next : α → Console.Settings → World → β × World} {may : Console.Message → Prop}
  {world between after : World} {answer : α} {last : β} {said more : List Entry}

/-- Saying a message appends it to the transcript, if it is shown, and does nothing else. -/
theorem say_eq (world : World) (settings : Console.Settings) (message : Console.Message) :
    world.say settings message =
      { world with
        transcript := world.transcript ++
          [Entry.message message].filter (·.shownUnder settings) } := by
  unfold World.say
  by_cases shown : message.shownUnder settings = true
  · simp [shown]
  · simp [shown]

private theorem Goes.bind (first : Goes act world answer between said)
    (second : Goes (next answer) between last after more) :
    Goes (fun settings world => next (act settings world).1 settings (act settings world).2) world
      last after (said ++ more) := by
  intro settings transcript
  simp only [first settings transcript, second settings _, List.filter_append, List.append_assoc]

/-- An action that says nothing. -/
theorem IndifferentAt.of_still (answer : α) (after : World)
    (same : ∀ settings transcript,
      act settings { world with transcript } = (answer, { after with transcript })) :
    IndifferentAt may act world :=
  ⟨answer, after, [], fun settings transcript => by simp [same], .nil⟩

/-- An action that says one message, after what other programs and actions have said. -/
theorem IndifferentAt.of_say (answer : α) (after : World) (message : Console.Message)
    (admits : Admits may said) (kind : may message) (spoken : message.isLine = false)
    (same : ∀ settings transcript, act settings { world with transcript } =
      (answer, World.say
        { after with transcript := transcript ++ said.filter (·.shownUnder settings) }
        settings message)) :
    IndifferentAt may act world := by
  refine ⟨answer, after, said ++ [.message message], fun settings transcript => ?_,
    admits.append (.singleton kind spoken)⟩
  rw [same, say_eq, List.filter_append, List.append_assoc]

end Goes

namespace Indifferent
variable {act : Console.Settings → World → α × World}
  {next : α → Console.Settings → World → β × World} {may : Console.Message → Prop}

/-- One action after the other, which may go by the answer of the first one. -/
theorem bind (first : Indifferent may act) (second : ∀ answer, Indifferent may (next answer)) :
    Indifferent may fun settings world =>
      next (act settings world).1 settings (act settings world).2 := by
  intro world
  obtain ⟨answer, between, said, goes, admits⟩ := first world
  obtain ⟨last, after, more, further, admitsToo⟩ := second answer between
  exact ⟨last, after, said ++ more, goes.bind further, admits.append admitsToo⟩

/-- An answer that needs no world does not depend on the verbosity. -/
theorem pure (answer : α) : Indifferent may fun _ world => (answer, world) :=
  fun world => .of_still answer world fun _ _ => rfl

/-- What is made of an answer depends on the verbosity no more than the answer. -/
theorem map (indifferent : Indifferent may act) (give : α → β) :
    Indifferent may fun settings world =>
      (give (act settings world).1, (act settings world).2) :=
  indifferent.bind fun answer => .pure (give answer)

/-- An action may go by what is on the disk. -/
theorem onDisk (act : Disk → Console.Settings → World → α × World)
    (each : ∀ disk, Indifferent may (act disk)) :
    Indifferent may fun settings world => act world.disk settings world :=
  fun world => each world.disk world

/-- Saying an admitted message depends on the verbosity in the transcript only. -/
theorem say (answer : α) (message : Console.Message) (kind : may message)
    (spoken : message.isLine = false) :
    Indifferent may fun settings world => (answer, world.say settings message) :=
  fun world => ⟨answer, world, [.message message], fun settings _ =>
    congrArg (Prod.mk answer) (say_eq _ settings message), .singleton kind spoken⟩

/-- One message for each item. -/
theorem sayEach (answer : α) (message : β → Console.Message) (kind : ∀ item, may (message item))
    (spoken : ∀ item, (message item).isLine = false) (items : List β) :
    Indifferent may fun settings world =>
      (answer, items.foldl (fun world item => world.say settings (message item)) world) := by
  induction items with
  | nil => exact .pure answer
  | cons item rest ih =>
      exact (say () (message item) (kind item) (spoken item)).bind fun _ => ih

/-- What another program writes is passed on under all settings. -/
theorem pass (answer : α) (content : Bytes) :
    Indifferent may fun _ world => (answer, world.pass content) := by
  intro world
  by_cases none : content.isEmpty = true
  · exact .of_still answer world fun _ _ => by simp [World.pass, none]
  · refine ⟨answer, world, [.bytes content], fun settings transcript => ?_, ?_⟩
    · simp [World.pass, none, Entry.shownUnder]
    · intro message member
      cases List.mem_singleton.mp member

/-- What behaves alike under all settings is alike indifferent. -/
theorem congr {act' : Console.Settings → World → α × World} (indifferent : Indifferent may act)
    (same : ∀ settings world, act' settings world = act settings world) : Indifferent may act' := by
  obtain rfl : act' = act := funext fun settings => funext (same settings)
  exact indifferent

end Indifferent
end BuildWarden
