import SqlTokens.CommandLine.Argument
import SqlTokens.CommandLine.Menu
import SqlTokens.Settings.Basic

/-!
# Reading a command line

The arguments are read in order, and the menu that is open decides what they mean. The word of a
command opens its menu for all arguments that follow. What an option or an operand was given is not
looked at before the next option or operand has been recognised, or before the arguments end; so an
argument that means nothing is reported first. The slots of a menu are completed after those of the
menu that it opened.
-/

namespace SqlTokens

namespace CommandLine

/-- What has been read at a menu: the slots that are filled, and the slot that waits, for its value
or for its value to be looked at. -/
structure Reading where
  filled : List (Slot × List Char)
  waiting? : Option (Slot × Option (List Char))
  deriving DecidableEq, Repr

namespace Reading

/-- Nothing has been read. -/
def empty : Reading := ⟨[], none⟩

/-- Whether the next word is the value of an option. -/
def wantsValue (reading : Reading) : Bool :=
  reading.waiting?.any (·.2.isNone)

/-- Whether a slot is filled or waits. -/
def mentions (reading : Reading) (slot : Slot) : Bool :=
  reading.filled.any (·.1 = slot) || reading.waiting?.any (·.1 = slot)

/-- Fill a slot. -/
def fill (reading : Reading) (slot : Slot) (value : List Char) : Except Notice Reading :=
  if reading.filled.any (·.1 = slot) then .error .repeatedArgument
  else if slot.isPath && value.isEmpty then .error .badValue
  else .ok { reading with filled := (slot, value) :: reading.filled }

/-- Let a slot wait. -/
def await (reading : Reading) (slot : Slot) (value? : Option (List Char)) : Reading :=
  { reading with waiting? := some (slot, value?) }

/-- Fill the slot that waits. -/
def settle (reading : Reading) : Except Notice Reading :=
  match reading.waiting? with
  | none => .ok reading
  | some (_, none) => .error .badValue
  | some (slot, some value) => ({ reading with waiting? := none } : Reading).fill slot value

/-- An option was recognised. `value?` is the value attached to it. -/
def apply (reading : Reading) (effect : Effect) (value? : Option (List Char)) :
    Except Notice Reading := do
  let reading ← reading.settle
  match effect, value? with
  | .notify notice, _ => .error notice
  | .mark slot, _ => reading.fill slot []
  | .fill slot, some value => reading.fill slot value
  | .fill slot, none => .ok (reading.await slot none)

/-- Read an option that is named in full. -/
def long (menu : Menu) (reading : Reading) (name : List Char) (value? : Option (List Char)) :
    Except Notice Reading :=
  match menu.long? name, value? with
  | none, _ => .error .unknownArgument
  | some (.fill slot), _ => reading.apply (.fill slot) value?
  | some _, some _ => .error .unwantedValue
  | some effect, none => reading.apply effect none

/-- Read a cluster of options. An option that takes a value takes the rest of the cluster. -/
def cluster (menu : Menu) (reading : Reading) : List Char → Except Notice Reading
  | [] => .ok reading
  | letter :: letters =>
    match menu.letter? letter with
    | none => .error .unknownArgument
    | some (.fill slot) => reading.apply (.fill slot) (clusterValue? letters)
    | some effect => do cluster menu (← reading.apply effect none) letters

/-- Read an operand. -/
def operand (menu : Menu) (reading : Reading) (behindDashes : Bool) (word : List Char) :
    Except Notice Reading :=
  match menu.operand? with
  | none => .error (menu.stray behindDashes word)
  | some slot =>
    if reading.mentions slot then .error (menu.stray behindDashes word)
    else do pure ((← reading.settle).await slot (some word))

/-- Read a plain word, which is the value of an option if an option waits for one. -/
def plain (menu : Menu) (reading : Reading) (word : List Char) : Except Notice Reading :=
  match reading.waiting? with
  | some (slot, none) => .ok (reading.await slot (some word))
  | _ => reading.operand menu false word

/-- Read an argument that opens no menu. Two dashes alone say nothing about this menu. -/
def argument (menu : Menu) (reading : Reading) : Argument → Except Notice Reading
  | .dashes => .ok reading
  | .long name value? => reading.long menu name value?
  | .cluster letters => reading.cluster menu letters
  | .plain word => reading.plain menu word

/-- The menu that a word opens. The value of an option opens none. -/
def opens? (menu : Menu) (reading : Reading) (text : List Char) : Option Menu :=
  if reading.wantsValue then none else menu.command? text

/-- The value of a slot. -/
def value? (reading : Reading) (slot : Slot) : Option (List Char) :=
  reading.filled.lookup slot

/-- Whether a slot is filled. -/
def has (reading : Reading) (slot : Slot) : Bool :=
  (reading.value? slot).isSome

/-- The command that the slots of a menu amount to. -/
def command (menu : Menu) (reading : Reading) : Except Notice Command :=
  match menu with
  | .top | .config => .error (if reading.filled.isEmpty then .nothingAsked menu else .noCommand)
  | .tokenize =>
    .ok (.tokenize (reading.value? .inputFile) (reading.has .skipSundry) (reading.value? .format))
  | .stats => .ok (.stats (reading.value? .inputFile) (reading.has .skipSundry))
  | .encode =>
    match reading.value? .name with
    | some name => .ok (.encode name (reading.has .quotes))
    | none => .error .missingArgument
  | .decode =>
    match reading.value? .name with
    | some name => .ok (.decode name)
    | none => .error .missingArgument
  | .configShow => .ok .showSettings
  | .configInit => .ok (.writeSettings ((reading.value? .newFile).getD Settings.fileName))
  | .configHelp | .help => .error (.help menu)

end Reading

/-- Read the arguments at a menu. The answer is the command and what was read at this menu. -/
def read (menu : Menu) (reading : Reading) (behindDashes : Bool) :
    List (List Char) → Except Notice (Command × Reading)
  | [] => do
    let reading ← reading.settle
    pure (← reading.command menu, reading)
  | text :: texts =>
    if behindDashes then do
      read menu (← reading.operand menu true text) true texts
    else
      match reading.opens? menu text with
      | some .configHelp | some .help => .error (menu.helpOn texts)
      | some submenu => do
        let (command, _) ← read submenu .empty false texts
        pure (command, ← reading.settle)
      | none => do
        let argument := Argument.ofText text
        read menu (← reading.argument menu argument) (argument = .dashes) texts

end CommandLine

/-- What a user asks for with given arguments, or the notice that answers them. -/
def Invocation.ofArguments (arguments : List (List Char)) :
    Except CommandLine.Notice Invocation := do
  let (command, reading) ← CommandLine.read .top .empty false arguments
  pure ⟨reading.value? .settingsFile, reading.value? .level, command⟩

end SqlTokens
