import SqlTokens.CommandLine.Invocation

/-!
# Menus

A command line leads through menus. Each menu offers options, and either commands, each with a menu
of its own, or at most one operand. Whatever can be said on a command line fills a slot, and a slot
is filled once.
-/

namespace SqlTokens.CommandLine

/-- A thing that can be said once on a command line. -/
inductive Slot where
  | settingsFile
  | level
  | inputFile
  | skipSundry
  | format
  | quotes
  | name
  | newFile
  deriving DecidableEq, Repr

/-- Whether a slot is filled with a path. A path is never empty. -/
def Slot.isPath : Slot → Bool
  | settingsFile | inputFile | newFile => true
  | level | skipSundry | format | quotes | name => false

/-- The menus of the program. -/
inductive Menu where
  | top
  | tokenize
  | stats
  | encode
  | decode
  | config
  | configShow
  | configInit
  | configHelp
  | help
  deriving DecidableEq, Repr

/-- Why a command line is answered with a notice: help or the version was asked for, or something is
wrong with it. -/
inductive Notice where
  /-- Help on a menu is asked for. -/
  | help (menu : Menu)
  | version
  /-- No command of a menu is given, and nothing else. -/
  | nothingAsked (menu : Menu)
  /-- No command is given, but something else. -/
  | noCommand
  | unknownCommand
  | unknownArgument
  | missingArgument
  /-- An option lacks its value, or a path is empty. -/
  | badValue
  /-- An option that takes no value has one. -/
  | unwantedValue
  | repeatedArgument
  deriving DecidableEq, Repr

/-- What an option does. -/
inductive Effect where
  /-- It fills a slot with the value that it takes. -/
  | fill (slot : Slot)
  /-- It takes no value, and fills a slot. -/
  | mark (slot : Slot)
  /-- It ends the matter with a notice. -/
  | notify (notice : Notice)
  deriving DecidableEq, Repr

/-- An option, with the letter and the name that stand for it and with what the manual says about
it. -/
structure Choice where
  letter? : Option Char
  name : String
  effect : Effect
  about : String
  deriving DecidableEq, Repr

namespace Menu

/-- The option that asks for help on a menu. -/
def helpChoice (menu : Menu) : Choice :=
  ⟨some 'h', "help", .notify (.help menu), "Print help"⟩

/-- The option that leaves out blanks and comments. -/
def skipChoice (about : String) : Choice :=
  ⟨some 's', "skip-sundry", .mark .skipSundry, about⟩

/-- The options that a menu offers. -/
def choices (menu : Menu) : List Choice :=
  match menu with
  | top => [⟨some 'c', "config", .fill .settingsFile, "Конфигурационный файл"⟩,
      ⟨none, "log-level", .fill .level, "Уровень детализации логирования"⟩, menu.helpChoice,
      ⟨some 'V', "version", .notify .version, "Print version"⟩]
  | tokenize => [skipChoice "Не выводить пробелы и комментарии",
      ⟨some 'f', "format", .fill .format, "Формат вывода (text, json)"⟩, menu.helpChoice]
  | stats => [skipChoice "Не учитывать пробелы и комментарии", menu.helpChoice]
  | encode => [⟨some 'q', "quotes", .mark .quotes,
      "Использовать двойные кавычки вместо квадратных скобок"⟩, menu.helpChoice]
  | decode | config | configShow | configInit => [menu.helpChoice]
  | configHelp | help => []

/-- The menus of the commands that a menu offers. Where there are commands, help is one of them. -/
def commands : Menu → List (String × Menu)
  | top => [("tokenize", tokenize), ("stats", stats), ("encode", encode), ("decode", decode),
      ("config", config), ("help", help)]
  | config => [("show", configShow), ("init", configInit), ("help", configHelp)]
  | tokenize | stats | encode | decode | configShow | configInit | configHelp | help => []

/-- The slot that the operand of a menu fills, if it has an operand. -/
def operand? : Menu → Option Slot
  | tokenize | stats => some .inputFile
  | encode | decode => some .name
  | configInit => some .newFile
  | top | config | configShow | configHelp | help => none

/-- The effect of the option with a given name. -/
def long? (menu : Menu) (name : List Char) : Option Effect :=
  (menu.choices.find? (·.name.toList = name)).map (·.effect)

/-- The effect of the option with a given letter. -/
def letter? (menu : Menu) (letter : Char) : Option Effect :=
  (menu.choices.find? (·.letter? = some letter)).map (·.effect)

/-- The menu of the command with a given name. -/
def command? (menu : Menu) (name : List Char) : Option Menu :=
  (menu.commands.find? (·.1.toList = name)).map (·.2)

/-- The notice for a word that has no place in a menu. -/
def stray (menu : Menu) (behindDashes : Bool) (word : List Char) : Notice :=
  if behindDashes && (menu.command? word).isSome then .unknownArgument
  else if menu.commands.isEmpty then .unknownArgument
  else .unknownCommand

/-- The notice for a request for help on a command, of which each word is offered by the menu of the
one before it. -/
def helpOn (menu : Menu) : List (List Char) → Notice
  | [] => .help menu
  | word :: words =>
    match menu.command? word with
    | some submenu => submenu.helpOn words
    | none => .unknownCommand

end Menu

end SqlTokens.CommandLine
