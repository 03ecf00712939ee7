import SqlTokens.CommandLine.Menu
import SqlTokens.Program
import SqlTokens.Settings.Basic

/-!
# The manual

Each menu has a page in the manual. The page tells what the menu is for and how it is used, and
lists the commands, the operand and the options that the menu offers.
-/

namespace SqlTokens.CommandLine

/-- How the manual calls the value that a slot is filled with. -/
def Slot.title : Slot → String
  | settingsFile => "CONFIG"
  | level => "LEVEL"
  | inputFile => "FILE"
  | format => "FORMAT"
  | name => "NAME"
  | newFile => "PATH"
  | skipSundry => "SKIP_SUNDRY"
  | quotes => "QUOTES"

/-- How the manual shows an option. -/
def Choice.title (choice : Choice) : String :=
  (match choice.letter? with
    | some letter => "-" ++ letter.toString ++ ", "
    | none => "    ") ++
  "--" ++ choice.name ++
  match choice.effect with
  | .fill slot => " <" ++ slot.title ++ ">"
  | .mark _ | .notify _ => ""

namespace Menu

/-- The words that lead to a menu. -/
def words : Menu → List String
  | top => [Program.name]
  | tokenize => [Program.name, "tokenize"]
  | stats => [Program.name, "stats"]
  | encode => [Program.name, "encode"]
  | decode => [Program.name, "decode"]
  | config => [Program.name, "config"]
  | configShow => [Program.name, "config", "show"]
  | configInit => [Program.name, "config", "init"]
  | configHelp => [Program.name, "config", "help"]
  | help => [Program.name, "help"]

/-- What a menu is for. -/
def about : Menu → String
  | top => "sqllexer - lossless SQL tokenizer"
  | tokenize => "Разбить SQL на токены"
  | stats => "Показать количество токенов каждого вида"
  | encode => "Экранировать имя объекта"
  | decode => "Снять экранирование с имени объекта"
  | config => "Управление конфигурацией"
  | configShow => "Показать действующую конфигурацию"
  | configInit => "Записать конфигурацию по умолчанию в файл"
  | configHelp | help => "Print this message or the help of the given subcommand(s)"

/-- How the manual shows the operand of a menu, and what it says about it. An operand that can be
left out stands in square brackets. -/
def operandRow? : Menu → Option (String × String)
  | tokenize | stats => some ("[FILE]", "Входной файл; без него читается stdin")
  | encode => some ("<NAME>", "Имя")
  | decode => some ("<NAME>", "Экранированное имя")
  | configInit => some ("[PATH]",
      "Путь к файлу [default: " ++ String.ofList Settings.fileName ++ "]")
  | configHelp | help => some ("[COMMAND]...", "Print help for the subcommand(s)")
  | top | config | configShow => none

/-- Whether a menu has an option that is not a question. -/
def takesOptions (menu : Menu) : Bool :=
  menu.choices.any fun choice =>
    match choice.effect with
    | .fill _ | .mark _ => true
    | .notify _ => false

/-- How a menu is used. -/
def usage (menu : Menu) : String :=
  " ".intercalate (menu.words ++ (if menu.takesOptions then ["[OPTIONS]"] else []) ++
    (menu.operandRow?.map Prod.fst).toList ++ if menu.commands.isEmpty then [] else ["<COMMAND>"])

/-- A part of a page: a heading, and a row for each thing, with the explanations below each other.
Nothing is there if there are no rows. -/
def part (heading : String) (rows : List (String × String)) : String :=
  let width := (rows.map (·.1.length)).foldl max 0
  if rows.isEmpty then ""
  else "\n" ++ heading ++ ":\n" ++ String.join (rows.map fun (title, about) =>
    "  " ++ title.pushn ' ' (width - title.length) ++ "  " ++ about ++ "\n")

/-- The page of a menu. -/
def page (menu : Menu) : String :=
  menu.about ++ "\n\nUsage: " ++ menu.usage ++ "\n" ++
    part "Commands" (menu.commands.map fun (name, menu) => (name, menu.about)) ++
    part "Arguments" menu.operandRow?.toList ++
    part "Options" (menu.choices.map fun choice => (choice.title, choice.about))

end Menu

end SqlTokens.CommandLine
