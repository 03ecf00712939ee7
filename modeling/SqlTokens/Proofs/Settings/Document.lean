import SqlTokens.Proofs.Input.Decoding
import SqlTokens.Proofs.Toml.Lines
import SqlTokens.Settings.Document

/-!
# The document of settings

The document that is written for settings says these settings, whatever they are, and so it is
refused for no other reason than what is wrong with them (`ofFile_toDocument`). It is followed line
by line, from its text to its statements (`says_toDocument`), from these to its entries, and from
each entry to its choice.
-/

namespace SqlTokens

open Toml (Entries Statement)

/-- The name of a format is written as any string is. -/
theorem OutputFormat.quotes_name (output : OutputFormat) :
    Toml.Quotes ('"' :: output.name.toList ++ ['"']) output.name.toList := by
  have hname : Toml.string output.name.toList = '"' :: output.name.toList ++ ['"'] := by
    cases output <;> decide
  rw [← hname]
  exact Toml.quotes_string _

namespace Settings

/-- What the document of settings says, line by line. -/
def statements (settings : Settings) : List Statement :=
  [.entry ["batch_size".toList] (.integer settings.batchSize.toNat),
    .entry ["skip_sundry".toList] (.boolean settings.skipSundry),
    .entry ["output".toList] (.string settings.output.name.toList),
    .table ["logging".toList],
    .entry ["level".toList] (.string settings.level.toList)]

/-- The entries of the document of settings. -/
def entries (settings : Settings) : Entries :=
  [("batch_size".toList, .integer settings.batchSize.toNat),
    ("skip_sundry".toList, .boolean settings.skipSundry),
    ("output".toList, .string settings.output.name.toList),
    ("logging".toList, .table .header [("level".toList, .string settings.level.toList)])]

theorem says_toDocument (settings : Settings) :
    Toml.Says settings.toDocument settings.statements := by
  have hbatchSize : Toml.Says ("batch_size".toList ++ [' ', '=', ' '] ++
      Text.decimal settings.batchSize.toNat ++ ['\n'])
      [.entry ["batch_size".toList] (.integer settings.batchSize.toNat)] :=
    Toml.says_entry ⟨by decide, by decide⟩ (Toml.shows_decimal _)
  have hskipSundry : Toml.Says ("skip_sundry".toList ++ [' ', '=', ' '] ++
      (if settings.skipSundry then "true" else "false").toList ++ ['\n'])
      [.entry ["skip_sundry".toList] (.boolean settings.skipSundry)] :=
    Toml.says_entry ⟨by decide, by decide⟩ (Toml.shows_boolean _)
  have houtput : Toml.Says ("output".toList ++ [' ', '=', ' '] ++
      ('"' :: settings.output.name.toList ++ ['"']) ++ ['\n'])
      [.entry ["output".toList] (.string settings.output.name.toList)] :=
    Toml.says_entry ⟨by decide, by decide⟩ (.string settings.output.quotes_name)
  have hlogging : Toml.Says ('[' :: ("logging".toList ++ [']', '\n']))
      [.table ["logging".toList]] := Toml.says_header ⟨by decide, by decide⟩
  have hlevel : Toml.Says ("level".toList ++ [' ', '=', ' '] ++
      Toml.string settings.level.toList ++ ['\n'])
      [.entry ["level".toList] (.string settings.level.toList)] :=
    Toml.says_entry ⟨by decide, by decide⟩ (.string (Toml.quotes_string _))
  have hlines := hbatchSize.append <| hskipSundry.append <| houtput.append <|
    Toml.says_emptyLine.append <| hlogging.append hlevel
  have hfirst : "batch_size = ".toList = "batch_size".toList ++ [' ', '=', ' '] := by decide
  have hsecond : "\nskip_sundry = ".toList = '\n' :: ("skip_sundry".toList ++ [' ', '=', ' ']) := by
    decide
  have hthird : "\noutput = \"".toList = '\n' :: ("output".toList ++ [' ', '=', ' ', '"']) := by
    decide
  have hfourth : "\"\n\n[logging]\nlevel = ".toList = '"' :: '\n' :: '\n' :: '[' ::
      ("logging".toList ++ ']' :: '\n' :: ("level".toList ++ [' ', '=', ' '])) := by decide
  have hlast : "\n".toList = ['\n'] := by decide
  delta toDocument
  simp only [hfirst, hsecond, hthird, hfourth, hlast, List.append_assoc, List.cons_append,
    List.nil_append] at hlines ⊢
  exact hlines

theorem ofStatements?_statements (settings : Settings) :
    Toml.ofStatements? settings.statements = some settings.entries := by
  rfl

theorem chooseToml?_batchSize (settings : Settings) (batchSize : UInt64) :
    settings.chooseToml? "batch_size" (.integer batchSize.toNat) =
      some { settings with batchSize } := by
  have hrange : (batchSize.toNat : Int) < 18446744073709551616 := by
    have hlt := batchSize.toNat_lt
    omega
  simp [chooseToml?, hrange]

theorem chooseToml?_output (settings : Settings) (output : OutputFormat) :
    settings.chooseToml? "output" (.string output.name.toList) = some { settings with output } := by
  simp [chooseToml?, OutputFormat.ofToml?]

theorem chooseToml?_logging (settings : Settings) (level : String) :
    settings.chooseToml? "logging" (.table .header [("level".toList, .string level.toList)]) =
      some { settings with level } := by
  simp [chooseToml?, levelOfToml?, Toml.Value.text?]

theorem ofEntries?_entries (settings : Settings) : ofEntries? settings.entries = some settings := by
  have hskipSundry (s : Settings) : s.chooseToml? "skip_sundry" (.boolean settings.skipSundry) =
      some { s with skipSundry := settings.skipSundry } := rfl
  simp only [ofEntries?, entries, List.foldlM_cons, List.foldlM_nil, String.ofList_toList,
    chooseToml?_batchSize, hskipSundry, chooseToml?_output, chooseToml?_logging,
    Option.bind_eq_bind, Option.bind_some, Option.pure_def]

/-- What is written for settings is a document, and it says what the settings are. -/
theorem read?_toDocument (settings : Settings) :
    Toml.read? settings.toDocument = some settings.entries := by
  have hmark : Toml.skipByteOrderMark settings.toDocument = settings.toDocument := rfl
  rw [Toml.read?_of_says settings.says_toDocument hmark, settings.ofStatements?_statements]

theorem ofDocument_toDocument (settings : Settings) :
    ofDocument settings.toDocument = settings.check := by
  rw [ofDocument, settings.read?_toDocument, Option.bind_some, settings.ofEntries?_entries]

/-- Settings that are read from their own document are in order if they were so before. -/
theorem ofFile_toDocument (settings : Settings) :
    ofFile (Utf8.encode settings.toDocument) = settings.check.mapError .ofProblem := by
  rw [ofFile, Utf8.text?_eq_some_iff.mpr rfl]
  exact congrArg (Except.mapError Error.ofProblem) settings.ofDocument_toDocument

end Settings

end SqlTokens
