import SqlTokens.Proofs.Run.Effective
import SqlTokens.Proofs.Run.Script
import SqlTokens.Proofs.Tokenizer.Streams
import SqlTokens.Run.Commands

/-!
# What commands do

Two commands read the tokens of an input to its end and then report on them
(`Command.script_of_reports`). No command prints or writes anything before its last step that can
fail (`Invocation.careful_script`), and all commands but one leave the files alone
(`Command.obeys_script`). What can be in the way of a command is said by `Machine.Hinders`, and a
command fails just if something is (`Command.result_eq_error_iff`).
-/

namespace SqlTokens

namespace Report

theorem flatten_tokenTexts (format : OutputFormat) (tokens : List Token) :
    (tokenTexts format tokens).flatten = Report.tokens format tokens := by
  cases format with
  | text => rfl
  | json =>
    show (Token.toJsonArray tokens).pretty ++ (['\n'] ++ []) = _
    rw [List.append_nil]
    rfl

theorem flatten_countTexts (tokens : List Token) :
    (countTexts tokens).flatten = counts tokens := by
  simp [countTexts, counts, List.flatMap]

end Report

/-- A command reports on the tokens of a file, or of the standard input if the file is not given. It
works with settings of its own: it skips blanks and comments if the given settings say so or its own
flag does, and prints in the format that it names, or in that of the given settings. -/
inductive Command.Reports (settings : Settings) :
    Command → Option (List Char) → Settings → (List Token → List Char) → Prop where
  | tokenize {file? : Option (List Char)} (skipSundry : Bool) :
      Reports settings (.tokenize file? skipSundry none) file?
        { settings with skipSundry := settings.skipSundry || skipSundry }
        (Report.tokens settings.output)
  | tokenizeAs {file? : Option (List Char)} {name : List Char} {output : OutputFormat}
      (skipSundry : Bool) (known : Settings.readOutput (String.ofList name) = .ok output) :
      Reports settings (.tokenize file? skipSundry (some name)) file?
        { settings with skipSundry := settings.skipSundry || skipSundry, output }
        (Report.tokens output)
  | stats {file? : Option (List Char)} (skipSundry : Bool) :
      Reports settings (.stats file? skipSundry) file?
        { settings with skipSundry := settings.skipSundry || skipSundry } Report.counts

/-- The tokens of a text, less those that are skipped. -/
def tokensKept (skipSundry : Bool) (text : List Char) : List Token :=
  if skipSundry then Token.significant (tokensOf text) else tokensOf text

theorem Lexer.ofSettings_of_inOrder {settings : Settings} (h : settings.problem? = none) :
    Lexer.ofSettings settings = .ok ⟨settings, h⟩ := by
  rw [ofSettings]
  split
  · next problem hproblem =>
    rw [h] at hproblem
    cases hproblem
  · rfl

theorem Settings.readInput_of_inOrder {settings : Settings} (h : settings.problem? = none)
    (file? : Option (List Char)) :
    settings.readInput file? = Lexer.readInput ⟨settings, h⟩ file? := by
  rw [readInput, Lexer.ofSettings_of_inOrder h]
  rfl

namespace Command

variable {σ : Type} {machine : Machine σ} {settings effective : Settings} {command : Command}
  {file? : Option (List Char)} {report : List Token → List Char}

/-- Nothing is wrong with the settings of the command if nothing is wrong with the given ones. -/
theorem Reports.problem?_eq (reports : command.Reports settings file? effective report) :
    effective.problem? = settings.problem? := by
  cases reports <;> exact settings.problem?_choose _ _

/-- A command reads its input with its own settings, and when it has all tokens it prints its
report. -/
theorem script_of_reports (inOrder : settings.problem? = none)
    (reports : command.Reports settings file? effective report) :
    ∃ (effectiveInOrder : effective.problem? = none) (texts : List Token → List (List Char)),
      (∀ tokens, (texts tokens).flatten = report tokens) ∧
      command.script settings = (do
        let tokens ← Lexer.readInput ⟨effective, effectiveInOrder⟩ file?
        Script.printAll (texts tokens)) := by
  have hinOrder := reports.problem?_eq.trans inOrder
  cases reports with
  | tokenize skipSundry =>
    refine ⟨hinOrder, Report.tokenTexts settings.output, Report.flatten_tokenTexts _, ?_⟩
    rw [← Settings.readInput_of_inOrder hinOrder]
    rfl
  | @tokenizeAs _ name output skipSundry known =>
    refine ⟨hinOrder, Report.tokenTexts output, Report.flatten_tokenTexts _, ?_⟩
    rw [← Settings.readInput_of_inOrder hinOrder, script, Settings.format, known]
    rfl
  | stats skipSundry =>
    refine ⟨hinOrder, Report.countTexts, Report.flatten_countTexts, ?_⟩
    rw [← Settings.readInput_of_inOrder hinOrder]
    rfl

end Command

section Care

open Script

theorem Lexer.obeys_readInput (lexer : Lexer) (file? : Option (List Char)) :
    (lexer.readInput file?).Obeys .toLook := by
  apply Obeys.bind (.looking fun surroundings => .ofExcept trivial)
  intro feed
  exact .noting (.ofExcept trivial)

theorem Settings.obeys_readInput (settings : Settings) (file? : Option (List Char)) :
    (settings.readInput file?).Obeys .toLook :=
  .bind (.ofExcept trivial) fun lexer => lexer.obeys_readInput file?

/-- No command prints or writes anything as long as a step that can fail is still to come. -/
theorem Command.careful_script (settings : Settings) (command : Command) :
    (command.script settings).Careful := by
  cases command with
  | tokenize file? skipSundry format? =>
    apply Careful.bind (.ofExcept trivial)
    intro output
    apply Careful.bind (Settings.obeys_readInput _ file?)
    intro tokens
    exact .sure (.printAll _ trivial)
  | stats file? skipSundry =>
    apply Careful.bind (Settings.obeys_readInput _ file?)
    intro tokens
    exact .sure (.printAll _ trivial)
  | encode name quotes => exact .sure (.printing trivial .done)
  | decode name => exact .sure (.printing trivial .done)
  | showSettings => exact .sure (.printing trivial .done)
  | writeSettings path => exact .writing (.printing trivial .done)

theorem Invocation.careful_script (invocation : Invocation) : invocation.script.Careful := by
  apply Careful.bind (.looking fun surroundings => .ofExcept trivial)
  intro settings
  exact .looking fun surroundings =>
    .listening (.noting (invocation.command.careful_script settings))

/-- Only one command writes a file. -/
theorem Command.obeys_script (settings : Settings) {command : Command}
    (h : ∀ path, command ≠ .writeSettings path) : (command.script settings).Obeys .toReport := by
  have hreading : ∀ (effective : Settings) file? (texts : List Token → List (List Char)),
      (effective.readInput file? >>= fun tokens => Script.printAll (texts tokens)).Obeys
        .toReport := by
    intro effective file? texts
    apply Obeys.bind
    · exact (effective.obeys_readInput file?).mono id False.elim id
    · exact fun tokens => .printAll _ trivial
  cases command with
  | tokenize file? skipSundry format? =>
    exact .bind (.ofExcept trivial) fun output => hreading _ file? _
  | stats file? skipSundry => exact hreading _ file? _
  | encode name quotes => exact .printing trivial .done
  | decode name => exact .printing trivial .done
  | showSettings => exact .printing trivial .done
  | writeSettings path => exact absurd rfl (h path)

theorem Invocation.obeys_script {invocation : Invocation}
    (h : ∀ path, invocation.command ≠ .writeSettings path) :
    invocation.script.Obeys .toReport := by
  apply Obeys.bind (.looking fun surroundings => .ofExcept trivial)
  intro settings
  exact .looking fun surroundings => .listening (.noting (Command.obeys_script settings h))

end Care

section Run

variable {σ : Type} {machine : Machine σ} {settings effective : Settings} {command : Command}
  {file? : Option (List Char)} {report : List Token → List Char} {feed : Feed} {text : List Char}
  {fault : Fault} {failure : Failure} {deeds : Deeds σ}

theorem Lexer.run_readInput (lexer : Lexer)
    (opens : (machine.surroundings deeds.files).openInput file? = .ok feed) :
    (lexer.readInput file?).run machine deeds =
      ((lexer.readFeed feed).result.mapError .plain, deeds.note (lexer.readFeed feed).log) := by
  rw [readInput, Script.run_bind_of_ok ((Script.run_look _ deeds).trans (by rw [opens]))]
  exact Script.run_ofExcept _ (deeds.note (lexer.readFeed feed).log)

namespace Command

section Reports

variable (inOrder : settings.problem? = none)
  (reports : command.Reports settings file? effective report)
include inOrder reports

/-- A command cannot report on an input that cannot be opened. -/
theorem run_of_closed
    (closed : (machine.surroundings deeds.files).openInput file? = .error failure) :
    (command.script settings).run machine deeds = (.error failure, deeds) := by
  obtain ⟨effectiveInOrder, texts, -, hscript⟩ := script_of_reports inOrder reports
  rw [hscript]
  apply Script.run_bind_of_error
  apply Script.run_bind_of_error
  rw [Script.run_look, closed]

variable (opens : (machine.surroundings deeds.files).openInput file? = .ok feed)
include opens

/-- A command fails with its input, and has printed nothing until then. -/
theorem run_of_failsAfter (fails : feed.FailsAfter text fault) :
    ∃ records, (command.script settings).run machine deeds =
      (.error (.plain (.io fault)), deeds.note records) := by
  obtain ⟨effectiveInOrder, texts, -, hscript⟩ := script_of_reports inOrder reports
  refine ⟨(Lexer.readFeed ⟨effective, effectiveInOrder⟩ feed).log, ?_⟩
  rw [hscript]
  apply Script.run_bind_of_error
  rw [Lexer.run_readInput _ opens, Lexer.result_readFeed_of_failsAfter _ fails]
  rfl

/-- A command reports on all tokens of its input that it keeps. -/
theorem run_of_holds (holds : feed.Holds text) :
    ∃ records, (command.script settings).run machine deeds =
      (.ok (), (deeds.note records).print (report (tokensKept effective.skipSundry text))) := by
  obtain ⟨effectiveInOrder, texts, htexts, hscript⟩ := script_of_reports inOrder reports
  refine ⟨(Lexer.readFeed ⟨effective, effectiveInOrder⟩ feed).log, ?_⟩
  have hread := Lexer.run_readInput ⟨effective, effectiveInOrder⟩ opens
  rw [Lexer.result_readFeed_of_holds _ holds, Lexer.result_readText] at hread
  rw [hscript, Script.run_bind_of_ok hread, Script.run_printAll, htexts]
  rfl

end Reports

theorem run_of_unknown {skipSundry : Bool} {name : List Char} {problem : Settings.Problem}
    (unknown : Settings.readOutput (String.ofList name) = .error problem) :
    ((Command.tokenize file? skipSundry (some name)).script settings).run machine deeds =
      (.error (.plain (.ofProblem problem)), deeds) := by
  apply Script.run_bind_of_error
  rw [Script.run_ofExcept, Settings.format, unknown]
  rfl

theorem run_writeSettings (settings : Settings) (path : List Char) :
    ((Command.writeSettings path).script settings).run machine deeds =
      match machine.fileSystem.write deeds.files path (Utf8.encode Settings.default.toDocument) with
      | .ok files => (.ok (), { deeds with files }.print ("wrote ".toList ++ path ++ ['\n']))
      | .error fault => (.error (.plain (.io fault)), deeds) :=
  rfl

end Command

end Run

section Hinders

variable {σ : Type} {machine : Machine σ} {settings effective : Settings} {command : Command}
  {file? : Option (List Char)} {report : List Token → List Char} {failure : Failure}
  {deeds : Deeds σ}

/-- What is in the way of a command under given settings. -/
inductive Machine.Hinders (machine : Machine σ) (files : σ) (settings : Settings) :
    Command → Failure → Prop where
  /-- The format is not known. -/
  | format {file? : Option (List Char)} {skipSundry : Bool} {name : List Char}
      {problem : Settings.Problem}
      (unknown : Settings.readOutput (String.ofList name) = .error problem) :
      Hinders machine files settings (.tokenize file? skipSundry (some name))
        (.plain (.ofProblem problem))
  /-- The input that tokens should come from cannot be opened. -/
  | closed {command : Command} {file? : Option (List Char)} {effective : Settings}
      {report : List Token → List Char} {failure : Failure}
      (reports : command.Reports settings file? effective report)
      (closed : (machine.surroundings files).openInput file? = .error failure) :
      Hinders machine files settings command failure
  /-- The input cannot be read behind some text. -/
  | broken {command : Command} {file? : Option (List Char)} {effective : Settings}
      {report : List Token → List Char} {feed : Feed} {text : List Char} {fault : Fault}
      (reports : command.Reports settings file? effective report)
      (opens : (machine.surroundings files).openInput file? = .ok feed)
      (fails : feed.FailsAfter text fault) :
      Hinders machine files settings command (.plain (.io fault))
  /-- The file cannot be written. -/
  | unwritable {path : List Char} {fault : Fault}
      (write : machine.fileSystem.write files path (Utf8.encode Settings.default.toDocument) =
        .error fault) :
      Hinders machine files settings (.writeSettings path) (.plain (.io fault))

namespace Command

theorem hinders_of_reports (inOrder : settings.problem? = none)
    (reports : command.Reports settings file? effective report)
    (h : ((command.script settings).run machine deeds).1 = .error failure) :
    machine.Hinders deeds.files settings command failure := by
  cases hopens : (machine.surroundings deeds.files).openInput file? with
  | error fault =>
    rw [run_of_closed inOrder reports hopens] at h
    cases h
    exact .closed reports hopens
  | ok feed =>
    rcases feed.holds_or_failsAfter with ⟨text, holds⟩ | ⟨text, fault, fails⟩
    · obtain ⟨records, hrun⟩ := run_of_holds inOrder reports hopens holds
      rw [hrun] at h
      cases h
    · obtain ⟨records, hrun⟩ := run_of_failsAfter inOrder reports hopens fails
      rw [hrun] at h
      cases h
      exact .broken reports hopens fails

/-- A command fails just if something is in its way. -/
theorem result_eq_error_iff (inOrder : settings.problem? = none) :
    ((command.script settings).run machine deeds).1 = .error failure ↔
      machine.Hinders deeds.files settings command failure := by
  constructor
  · intro h
    cases command with
    | tokenize file? skipSundry format? =>
      cases format? with
      | none => exact hinders_of_reports inOrder (.tokenize skipSundry) h
      | some name =>
        cases hname : Settings.readOutput (String.ofList name) with
        | ok output => exact hinders_of_reports inOrder (.tokenizeAs skipSundry hname) h
        | error problem =>
          rw [run_of_unknown hname] at h
          cases h
          exact .format hname
    | stats file? skipSundry => exact hinders_of_reports inOrder (.stats skipSundry) h
    | encode name quotes => cases h
    | decode name => cases h
    | showSettings => cases h
    | writeSettings path =>
      rw [run_writeSettings] at h
      split at h
      · cases h
      · next fault hwrite =>
        cases h
        exact .unwritable hwrite
  · intro h
    cases h with
    | format unknown => rw [run_of_unknown unknown]
    | closed reports closed => rw [run_of_closed inOrder reports closed]
    | broken reports opens fails =>
      obtain ⟨records, hrun⟩ := run_of_failsAfter inOrder reports opens fails
      rw [hrun]
    | unwritable write => rw [run_writeSettings, write]

end Command

end Hinders

section Invocation

variable {σ : Type} {machine : Machine σ} {invocation : Invocation} {settings : Settings}
  {failure : Failure}

/-- What is in the way of an invocation: there are no settings, or something is in the way of the
command. -/
inductive Machine.Refuses (machine : Machine σ) (files : σ) (invocation : Invocation) :
    Failure → Prop where
  | settings {failure : Failure}
      (unsettled : (machine.surroundings files).Unsettled invocation failure) :
      Refuses machine files invocation failure
  | command {settings : Settings} {failure : Failure}
      (settled : (machine.surroundings files).settings invocation = .ok settings)
      (hinders : machine.Hinders files settings invocation.command failure) :
      Refuses machine files invocation failure

namespace Invocation

theorem run_script_of_unsettled (deeds : Deeds σ)
    (unsettled : (machine.surroundings deeds.files).settings invocation = .error failure) :
    invocation.script.run machine deeds = (.error failure, deeds) := by
  apply Script.run_bind_of_error
  rw [Script.run_look, unsettled]

/-- With settings a run comes to its command, and nothing that can be noticed was done before. -/
theorem run_script_of_settled (deeds : Deeds σ)
    (settled : (machine.surroundings deeds.files).settings invocation = .ok settings) :
    ∃ deeds' : Deeds σ, deeds'.printed = deeds.printed ∧ deeds'.files = deeds.files ∧
      invocation.script.run machine deeds =
        (invocation.command.script settings).run machine deeds' := by
  refine ⟨(deeds.listen (Log.Filter.effective machine.environment settings)).note
    [.started settings], Deeds.printed_note _, Deeds.files_note _, ?_⟩
  rw [script, Script.run_bind_of_ok ((Script.run_look _ deeds).trans (by rw [settled]))]
  rfl

theorem result_eq_error_iff (deeds : Deeds σ) :
    (invocation.script.run machine deeds).1 = .error failure ↔
      machine.Refuses deeds.files invocation failure := by
  cases hsettings : (machine.surroundings deeds.files).settings invocation with
  | error failure' =>
    rw [run_script_of_unsettled deeds hsettings]
    constructor
    · intro h
      cases h
      exact .settings (Surroundings.settings_eq_error_iff.mp hsettings)
    · rintro (unsettled | ⟨settled, -⟩)
      · rw [Surroundings.settings_eq_error_iff.mpr unsettled] at hsettings
        cases hsettings
        rfl
      · rw [settled] at hsettings
        cases hsettings
  | ok settings =>
    have hinOrder := Surroundings.problem?_of_settings hsettings
    obtain ⟨deeds', -, hfiles, hrun⟩ := run_script_of_settled deeds hsettings
    rw [hrun, Command.result_eq_error_iff hinOrder, hfiles]
    constructor
    · exact .command hsettings
    · rintro (unsettled | ⟨settled, hinders⟩)
      · rw [Surroundings.settings_eq_error_iff.mpr unsettled] at hsettings
        cases hsettings
      · rw [settled] at hsettings
        cases hsettings
        exact hinders

end Invocation

end Invocation

end SqlTokens
