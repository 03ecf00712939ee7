import SqlTokens.Proofs.Disk
import SqlTokens.Proofs.Run.Commands
import SqlTokens.Run.Outcome

/-!
# All or nothing

A run that ends with a failure has printed nothing and written nothing, whatever was in its way and
however late it was met: its script is careful (`Invocation.careful_script`), and everything that
can be in the way of a run is met before the script does anything that can be noticed
(`Machine.Refused`). A run that succeeds writes a file only if it is asked to, and then this one
alone (`runs_are_all_or_nothing`).
-/

namespace SqlTokens

open CommandLine (Notice)

theorem Ending.status_noticed_ne_zero_iff {notice : Notice} :
    (noticed notice).status ≠ 0 ↔ (∀ menu, notice ≠ .help menu) ∧ notice ≠ .version := by
  cases notice <;> simp [status]

theorem Ending.status_ofResult_ne_zero_iff {result : Except Failure Unit} :
    (ofResult result).status ≠ 0 ↔ ∃ failure, result = .error failure := by
  cases result <;> simp [ofResult, status]

/-- With some arguments a user asks for a command. -/
def Asks (arguments : List (List Char)) (command : Command) : Prop :=
  ∃ invocation, Invocation.ofArguments arguments = .ok invocation ∧ invocation.command = command

theorem asks_iff {arguments : List (List Char)} {invocation : Invocation} {command : Command}
    (asked : Invocation.ofArguments arguments = .ok invocation) :
    Asks arguments command ↔ invocation.command = command := by
  constructor
  · rintro ⟨invocation', asked', hcommand⟩
    rw [asked] at asked'
    cases asked'
    exact hcommand
  · intro hcommand
    exact ⟨invocation, asked, hcommand⟩

namespace Machine

variable {σ : Type} {machine : Machine σ} {files : σ} {arguments : List (List Char)}
  {invocation : Invocation} {path : List Char}

/-- Whatever can be in the way of a run, from its arguments to the file that it writes. -/
inductive Refused (machine : Machine σ) (files : σ) (arguments : List (List Char)) : Prop where
  /-- The command line cannot be used. -/
  | arguments {notice : Notice} (noticed : Invocation.ofArguments arguments = .error notice)
      (ne_help : ∀ menu, notice ≠ .help menu) (ne_version : notice ≠ .version)
  /-- There are no settings, or something is in the way of the command. -/
  | invocation {invocation : Invocation} {failure : Failure}
      (asked : Invocation.ofArguments arguments = .ok invocation)
      (refuses : machine.Refuses files invocation failure)

theorem run_of_noticed {notice : Notice}
    (noticed : Invocation.ofArguments arguments = .error notice) :
    machine.run files arguments = ⟨.noticed notice, machine.answer notice, files, []⟩ := by
  rw [run, noticed]

theorem run_of_asked {result : Except Failure Unit} {deeds : Deeds σ}
    (asked : Invocation.ofArguments arguments = .ok invocation)
    (hrun : invocation.script.run machine (.none files) = (result, deeds)) :
    machine.run files arguments =
      ⟨.ofResult result, deeds.printed, deeds.files, deeds.log⟩ := by
  simp only [run, asked, hrun]

theorem status_ne_zero_iff :
    (machine.run files arguments).ending.status ≠ 0 ↔ machine.Refused files arguments := by
  cases hasked : Invocation.ofArguments arguments with
  | error notice =>
    rw [run_of_noticed hasked, Ending.status_noticed_ne_zero_iff]
    constructor
    · rintro ⟨ne_help, ne_version⟩
      exact .arguments hasked ne_help ne_version
    · rintro (⟨noticed, ne_help, ne_version⟩ | ⟨asked, -⟩)
      · rw [hasked] at noticed
        cases noticed
        exact ⟨ne_help, ne_version⟩
      · rw [hasked] at asked
        cases asked
  | ok invocation =>
    cases hrun : invocation.script.run machine (.none files) with
    | mk result deeds =>
      have hresult : ∀ failure, result = .error failure ↔
          machine.Refuses files invocation failure := by
        intro failure
        have hiff : (invocation.script.run machine (.none files)).1 = .error failure ↔ _ :=
          Invocation.result_eq_error_iff (.none files)
        rwa [hrun] at hiff
      rw [run_of_asked hasked hrun, Ending.status_ofResult_ne_zero_iff]
      constructor
      · rintro ⟨failure, hfailure⟩
        exact .invocation hasked ((hresult failure).mp hfailure)
      · rintro (⟨noticed⟩ | ⟨asked, refuses⟩)
        · rw [hasked] at noticed
          cases noticed
        · rw [hasked] at asked
          cases asked
          exact ⟨_, (hresult _).mpr refuses⟩

/-- A run that ends with a failure leaves no trace. -/
theorem eq_of_status_ne_zero (h : (machine.run files arguments).ending.status ≠ 0) :
    (machine.run files arguments).printed = [] ∧ (machine.run files arguments).files = files := by
  cases hasked : Invocation.ofArguments arguments with
  | error notice =>
    rw [run_of_noticed hasked] at h ⊢
    obtain ⟨ne_help, ne_version⟩ := Ending.status_noticed_ne_zero_iff.mp h
    refine ⟨?_, rfl⟩
    cases notice with
    | help menu => exact absurd rfl (ne_help menu)
    | version => exact absurd rfl ne_version
    | _ => rfl
  | ok invocation =>
    cases hrun : invocation.script.run machine (.none files) with
    | mk result deeds =>
      rw [run_of_asked hasked hrun] at h ⊢
      obtain ⟨failure, rfl⟩ := Ending.status_ofResult_ne_zero_iff.mp h
      exact Prod.mk.inj (invocation.careful_script.noticed_of_run hrun)

/-- A run leaves the files alone unless it is asked to write the settings. -/
theorem files_run (h : ∀ path, ¬ Asks arguments (.writeSettings path)) :
    (machine.run files arguments).files = files := by
  cases hasked : Invocation.ofArguments arguments with
  | error notice => rw [run_of_noticed hasked]
  | ok invocation =>
    have hcommand : ∀ path, invocation.command ≠ .writeSettings path :=
      fun path hcommand => h path ((asks_iff hasked).mpr hcommand)
    rw [run_of_asked hasked rfl]
    exact (Invocation.obeys_script hcommand).files_run id (.none files)

/-- A run that is asked to write the settings and succeeds has written them, once and at the given
path. -/
theorem write_of_status_eq_zero (h : (machine.run files arguments).ending.status = 0)
    (hasks : Asks arguments (.writeSettings path)) :
    machine.fileSystem.write files path (Utf8.encode Settings.default.toDocument) =
      .ok (machine.run files arguments).files := by
  obtain ⟨invocation, asked, hcommand⟩ := hasks
  cases hsettings : (machine.surroundings files).settings invocation with
  | error failure =>
    rw [run_of_asked asked (Invocation.run_script_of_unsettled (.none files) hsettings)] at h
    cases h
  | ok settings =>
    obtain ⟨deeds, -, hfiles, hrun⟩ :=
      Invocation.run_script_of_settled (.none files) hsettings
    rw [hcommand, Command.run_writeSettings, hfiles] at hrun
    split at hrun
    · next files' hwrite =>
      rw [run_of_asked asked hrun]
      exact hwrite
    · next fault hwrite =>
      rw [run_of_asked asked hrun] at h
      cases h

/-- A run ends with a failure exactly if something is in its way, be it a command line that cannot
be used, settings that are not in order, an unknown format, an input that is not there or that fails
behind any text, or a file that cannot be written; and then it has printed nothing and written
nothing. A run that succeeds writes a file only if it is asked to write the settings, and then once,
at the given path. On a disk this is the one file that the path leads to, and no other file is
different afterwards; whoever reads settings from there finds those of a user who chose nothing. -/
theorem runs_are_all_or_nothing :
    (∀ {σ : Type} (machine : Machine σ) (files : σ) (arguments : List (List Char)),
      let outcome := machine.run files arguments
      (outcome.ending.status ≠ 0 ↔ machine.Refused files arguments) ∧
      (outcome.ending.status ≠ 0 → outcome.printed = [] ∧ outcome.files = files) ∧
      (outcome.ending.status = 0 → (∀ path, ¬ Asks arguments (.writeSettings path)) →
        outcome.files = files) ∧
      (outcome.ending.status = 0 → ∀ path, Asks arguments (.writeSettings path) →
        machine.fileSystem.write files path (Utf8.encode Settings.default.toDocument) =
          .ok outcome.files)) ∧
    ∀ (environment : Environment) (input : Feed) (disk : Disk) (arguments : List (List Char)) path,
      let outcome := (Disk.machine environment input).run disk arguments
      outcome.ending.status = 0 → Asks arguments (.writeSettings path) → ∃ names,
        disk.Leads path names ∧
        (∀ other, other ≠ names → outcome.files.bytes? other = disk.bytes? other) ∧
        outcome.files.bytes? names = some (Utf8.encode Settings.default.toDocument) ∧
        ∀ environment' input',
          ((Disk.machine environment' input').surroundings outcome.files).settingsAt path =
            .ok .default := by
  constructor
  · intro σ machine files arguments outcome
    refine ⟨status_ne_zero_iff, eq_of_status_ne_zero, fun _ => files_run, ?_⟩
    intro hstatus path hasks
    exact write_of_status_eq_zero hstatus hasks
  · intro environment input disk arguments path outcome hstatus hasks
    obtain ⟨names, hleads, hfiles⟩ :=
      Disk.leads_of_write (write_of_status_eq_zero hstatus hasks)
    have hwritten : outcome.files = disk.put names (Utf8.encode Settings.default.toDocument) :=
      hfiles
    refine ⟨names, hleads, ?_, ?_, ?_⟩
    · intro other hother
      rw [hwritten, disk.bytes?_put_of_ne hother]
    · rw [hwritten, Disk.bytes?_put_self]
    · intro environment' input'
      rw [hwritten, Surroundings.settingsAt_of_openFile (hleads.openFile_put _)]
      exact Settings.ofFile_default

/-- The standard input breaks off behind its first character; a name is decoded; and the settings
are written outside of the working folder, in a folder that is empty. -/
theorem runs_are_all_or_nothing_on_a_disk :
    let disk : Disk := ⟨[['w']], [[['t']]], [([['w'], ['d']], [0x61])]⟩
    let machine := Disk.machine [] (.ofBytes [0x61, 0xFF])
    let broken := machine.run disk ["stats".toList]
    let decoding := machine.run disk ["decode".toList, "[a]".toList]
    let writing := machine.run disk ["config".toList, "init".toList, "/t/c".toList]
    machine.Refused disk ["stats".toList] ∧
      (broken.printed = [] ∧ broken.files = disk) ∧ decoding.files = disk ∧
      ∃ names, disk.Leads "/t/c".toList names ∧
        (∀ other, other ≠ names → writing.files.bytes? other = disk.bytes? other) ∧
        writing.files.bytes? names = some (Utf8.encode Settings.default.toDocument) ∧
        ∀ environment' input',
          ((Disk.machine environment' input').surroundings writing.files).settingsAt
            "/t/c".toList = .ok .default := by
  intro disk machine broken decoding writing
  have hbroken : broken.ending.status ≠ 0 := by decide +kernel
  have hdecoding : decoding.ending.status = 0 := by decide +kernel
  have hwriting : writing.ending.status = 0 := by decide +kernel
  have hdecode : Invocation.ofArguments ["decode".toList, "[a]".toList] =
      .ok ⟨none, none, .decode "[a]".toList⟩ := rfl
  have hinit : Invocation.ofArguments ["config".toList, "init".toList, "/t/c".toList] =
      .ok ⟨none, none, .writeSettings "/t/c".toList⟩ := rfl
  obtain ⟨hruns, hdisks⟩ := runs_are_all_or_nothing
  obtain ⟨hrefused, htrace, -, -⟩ := hruns machine disk ["stats".toList]
  obtain ⟨-, -, hkept, -⟩ := hruns machine disk ["decode".toList, "[a]".toList]
  refine ⟨hrefused.mp hbroken, htrace hbroken, hkept hdecoding ?_, ?_⟩
  · intro path hasks
    cases (asks_iff hdecode).mp hasks
  · exact hdisks [] _ disk _ _ hwriting ⟨_, hinit, rfl⟩

end Machine

end SqlTokens
