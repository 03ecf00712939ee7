import SqlTokens.Proofs.Run.Outcome
import SqlTokens.Proofs.Settings.Choices

/-!
# Where the settings in effect come from

There are three layers over the settings of a user who chose nothing: a file, the environment and
the command line. Each layer must be in order when it is laid, and if all are, every choice is the
one that the uppermost layer makes (`settings_eq_ok_iff`, `settings_come_in_layers`).
-/

namespace SqlTokens.Surroundings

open Settings (fileName)

variable {surroundings : Surroundings} {path : List Char} {file? : Option (List Char)}
  {choices choices' : Choices} {settings : Settings}

/-- The file at a path makes choices: it can be opened and read to its end, and its bytes say the
choices. -/
inductive Tells (surroundings : Surroundings) (path : List Char) (choices : Choices) : Prop where
  | mk {feed : Feed} {bytes : List UInt8} (opens : surroundings.openFile path = .ok feed)
      (reads : feed.readAll = .ok bytes) (said : choices.AreSaidBy bytes) :
      Tells surroundings path choices

/-- The choices that the lowest layer makes: those of the file that is named, or those of the file
with the usual name if there is something with this name, or none if there is not. -/
inductive Says (surroundings : Surroundings) : Option (List Char) → Choices → Prop where
  | named {path : List Char} {choices : Choices} (tells : surroundings.Tells path choices) :
      Says surroundings (some path) choices
  | usual {choices : Choices} (there : surroundings.isThere fileName = true)
      (tells : surroundings.Tells fileName choices) : Says surroundings none choices
  | nothing (absent : surroundings.isThere fileName = false) : Says surroundings none .silent

theorem Tells.unique (h : surroundings.Tells path choices)
    (h' : surroundings.Tells path choices') : choices = choices' := by
  obtain ⟨opens, reads, said⟩ := h
  obtain ⟨opens', reads', said'⟩ := h'
  rw [opens] at opens'
  cases opens'
  rw [reads] at reads'
  cases reads'
  exact said.unique said'

theorem Says.unique (h : surroundings.Says file? choices)
    (h' : surroundings.Says file? choices') : choices = choices' := by
  cases h with
  | named tells =>
    cases h' with
    | named tells' => exact tells.unique tells'
  | usual there tells =>
    cases h' with
    | usual there' tells' => exact tells.unique tells'
    | nothing absent => exact absurd there (Bool.eq_false_iff.mp absent)
  | nothing absent =>
    cases h' with
    | usual there tells => exact absurd there (Bool.eq_false_iff.mp absent)
    | nothing absent' => rfl

theorem settingsAt_eq_ok_iff : surroundings.settingsAt path = .ok settings ↔
    ∃ choices, surroundings.Tells path choices ∧ settings = choices.atop .default := by
  simp only [settingsAt, Settings.ofFeed, Except.bind_eq_ok_iff, Except.mapError_eq_ok_iff,
    Settings.ofFile_eq_ok_iff]
  constructor
  · rintro ⟨feed, opens, bytes, reads, choices, said, rfl⟩
    exact ⟨choices, ⟨opens, reads, said⟩, rfl⟩
  · rintro ⟨choices, ⟨opens, reads, said⟩, rfl⟩
    exact ⟨_, opens, _, reads, choices, said, rfl⟩

theorem baseSettings_eq_ok_iff : surroundings.baseSettings file? = .ok settings ↔
    ∃ choices, surroundings.Says file? choices ∧ settings = choices.atop .default := by
  cases file? with
  | some path =>
    rw [baseSettings, Except.mapError_eq_ok_iff, settingsAt_eq_ok_iff]
    constructor
    · rintro ⟨choices, tells, rfl⟩
      exact ⟨choices, .named tells, rfl⟩
    · rintro ⟨choices, ⟨tells⟩, rfl⟩
      exact ⟨choices, tells, rfl⟩
  | none =>
    rw [baseSettings]
    split
    · next there =>
      rw [Except.mapError_eq_ok_iff, settingsAt_eq_ok_iff]
      constructor
      · rintro ⟨choices, tells, rfl⟩
        exact ⟨choices, .usual there tells, rfl⟩
      · rintro ⟨choices, _ | ⟨-, tells⟩ | absent, rfl⟩
        · exact ⟨choices, tells, rfl⟩
        · exact absurd there (Bool.eq_false_iff.mp absent)
    · next there =>
      have absent := Bool.eq_false_iff.mpr there
      constructor
      · rintro ⟨⟩
        exact ⟨.silent, .nothing absent, rfl⟩
      · rintro ⟨choices, _ | ⟨there', -⟩ | -, rfl⟩
        · exact absurd there' there
        · rfl

/-- The settings in effect: the layers over each other, if each of them is in order. -/
theorem settings_eq_ok_iff {invocation : Invocation} :
    surroundings.settings invocation = .ok settings ↔
      ∃ choices : Choices, surroundings.Says invocation.settingsFile? choices ∧
        surroundings.environment.Parses ∧
        (surroundings.environment.choices.atop (choices.atop .default)).problem? = none ∧
        settings = (surroundings.environment.choices.atop (choices.atop .default)).withLevel
          invocation.level? ∧
        settings.problem? = none := by
  simp only [Surroundings.settings, Except.bind_eq_ok_iff, Except.mapError_eq_ok_iff,
    baseSettings_eq_ok_iff, Settings.override_eq_ok_iff, Settings.check_eq_ok_iff]
  constructor
  · rintro ⟨base, ⟨choices, hsaid, rfl⟩, merged, ⟨hparses, rfl, hmerged⟩, hnone, rfl⟩
    exact ⟨choices, hsaid, hparses, hmerged, rfl, hnone⟩
  · rintro ⟨choices, hsaid, hparses, hmerged, rfl, hnone⟩
    exact ⟨_, ⟨choices, hsaid, rfl⟩, _, ⟨hparses, rfl, hmerged⟩, hnone, rfl⟩

/-- There are settings to work with just if the lowest layer is in order, every variable that is set
makes its choice, and nothing is wrong with what comes of the two, neither before nor after the
level of the command line is laid on top. Each part of the settings is then what the uppermost layer
says that says anything about it. Such settings are within bounds; so a command that reports on
tokens can make a lexer of its own settings, and reads its input with this lexer. -/
theorem settings_come_in_layers (surroundings : Surroundings) (invocation : Invocation) :
    let chosen := surroundings.environment.choices
    ((∃ settings, surroundings.settings invocation = .ok settings) ↔
        ∃ file, surroundings.Says invocation.settingsFile? file ∧
          surroundings.environment.Parses ∧
          (chosen.atop (file.atop .default)).problem? = none ∧
          ((chosen.atop (file.atop .default)).withLevel invocation.level?).problem? = none) ∧
      ∀ settings, surroundings.settings invocation = .ok settings →
        (∀ file, surroundings.Says invocation.settingsFile? file →
          settings.batchSize = chosen.batchSize?.getD (file.batchSize?.getD 64) ∧
          settings.skipSundry = chosen.skipSundry?.getD (file.skipSundry?.getD false) ∧
          settings.output = chosen.output?.getD (file.output?.getD .text) ∧
          settings.level = (invocation.level?.map String.ofList).getD
            (chosen.level?.getD (file.level?.getD "warn"))) ∧
        (1 ≤ settings.batchSize.toNat ∧ settings.batchSize.toNat ≤ 65536 ∧
          ∃ threshold, Log.Threshold.ofName? settings.level = some threshold) ∧
        ∀ file? effective report, invocation.command.Reports settings file? effective report →
          ∃ (lexer : Lexer) (texts : List Token → List (List Char)),
            Lexer.ofSettings effective = .ok lexer ∧ lexer.settings = effective ∧
            (∀ tokens, (texts tokens).flatten = report tokens) ∧
            invocation.command.script settings = (do
              let tokens ← lexer.readInput file?
              Script.printAll (texts tokens)) := by
  intro chosen
  refine ⟨?_, ?_⟩
  · constructor
    · rintro ⟨settings, hsettings⟩
      obtain ⟨file, hsays, hparses, hmerged, rfl, hnone⟩ := settings_eq_ok_iff.mp hsettings
      exact ⟨file, hsays, hparses, hmerged, hnone⟩
    · rintro ⟨file, hsays, hparses, hmerged, hnone⟩
      exact ⟨_, settings_eq_ok_iff.mpr ⟨file, hsays, hparses, hmerged, rfl, hnone⟩⟩
  · intro settings hsettings
    have hinOrder : settings.problem? = none := problem?_of_settings hsettings
    refine ⟨?_, Settings.problem?_eq_none_iff.mp hinOrder, ?_⟩
    · intro file hsays
      obtain ⟨file', hsays', -, -, rfl, -⟩ := settings_eq_ok_iff.mp hsettings
      obtain rfl := hsays.unique hsays'
      cases invocation.level? <;> exact ⟨rfl, rfl, rfl, rfl⟩
    · intro file? effective report hreports
      obtain ⟨hnone, texts, htexts, hscript⟩ := Command.script_of_reports hinOrder hreports
      exact ⟨⟨effective, hnone⟩, texts, Lexer.ofSettings_of_inOrder hnone, rfl, htexts, hscript⟩

/-- A file with the usual name, two variables and a level on the command line. The size of the
batches and what is skipped come from the variables, the level from the command line. The file alone
says how tokens are printed, but the command names a format of its own. If the file is there but may
not be opened, there are no settings. -/
theorem settings_come_in_layers_all_at_once :
    let document := "batch_size = 7\noutput = \"json\"\n[logging]\nlevel = \"info\"\n".toList
    let environment : Environment := [("SQLLEXER_BATCH_SIZE", [0x2b, 0x39]),
      ("SQLLEXER_SKIP_SUNDRY", [0x20, 0x59, 0x65, 0x73])]
    let surroundings : Surroundings :=
      ⟨environment, (· = fileName), fun _ => .ok (.ofBytes (Utf8.encode document)), .ofBytes []⟩
    let denied : Surroundings :=
      { surroundings with openFile := fun _ => .error ⟨.other, "Permission denied (os error 13)"⟩ }
    let invocation : Invocation :=
      ⟨none, some "debug".toList, .tokenize none false (some "Text".toList)⟩
    surroundings.settings invocation = .ok ⟨9, true, .json, "debug"⟩ ∧
      (∃ file, surroundings.Says none file ∧ file.output?.getD .text = .json) ∧
      (∃ lexer, Lexer.ofSettings ⟨9, true, .text, "debug"⟩ = .ok lexer ∧
        lexer.settings = ⟨9, true, .text, "debug"⟩) ∧
      ¬ ∃ settings, denied.settings invocation = .ok settings := by
  intro document environment surroundings denied invocation
  have hsettings : surroundings.settings invocation = .ok ⟨9, true, .json, "debug"⟩ := by
    apply Except.toOption_eq_some_iff.mp
    decide +kernel
  obtain ⟨hiff, hlayers⟩ := settings_come_in_layers surroundings invocation
  obtain ⟨hiff', -⟩ := settings_come_in_layers denied invocation
  obtain ⟨file, hsays, -, -, -⟩ := hiff.mp ⟨_, hsettings⟩
  obtain ⟨hparts, -, hreports⟩ := hlayers _ hsettings
  obtain ⟨-, -, houtput, -⟩ := hparts file hsays
  obtain ⟨lexer, texts, hlexer, heffective, -, -⟩ :=
    hreports none ⟨9, true, .text, "debug"⟩ (Report.tokens .text) (.tokenizeAs false rfl)
  refine ⟨hsettings, ⟨file, hsays, houtput.symm⟩, ⟨lexer, hlexer, heffective⟩, ?_⟩
  rw [hiff']
  rintro ⟨file, _ | ⟨-, opens, -, -⟩ | absent, -⟩
  · cases opens
  · cases absent

end SqlTokens.Surroundings
