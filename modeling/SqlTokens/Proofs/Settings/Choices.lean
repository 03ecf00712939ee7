import SqlTokens.Proofs.Input.Decoding
import SqlTokens.Proofs.Run.Effective
import SqlTokens.Proofs.Toml.Document

/-!
# Layers of settings

Settings are laid over each other in layers. A layer makes some of the four choices and is silent
about the others, so what is below it shows through there (`Choices.atop`). Each choice of a file
hangs on an entry of its own (`Choices.ofEntries`, `ofFile_eq_ok_iff`), and each choice of the
environment on a variable of its own (`Environment.choices`, `override_eq_ok_iff`).
-/

namespace SqlTokens

open Toml (Value Entries AreKeyed)

/-- The choices that one layer makes. -/
structure Choices where
  batchSize? : Option UInt64
  skipSundry? : Option Bool
  output? : Option OutputFormat
  level? : Option String
  deriving DecidableEq, Repr

namespace Choices

/-- The layer that makes no choice. -/
def silent : Choices :=
  ⟨none, none, none, none⟩

/-- Settings with a layer over them. -/
def atop (choices : Choices) (settings : Settings) : Settings :=
  ⟨choices.batchSize?.getD settings.batchSize, choices.skipSundry?.getD settings.skipSundry,
    choices.output?.getD settings.output, choices.level?.getD settings.level⟩

end Choices

section File

/-- The unsigned 64-bit number that a value is, if it is one. -/
def Toml.Value.word? : Value → Option UInt64
  | .integer number =>
    if 0 ≤ number && number < UInt64.size then some (.ofNat number.toNat) else none
  | _ => none

/-- The truth value, if the value is one. -/
def Toml.Value.truth? : Value → Option Bool
  | .boolean truth => some truth
  | _ => none

/-- The value for the level in what is said about logging: an entry of the table, or the first item
of an array in its place. -/
def Toml.Value.forLevel? : Value → Option Value
  | .table _ entries => entries.lookup "level".toList
  | .array _ items => items.head?
  | _ => none

/-- The level in what is said about logging. -/
def Toml.Value.level? (value : Value) : Option String :=
  value.forLevel?.bind fun value => value.text?.map String.ofList

namespace Choices

/-- The choices that the entries of a document make, each by an entry of its own. -/
def ofEntries (entries : Entries) : Choices where
  batchSize? := (entries.lookup "batch_size".toList).bind Value.word?
  skipSundry? := (entries.lookup "skip_sundry".toList).bind Value.truth?
  output? := (entries.lookup "output".toList).bind OutputFormat.ofToml?
  level? := (entries.lookup "logging".toList).bind Value.level?

end Choices

namespace Settings

variable {settings settings' : Settings} {name : String} {entries : Entries} {value : Value}
  {level level' : String}

/-- What becomes of settings when a choice is made. A part of them is what the value says if the
choice has the name of the part, and otherwise it stays as it was. -/
structure Chosen (settings : Settings) (name : String) (value : Value) (settings' : Settings) :
    Prop where
  batchSize : if name = "batch_size" then value.word? = some settings'.batchSize
    else settings'.batchSize = settings.batchSize
  skipSundry : if name = "skip_sundry" then value.truth? = some settings'.skipSundry
    else settings'.skipSundry = settings.skipSundry
  output : if name = "output" then OutputFormat.ofToml? value = some settings'.output
    else settings'.output = settings.output
  level : if name = "logging" then levelOfToml? default.level value = some settings'.level
    else settings'.level = settings.level

theorem chosen_of_chooseToml? (h : settings.chooseToml? name value = some settings') :
    settings.Chosen name value settings' := by
  unfold chooseToml? at h
  split at h
  · split at h
    · split at h
      · next number hrange =>
        cases h
        exact ⟨by simp only [Value.word?, hrange, ↓reduceIte], rfl, rfl, rfl⟩
      · cases h
    · cases h
  · split at h
    · cases h
      exact ⟨rfl, rfl, rfl, rfl⟩
    · cases h
  · obtain ⟨output, hread, rfl⟩ := Option.map_eq_some_iff.mp h
    exact ⟨rfl, rfl, hread, rfl⟩
  · obtain ⟨level, hread, rfl⟩ := Option.map_eq_some_iff.mp h
    exact ⟨rfl, rfl, rfl, hread⟩
  · next h₁ h₂ h₃ h₄ =>
    split at h
    · cases h
      exact ⟨by rw [if_neg h₁], by rw [if_neg h₂], by rw [if_neg h₃], by rw [if_neg h₄]⟩
    · cases h

/-- It does not hang on the settings so far whether a choice can be made. -/
theorem isSome_chooseToml? (settings settings' : Settings) (name : String) (value : Value) :
    (settings.chooseToml? name value).isSome = (settings'.chooseToml? name value).isSome := by
  unfold chooseToml?
  split
  · split
    · split <;> rfl
    · rfl
  · split <;> rfl
  · rw [Option.isSome_map, Option.isSome_map]
  · rw [Option.isSome_map, Option.isSome_map]
  · split <;> rfl

/-- The level is the one that is given for it, or it stays as it was. -/
theorem levelOfToml?_eq (hvalue : value.IsKeyed) (h : levelOfToml? level value = some level') :
    level' = value.level?.getD level := by
  unfold levelOfToml? at h
  split at h
  · cases h
    rfl
  · rw [Value.level?, Value.forLevel?, List.head?_cons, Option.bind_some, h]
    rfl
  · next entries =>
    have hkeys := (Toml.isKeyed_table_iff.mp hvalue).keys
    refine lookup_of_foldlM "level".toList id (fun value => value.text?.map String.ofList) ?_ ?_
      hkeys h
    · intro level value level' _ h
      dsimp only at h
      rwa [if_pos rfl] at h
    · intro level entry level' _ hkey h
      dsimp only at h
      rw [if_neg hkey] at h
      split at h
      · cases h
        rfl
      · cases h
  · cases h
    rfl
  · cases h

theorem Chosen.level_eq (h : settings.Chosen name value settings') (hvalue : value.IsKeyed) :
    if name = "logging" then some (value.level?.getD default.level) = some settings'.level
      else settings'.level = settings.level := by
  have hlevel := h.level
  split
  · next hname =>
    rw [if_pos hname] at hlevel
    exact congrArg some (levelOfToml?_eq hvalue hlevel).symm
  · next hname =>
    rw [if_neg hname] at hlevel
    exact hlevel

/-- A part of the settings that hangs on one choice is what the entry with its name makes of it. -/
theorem part_of_ofEntries? {β : Type} (name : String) (part : Settings → β)
    (read : Value → Option β)
    (hangs : ∀ (s : Settings) other value s', value.IsKeyed → s.Chosen other value s' →
      if other = name then read value = some (part s') else part s' = part s)
    (hentries : AreKeyed entries) (h : ofEntries? entries = some settings) :
    part settings = ((entries.lookup name.toList).bind read).getD (part default) := by
  refine lookup_of_foldlM name.toList part read ?_ ?_ hentries.keys h
  · intro s value s' hmem h
    have hpart := hangs s _ value s' (hentries.each _ hmem) (chosen_of_chooseToml? h)
    rwa [if_pos String.ofList_toList] at hpart
  · intro s entry s' hmem hkey h
    have hother : String.ofList entry.1 ≠ name := by
      rintro rfl
      exact hkey String.toList_ofList.symm
    have hpart := hangs s _ entry.2 s' (hentries.each _ hmem) (chosen_of_chooseToml? h)
    rwa [if_neg hother] at hpart

theorem eq_atop_of_ofEntries? (hentries : AreKeyed entries)
    (h : ofEntries? entries = some settings) :
    settings = (Choices.ofEntries entries).atop default := by
  have hbatchSize := part_of_ofEntries? "batch_size" batchSize Value.word?
    (fun s other value s' _ hchosen => hchosen.batchSize) hentries h
  have hskipSundry := part_of_ofEntries? "skip_sundry" skipSundry Value.truth?
    (fun s other value s' _ hchosen => hchosen.skipSundry) hentries h
  have houtput := part_of_ofEntries? "output" output OutputFormat.ofToml?
    (fun s other value s' _ hchosen => hchosen.output) hentries h
  have hlevel := part_of_ofEntries? "logging" Settings.level
    (fun value => some (value.level?.getD default.level))
    (fun s other value s' hvalue hchosen => hchosen.level_eq hvalue) hentries h
  show (⟨settings.batchSize, settings.skipSundry, settings.output, settings.level⟩ : Settings) = _
  rw [hbatchSize, hskipSundry, houtput, hlevel, Choices.atop, Choices.ofEntries]
  cases entries.lookup "logging".toList <;> rfl

/-- What the entries of a document say. Each of them must make sense, and then each choice is the
one that its own entry makes. -/
theorem ofEntries?_eq_some_iff (hentries : AreKeyed entries) :
    ofEntries? entries = some settings ↔
      (∀ entry ∈ entries,
        (default.chooseToml? (String.ofList entry.1) entry.2).isSome = true) ∧
      settings = (Choices.ofEntries entries).atop default := by
  have hsense := isSome_foldlM_iff (fun s s' (entry : List Char × Value) =>
    s.isSome_chooseToml? s' (String.ofList entry.1) entry.2) entries default
  constructor
  · intro h
    refine ⟨?_, eq_atop_of_ofEntries? hentries h⟩
    exact hsense.mp (Option.isSome_of_eq_some h)
  · rintro ⟨h, rfl⟩
    obtain ⟨settings, hsettings⟩ := Option.isSome_iff_exists.mp (hsense.mpr h)
    have heq := eq_atop_of_ofEntries? hentries hsettings
    rw [← heq]
    exact hsettings

end Settings

/-- The bytes of a file say choices. They encode a document, all entries of the document make sense,
and nothing is wrong with the settings that come of them. -/
inductive Choices.AreSaidBy : Choices → List UInt8 → Prop where
  | mk {text : List Char} {entries : Entries} (reads : Toml.read? text = some entries)
      (sense : ∀ entry ∈ entries,
        (Settings.default.chooseToml? (String.ofList entry.1) entry.2).isSome = true)
      (inOrder : ((ofEntries entries).atop .default).problem? = none) :
      AreSaidBy (ofEntries entries) (Utf8.encode text)

theorem Settings.ofFile_eq_ok_iff {settings : Settings} {bytes : List UInt8} :
    ofFile bytes = .ok settings ↔
      ∃ choices : Choices, choices.AreSaidBy bytes ∧ settings = choices.atop default := by
  constructor
  · intro h
    rw [ofFile] at h
    split at h
    · cases h
    next text htext =>
    have hdocument := Except.mapError_eq_ok_iff.mp h
    rw [ofDocument] at hdocument
    split at hdocument
    · next settings' hread =>
      obtain ⟨entries, hentries, hsettings⟩ := Option.bind_eq_some_iff.mp hread
      obtain ⟨hnone, rfl⟩ := check_eq_ok_iff.mp hdocument
      obtain ⟨hsense, rfl⟩ :=
        (ofEntries?_eq_some_iff (Toml.areKeyed_of_read? hentries)).mp hsettings
      rw [← Utf8.text?_eq_some_iff.mp htext]
      exact ⟨_, .mk hentries hsense hnone, rfl⟩
    · cases hdocument
  · rintro ⟨choices, ⟨hreads, hsense, hnone⟩, rfl⟩
    have hsettings :=
      (ofEntries?_eq_some_iff (Toml.areKeyed_of_read? hreads)).mpr ⟨hsense, rfl⟩
    rw [ofFile, Utf8.text?_eq_some_iff.mpr rfl]
    apply Except.mapError_eq_ok_iff.mpr
    rw [ofDocument, hreads, Option.bind_some, hsettings]
    exact check_eq_ok_iff.mpr ⟨hnone, rfl⟩

theorem Choices.AreSaidBy.unique {choices choices' : Choices} {bytes : List UInt8}
    (h : choices.AreSaidBy bytes) (h' : choices'.AreSaidBy bytes) : choices = choices' := by
  cases h with
  | @mk text entries reads sense inOrder =>
    generalize hbytes : Utf8.encode text = bytes at h'
    cases h' with
    | @mk text' entries' reads' sense' inOrder' =>
      have htext := Utf8.text?_eq_some_iff.mpr hbytes
      rw [Utf8.text?_eq_some_iff.mpr rfl] at htext
      cases htext
      rw [reads] at reads'
      cases reads'
      rfl

end File

section Environment

namespace Environment

/-- The text that the variable for a choice is set to. -/
def setting? (environment : Environment) (name : String) : Option String :=
  environment.value? (Settings.variablePrefix ++ name)

/-- The choices that the environment makes, each by a variable of its own. -/
def choices (environment : Environment) : Choices where
  batchSize? := (environment.setting? "BATCH_SIZE").bind fun value => Text.word? value.toList
  skipSundry? := (environment.setting? "SKIP_SUNDRY").bind Settings.readFlag?
  output? := (environment.setting? "OUTPUT").bind fun value => (Settings.readOutput value).toOption
  level? := environment.setting? "LOG_LEVEL"

/-- Every variable that is set makes its choice. The level can be set to any text. -/
structure Parses (environment : Environment) : Prop where
  batchSize : (environment.setting? "BATCH_SIZE").isSome = true →
    environment.choices.batchSize?.isSome = true
  skipSundry : (environment.setting? "SKIP_SUNDRY").isSome = true →
    environment.choices.skipSundry?.isSome = true
  output : (environment.setting? "OUTPUT").isSome = true →
    environment.choices.output?.isSome = true

end Environment

namespace Settings

variable {environment : Environment} {settings settings' : Settings}

theorem readVariable_eq_ok_iff {α : Type} {name : String} {read : String → Except Problem α}
    {chosen value : α} :
    readVariable environment name read chosen = .ok value ↔
      ((environment.setting? name).isSome = true →
        ((environment.setting? name).bind fun value => (read value).toOption).isSome = true) ∧
      value =
        ((environment.setting? name).bind fun value => (read value).toOption).getD chosen := by
  rw [readVariable, Environment.setting?]
  cases environment.value? (variablePrefix ++ name) with
  | none => simp [eq_comm]
  | some text => cases hread : read text <;> simp [hread, Except.toOption, eq_comm]

theorem toOption_orBadVariable {α : Type} (name value : String) (result? : Option α) :
    (orBadVariable name value result?).toOption = result? := by
  cases result? <;> rfl

/-- The environment overrides settings if every variable that is set makes its choice, and if
nothing is wrong with what comes of it. -/
theorem override_eq_ok_iff : settings.override environment = .ok settings' ↔
    environment.Parses ∧ settings' = environment.choices.atop settings ∧
      settings'.problem? = none := by
  have hlevel : ((environment.setting? "LOG_LEVEL").bind fun value =>
      (Except.ok value : Except Problem String).toOption) = environment.choices.level? :=
    Option.bind_fun_some _
  simp only [override, Except.bind_eq_ok_iff, readVariable_eq_ok_iff, toOption_orBadVariable,
    check_eq_ok_iff, hlevel]
  constructor
  · rintro ⟨batchSize, ⟨hbatchSize, rfl⟩, skipSundry, ⟨hskipSundry, rfl⟩, output, ⟨houtput, rfl⟩,
      level, ⟨-, rfl⟩, hnone, rfl⟩
    exact ⟨⟨hbatchSize, hskipSundry, houtput⟩, rfl, hnone⟩
  · rintro ⟨⟨hbatchSize, hskipSundry, houtput⟩, rfl, hnone⟩
    exact ⟨_, ⟨hbatchSize, rfl⟩, _, ⟨hskipSundry, rfl⟩, _, ⟨houtput, rfl⟩, _, ⟨id, rfl⟩, hnone, rfl⟩

end Settings

end Environment

end SqlTokens
