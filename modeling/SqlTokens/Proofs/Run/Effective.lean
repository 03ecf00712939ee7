import SqlTokens.Proofs.Except
import SqlTokens.Proofs.Settings.Document
import SqlTokens.Run.Effective

/-!
# When there are settings to work with

Settings are in effect only if every layer was in order when it was laid. So nothing is wrong with
the settings that are in effect (`problem?_of_settings`), and if there are none, then one of four
things is wrong (`Surroundings.Unsettled`, `settings_eq_error_iff`).
-/

namespace SqlTokens

namespace Settings

variable {settings checked : Settings} {problem : Problem}

theorem check_eq_ok_iff : settings.check = .ok checked ↔
    settings.problem? = none ∧ checked = settings := by
  rw [check]
  cases settings.problem? with
  | none => simp [eq_comm]
  | some problem => simp

theorem check_eq_error_iff : settings.check = .error problem ↔
    settings.problem? = some problem := by
  rw [check]
  cases settings.problem? with
  | none => simp
  | some problem => simp

/-- Nothing is wrong with settings if the batches have a size within bounds and the level is known.
-/
theorem problem?_eq_none_iff : settings.problem? = none ↔
    1 ≤ settings.batchSize.toNat ∧ settings.batchSize.toNat ≤ maxBatchSize.toNat ∧
      ∃ threshold, Log.Threshold.ofName? settings.level = some threshold := by
  have hzero : settings.batchSize = 0 ↔ settings.batchSize.toNat = 0 := by
    rw [← UInt64.toNat_inj]
    rfl
  have hlarge : maxBatchSize < settings.batchSize ↔
      maxBatchSize.toNat < settings.batchSize.toNat := UInt64.lt_iff_toNat_lt
  rw [problem?]
  split
  · next h =>
    have hsize := hzero.mp h
    exact ⟨nofun, fun ⟨hsmall, _, _⟩ => by omega⟩
  split
  · next h =>
    have hsize := hlarge.mp h
    exact ⟨nofun, fun ⟨_, hfits, _⟩ => by omega⟩
  next hpos hfits =>
  rw [hzero] at hpos
  rw [hlarge] at hfits
  cases Log.Threshold.ofName? settings.level with
  | none => simp
  | some threshold =>
    have hbounds : 1 ≤ settings.batchSize.toNat ∧
        settings.batchSize.toNat ≤ maxBatchSize.toNat := by omega
    simp [hbounds]

/-- What is skipped and how tokens are printed is never wrong. -/
theorem problem?_choose (settings : Settings) (skipSundry : Bool) (output : OutputFormat) :
    problem? { settings with skipSundry, output } = settings.problem? := rfl

theorem ofFeed_ofBytes (bytes : List UInt8) : ofFeed (.ofBytes bytes) = ofFile bytes := by
  rw [ofFeed, Feed.readAll_ofBytes]
  rfl

/-- The file that is written for a user who chose nothing says the settings of such a user. -/
theorem ofFile_default : ofFile (Utf8.encode default.toDocument) = .ok default := by
  have hnone : default.problem? = none := by decide
  rw [ofFile_toDocument, check_eq_ok_iff.mpr ⟨hnone, rfl⟩]
  rfl

end Settings

namespace Surroundings

variable {surroundings : Surroundings} {invocation : Invocation} {settings : Settings}
  {failure : Failure}

/-- Why there are no settings in effect. -/
inductive Unsettled (surroundings : Surroundings) (invocation : Invocation) : Failure → Prop where
  /-- The file that is named for the settings says none. -/
  | namedFile {path : List Char} {error : Error} (named : invocation.settingsFile? = some path)
      (reading : surroundings.settingsAt path = .error error) :
      Unsettled surroundings invocation (.settingsFile path error)
  /-- No file is named, and the file with the usual name is there but says none. -/
  | usualFile {error : Error} (unnamed : invocation.settingsFile? = none)
      (there : surroundings.isThere Settings.fileName = true)
      (reading : surroundings.settingsAt Settings.fileName = .error error) :
      Unsettled surroundings invocation (.plain error)
  /-- A variable makes no sense, or the settings do not with the variables. -/
  | environment {base : Settings} {problem : Settings.Problem}
      (below : surroundings.baseSettings invocation.settingsFile? = .ok base)
      (override : base.override surroundings.environment = .error problem) :
      Unsettled surroundings invocation (.plain (.ofProblem problem))
  /-- The level that is named makes no sense. -/
  | level {base overridden : Settings} {problem : Settings.Problem}
      (below : surroundings.baseSettings invocation.settingsFile? = .ok base)
      (override : base.override surroundings.environment = .ok overridden)
      (wrong : (overridden.withLevel invocation.level?).problem? = some problem) :
      Unsettled surroundings invocation (.plain (.ofProblem problem))

theorem problem?_of_settings (h : surroundings.settings invocation = .ok settings) :
    settings.problem? = none := by
  obtain ⟨base, -, h⟩ := Except.bind_eq_ok_iff.mp h
  obtain ⟨overridden, -, h⟩ := Except.bind_eq_ok_iff.mp h
  obtain ⟨hnone, rfl⟩ := Settings.check_eq_ok_iff.mp (Except.mapError_eq_ok_iff.mp h)
  exact hnone

theorem settingsAt_of_openFile {path : List Char} {bytes : List UInt8}
    (h : surroundings.openFile path = .ok (.ofBytes bytes)) :
    surroundings.settingsAt path = Settings.ofFile bytes := by
  rw [settingsAt, h]
  exact Settings.ofFeed_ofBytes bytes

theorem unsettled_of_baseSettings
    (h : surroundings.baseSettings invocation.settingsFile? = .error failure) :
    surroundings.Unsettled invocation failure := by
  cases hfile : invocation.settingsFile? with
  | some path =>
    rw [hfile, baseSettings] at h
    obtain ⟨error, hreading, rfl⟩ := Except.mapError_eq_error_iff.mp h
    exact .namedFile hfile hreading
  | none =>
    rw [hfile, baseSettings] at h
    split at h
    · next hthere =>
      obtain ⟨error, hreading, rfl⟩ := Except.mapError_eq_error_iff.mp h
      exact .usualFile hfile hthere hreading
    · cases h

theorem settings_eq_error_iff : surroundings.settings invocation = .error failure ↔
    surroundings.Unsettled invocation failure := by
  constructor
  · intro h
    rcases Except.bind_eq_error_iff.mp h with hbase | ⟨base, hbase, h⟩
    · exact unsettled_of_baseSettings hbase
    rcases Except.bind_eq_error_iff.mp h with hoverride | ⟨overridden, hoverride, h⟩
    · obtain ⟨problem, hproblem, rfl⟩ := Except.mapError_eq_error_iff.mp hoverride
      exact .environment hbase hproblem
    · obtain ⟨problem, hproblem, rfl⟩ := Except.mapError_eq_error_iff.mp h
      exact .level hbase (Except.mapError_eq_ok_iff.mp hoverride)
        (Settings.check_eq_error_iff.mp hproblem)
  · intro h
    cases h with
    | namedFile named reading =>
      apply Except.bind_eq_error_iff.mpr (.inl _)
      rw [named, baseSettings, reading]
      rfl
    | usualFile unnamed there reading =>
      apply Except.bind_eq_error_iff.mpr (.inl _)
      rw [unnamed, baseSettings, if_pos there, reading]
      rfl
    | environment below override =>
      refine Except.bind_eq_error_iff.mpr (.inr ⟨_, below, ?_⟩)
      exact Except.bind_eq_error_iff.mpr
        (.inl (Except.mapError_eq_error_iff.mpr ⟨_, override, rfl⟩))
    | level below override wrong =>
      refine Except.bind_eq_error_iff.mpr (.inr ⟨_, below, ?_⟩)
      refine Except.bind_eq_error_iff.mpr
        (.inr ⟨_, Except.mapError_eq_ok_iff.mpr override, ?_⟩)
      exact Except.mapError_eq_error_iff.mpr ⟨_, Settings.check_eq_error_iff.mpr wrong, rfl⟩

end Surroundings

end SqlTokens
