import SqlTokens.Proofs.Disk
import SqlTokens.Proofs.Run.Effective
import SqlTokens.Run.Outcome

/-!
# Settings read back from their file

A file that settings are written to is opened at the same path, and it holds their document
(`Disk.leads_of_write`, `Leads.openFile_put`). So what is read from there are these settings, or
the error that tells what is wrong with them (`files_round_trip`).
-/

namespace SqlTokens.Settings

/-- Settings come back from the document that is written for them, whatever they are. If nothing is
wrong with them, reading its bytes gives these very settings. Otherwise it gives the error that
tells what is wrong, and never one about the form of the document. The same comes of reading the
file at a path that the bytes were written to, whatever else is on the disk. -/
theorem files_round_trip (settings : Settings) :
    let bytes := Utf8.encode settings.toDocument
    let reading := ofFile bytes
    (Toml.read? settings.toDocument).bind ofEntries? = some settings ∧
      (settings.problem? = none → reading = .ok settings) ∧
      (∀ problem, settings.problem? = some problem →
        reading = .error (.configuration problem.message)) ∧
      ∀ environment (disk disk' : Disk) input path, disk.write path bytes = .ok disk' →
        ((Disk.machine environment input).surroundings disk').settingsAt path = reading := by
  intro bytes reading
  have hreading : reading = settings.check.mapError .ofProblem := settings.ofFile_toDocument
  refine ⟨?_, ?_, ?_, ?_⟩
  · rw [settings.read?_toDocument, Option.bind_some, settings.ofEntries?_entries]
  · intro hnone
    rw [hreading, check_eq_ok_iff.mpr ⟨hnone, rfl⟩]
    rfl
  · intro problem hproblem
    rw [hreading, check_eq_error_iff.mpr hproblem]
    rfl
  · intro environment disk disk' input path hwrite
    obtain ⟨names, hleads, rfl⟩ := Disk.leads_of_write hwrite
    exact Surroundings.settingsAt_of_openFile (hleads.openFile_put bytes)

/-- A level with both signs, a backslash, a line break, a control and a letter of two bytes takes
several lines and escapes, and is told as it is. Settings that are in order are read from a file
elsewhere on the disk, at a path that starts at the root and goes up again. -/
theorem files_round_trip_hostile_level :
    let level := "'''\"\"\"\\\n\x01é"
    let hostile : Settings := ⟨65536, true, .json, level⟩
    let tame : Settings := ⟨1, false, .text, "Off"⟩
    let above := "/w/../t".toList
    let empty : Disk := ⟨[['w']], [], []⟩
    let first := empty.put [['w'], ['c']] (Utf8.encode hostile.toDocument)
    let second := first.put [['t']] (Utf8.encode tame.toDocument)
    let machine := Disk.machine [] (.ofBytes [])
    hostile.toDocument = ("batch_size = 65536\nskip_sundry = true\noutput = \"json\"\n\n" ++
        "[logging]\nlevel = \"\"\"\n'''\"\"\\\"\\\\\n\\u0001é\"\"\"\n").toList ∧
      empty.write ['c'] (Utf8.encode hostile.toDocument) = .ok first ∧
      first.write above (Utf8.encode tame.toDocument) = .ok second ∧
      (Toml.read? hostile.toDocument).bind ofEntries? = some hostile ∧
      (machine.surroundings first).settingsAt ['c'] =
        .error (.configuration ("unknown log level '" ++ level ++ "'")) ∧
      (machine.surroundings second).settingsAt above = .ok tame := by
  intro level hostile tame above empty first second machine
  have hfirst : empty.write ['c'] (Utf8.encode hostile.toDocument) = .ok first := rfl
  have hsecond : first.write above (Utf8.encode tame.toDocument) = .ok second := rfl
  have hwrong : hostile.problem? = some (.unknownLevel level) := by decide
  have hright : tame.problem? = none := by decide
  obtain ⟨hread, -, herror, hfile⟩ := files_round_trip hostile
  obtain ⟨-, hok, -, hfile'⟩ := files_round_trip tame
  refine ⟨by decide, hfirst, hsecond, hread, ?_, ?_⟩
  · rw [hfile [] empty first (.ofBytes []) ['c'] hfirst]
    exact herror _ hwrong
  · rw [hfile' [] first second (.ofBytes []) above hsecond]
    exact hok hright

end SqlTokens.Settings
