import SqlTokens.Disk

/-!
# Writing a file

A path that a file can be written to leads to one place, where there is a file or nothing
(`Disk.spot`). On the way there it goes through folders only (`Disk.Walk`). Writing the file
fills this place, leaves all others alone and keeps the folders on the way. So the same path leads
to the same place afterwards (`Walk.put`), and who opens it reads what was written
(`Leads.openFile_put`).
-/

namespace SqlTokens.Disk

variable {disk disk' : Disk} {names other above : List FileName} {path : List Char}
  {bytes : List UInt8}

/-- Something is below the given names, and no file is there. A path can go on through them. -/
structure Passable (disk : Disk) (names : List FileName) : Prop where
  no_file : disk.bytes? names = none
  isFolder : disk.isFolder names = true

/-- The place with given names that no folder is at: a file, or a place for one. -/
def spot (disk : Disk) (names : List FileName) : Place :=
  match disk.bytes? names with
  | some bytes => .file names bytes
  | none => .vacant names

theorem spot_put_self : (disk.put names bytes).spot names = .file names bytes := by
  rw [spot, bytes?_put_self]

section Put

theorem not_passable_put_self : ¬ (disk.put names bytes).Passable names := by
  intro h
  have hnone := h.no_file
  rw [bytes?_put_self] at hnone
  cases hnone

theorem Passable.put (h : disk.Passable other) (hne : ¬ disk.Passable names) :
    (disk.put names bytes).Passable other := by
  have hother : other ≠ names := by
    rintro rfl
    exact hne h
  refine ⟨(disk.bytes?_put_of_ne hother bytes).trans h.no_file, ?_⟩
  rcases Bool.or_eq_true_iff.mp h.isFolder with hlisted | hfiles
  · exact Bool.or_eq_true_iff.mpr (.inl hlisted)
  · obtain ⟨file, hmem, hbelow⟩ := List.any_eq_true.mp hfiles
    apply Bool.or_eq_true_iff.mpr (.inr (List.any_eq_true.mpr _))
    by_cases hfile : file.1 = names
    · exact ⟨(names, bytes), List.mem_cons_self, hfile ▸ hbelow⟩
    · refine ⟨file, List.mem_cons_of_mem _ ?_, hbelow⟩
      exact List.mem_filter.mpr ⟨hmem, by simpa using hfile⟩

end Put

section Steps

variable {step : FileName} {steps : List FileName}

/-- A step that leads to what has its name. -/
structure IsName (step : FileName) : Prop where
  not_idle : ¬ isIdle step = true
  not_up : step ≠ ['.', '.']
  size : ¬ maxNameSize < (Utf8.encode step).length

theorem follow_idle (h : isIdle step = true) :
    disk.follow above (step :: steps) = disk.follow above steps := by
  rw [follow, if_pos h]

theorem follow_up :
    disk.follow above (['.', '.'] :: steps) = disk.follow above.dropLast steps := by
  rw [follow, if_neg (by decide), if_pos rfl]

theorem follow_passable (h : IsName step) (passable : disk.Passable (above ++ [step])) :
    disk.follow above (step :: steps) = disk.follow (above ++ [step]) steps := by
  rw [follow, if_neg h.not_idle, if_neg h.not_up, if_neg h.size]
  simp only [passable.no_file, passable.isFolder, ↓reduceIte]

theorem follow_not_passable (h : IsName step) (not_passable : ¬ disk.Passable (above ++ [step])) :
    disk.follow above (step :: steps) =
      if steps.isEmpty then .ok (disk.spot (above ++ [step]))
      else .error (if (disk.bytes? (above ++ [step])).isSome then .notADirectory else .notFound)
    := by
  rw [follow, if_neg h.not_idle, if_neg h.not_up, if_neg h.size, spot]
  cases hbytes : disk.bytes? (above ++ [step]) with
  | some bytes => simp only [hbytes, Option.isSome_some, ↓reduceIte]
  | none =>
    have hfolder : ¬ disk.isFolder (above ++ [step]) = true := fun h => not_passable ⟨hbytes, h⟩
    simp only [hbytes, hfolder, Option.isSome_none, Bool.false_eq_true, ↓reduceIte]

/-- A step that leads somewhere has a name, unless it leads up or nowhere. -/
theorem isName_of_follow {place : Place} (h : disk.follow above (step :: steps) = .ok place)
    (hidle : ¬ isIdle step = true) (hup : step ≠ ['.', '.']) : IsName step := by
  refine ⟨hidle, hup, ?_⟩
  intro hsize
  rw [follow, if_neg hidle, if_neg hup, if_pos hsize] at h
  cases h

end Steps

/-- Steps that lead from a folder to the place with given names. -/
inductive Walk (disk : Disk) (names : List FileName) : List FileName → List FileName → Prop where
  | idle {above : List FileName} {step : FileName} {steps : List FileName}
      (h : isIdle step = true) (walk : Walk disk names above steps) :
      Walk disk names above (step :: steps)
  | up {above : List FileName} {steps : List FileName}
      (walk : Walk disk names above.dropLast steps) : Walk disk names above (['.', '.'] :: steps)
  | down {above : List FileName} {step : FileName} {steps : List FileName} (isName : IsName step)
      (passable : disk.Passable (above ++ [step]))
      (walk : Walk disk names (above ++ [step]) steps) : Walk disk names above (step :: steps)
  | last {above : List FileName} {step : FileName} (isName : IsName step)
      (names_eq : above ++ [step] = names) (not_passable : ¬ disk.Passable names) :
      Walk disk names above [step]

namespace Walk

variable {steps : List FileName}

theorem follow_eq (h : disk.Walk names above steps) :
    disk.follow above steps = .ok (disk.spot names) := by
  induction h with
  | idle h walk ih => rw [follow_idle h, ih]
  | up walk ih => rw [follow_up, ih]
  | down isName passable walk ih => rw [follow_passable isName passable, ih]
  | last isName names_eq not_passable =>
    subst names_eq
    rw [follow_not_passable isName not_passable]
    rfl

theorem not_passable (h : disk.Walk names above steps) : ¬ disk.Passable names := by
  induction h with
  | idle h walk ih => exact ih
  | up walk ih => exact ih
  | down isName passable walk ih => exact ih
  | last isName names_eq not_passable => exact not_passable

/-- Writing a file does not close the way to it. -/
theorem put (h : disk.Walk names above steps) (bytes : List UInt8) :
    (disk.put names bytes).Walk names above steps := by
  -- The place is none of the folders on the way, so all of them stay what they are.
  have hplace := h.not_passable
  induction h with
  | idle h walk ih => exact .idle h ih
  | up walk ih => exact .up ih
  | down isName passable walk ih => exact .down isName (passable.put hplace) ih
  | last isName names_eq not_passable => exact .last isName names_eq not_passable_put_self

end Walk

/-- What steps lead to is a folder, or it lies at the end of a walk. -/
theorem walk_of_follow {steps : List FileName} {place : Place}
    (h : disk.follow above steps = .ok place) :
    place = .folder ∨ ∃ names, disk.Walk names above steps ∧ place = disk.spot names := by
  induction steps generalizing above with
  | nil =>
    cases h
    exact .inl rfl
  | cons step steps ih =>
    by_cases hidle : isIdle step = true
    · rw [follow_idle hidle] at h
      exact (ih h).imp_right fun ⟨names, hwalk, hplace⟩ => ⟨names, .idle hidle hwalk, hplace⟩
    by_cases hup : step = ['.', '.']
    · subst hup
      rw [follow_up] at h
      exact (ih h).imp_right fun ⟨names, hwalk, hplace⟩ => ⟨names, .up hwalk, hplace⟩
    have hname := isName_of_follow h hidle hup
    by_cases hpassable : disk.Passable (above ++ [step])
    · rw [follow_passable hname hpassable] at h
      exact (ih h).imp_right fun ⟨names, hwalk, hplace⟩ =>
        ⟨names, .down hname hpassable hwalk, hplace⟩
    · rw [follow_not_passable hname hpassable] at h
      split at h
      · next hempty =>
        obtain rfl := List.isEmpty_iff.mp hempty
        cases h
        exact .inr ⟨_, .last hname rfl hpassable, rfl⟩
      · cases h

/-- A path leads to the place with given names, where there is a file or nothing. -/
structure Leads (disk : Disk) (path : List Char) (names : List FileName) : Prop where
  no_nul : ¬ path.contains '\x00' = true
  ne_nil : path ≠ []
  size : ¬ maxPathSize < (Utf8.encode path).length
  walk : disk.Walk names (disk.start path) (Text.pieces '/' path)

theorem Leads.locate_eq (h : disk.Leads path names) :
    disk.locate path = .ok (disk.spot names) := by
  rw [locate, if_neg h.no_nul, if_neg h.ne_nil, if_neg h.size]
  exact h.walk.follow_eq

theorem Leads.put (h : disk.Leads path names) (bytes : List UInt8) :
    (disk.put names bytes).Leads path names :=
  { h with walk := h.walk.put bytes }

/-- What a path leads to is a folder, or it is the place with some names. -/
theorem leads_of_locate {place : Place} (h : disk.locate path = .ok place) :
    place = .folder ∨ ∃ names, disk.Leads path names ∧ place = disk.spot names := by
  rw [locate] at h
  split at h
  · cases h
  next hnul =>
  split at h
  · cases h
  next hnil =>
  split at h
  · cases h
  next hsize =>
  exact (walk_of_follow h).imp_right fun ⟨names, hwalk, hplace⟩ =>
    ⟨names, ⟨hnul, hnil, hsize, hwalk⟩, hplace⟩

/-- A file that was written is at the place that the path leads to. -/
theorem leads_of_write (h : disk.write path bytes = .ok disk') :
    ∃ names, disk.Leads path names ∧ disk' = disk.put names bytes := by
  simp only [write] at h
  by_cases hbare : (path.reverse.dropWhile (· = '/')).reverse = path
  · simp only [hbare, ite_self, ↓reduceIte] at h
    cases hplace : disk.locate path with
    | error fault =>
      rw [hplace] at h
      cases h
    | ok place =>
      rw [hplace] at h
      rcases leads_of_locate hplace with rfl | ⟨names, hleads, hspot⟩
      · cases h
      · refine ⟨names, hleads, ?_⟩
        rw [hspot, spot] at h
        cases hbytes : disk.bytes? names <;> rw [hbytes] at h <;> cases h <;> rfl
  · simp only [hbare, ↓reduceIte] at h
    split at h <;> cases h

/-- Who opens a file that was just written reads what was written. -/
theorem Leads.openFile_put (h : disk.Leads path names) (bytes : List UInt8) :
    (disk.put names bytes).openFile path = .ok (.ofBytes bytes) := by
  rw [openFile, (h.put bytes).locate_eq, spot_put_self]

end SqlTokens.Disk
