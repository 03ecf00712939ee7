import SqlTokens.Run.Script

/-!
# What a script can leave behind

Whatever a script does before it fails stays done. So a script that fails leaves no trace only if it
takes care: it prints and writes nothing as long as a step that can fail is still to come
(`Script.Careful`). Each step of a careful script keeps to this (`Unspoilt.step`), and so the whole
run does (`Careful.noticed_of_run`). Which steps a script takes at all is said by a licence
(`Script.Obeys`).
-/

namespace SqlTokens

namespace Deeds

variable {σ : Type} {deeds : Deeds σ}

/-- What can be noticed of a run from outside: what it printed and what files it left. -/
def noticed (deeds : Deeds σ) : List Char × σ :=
  (deeds.printed, deeds.files)

@[simp] theorem printed_none (files : σ) : (none files).printed = [] := rfl

@[simp] theorem printed_print (text : List Char) :
    (deeds.print text).printed = deeds.printed ++ text := by
  simp [printed, print]

@[simp] theorem files_print (text : List Char) : (deeds.print text).files = deeds.files := rfl

@[simp] theorem print_print (text text' : List Char) :
    (deeds.print text).print text' = deeds.print (text ++ text') := by
  simp [print]

@[simp] theorem noticed_note (records : List Log.Record) :
    (deeds.note records).noticed = deeds.noticed := by
  rw [note]
  cases deeds.filter? <;> rfl

@[simp] theorem printed_note (records : List Log.Record) :
    (deeds.note records).printed = deeds.printed :=
  congrArg Prod.fst (noticed_note records)

@[simp] theorem files_note (records : List Log.Record) :
    (deeds.note records).files = deeds.files :=
  congrArg Prod.snd (noticed_note records)

end Deeds

namespace Script

variable {α β σ : Type} {machine : Machine σ} {script : Script α} {next : α → Script β}
  {start deeds deeds' : Deeds σ} {value : α} {failure : Failure}

section Run

@[simp] theorem run_ofExcept (result : Except Failure α) (deeds : Deeds σ) :
    (ofExcept result).run machine deeds = (result, deeds) := by
  cases result <;> rfl

@[simp] theorem run_look (answer : Surroundings → Except Failure α) (deeds : Deeds σ) :
    (look answer).run machine deeds = (answer (machine.surroundings deeds.files), deeds) :=
  run_ofExcept (answer (machine.surroundings deeds.files)) deeds

/-- The second of two scripts starts from what the first one has done, unless that one fails. -/
theorem run_bind (script : Script α) (next : α → Script β) (deeds : Deeds σ) :
    (script >>= next).run machine deeds =
      match script.run machine deeds with
      | (.ok value, deeds') => (next value).run machine deeds'
      | (.error failure, deeds') => (.error failure, deeds') := by
  show (script.bind next).run machine deeds = _
  induction script generalizing deeds with
  | done value => rfl
  | fail failure => rfl
  | looking after ih => exact ih _ deeds
  | listening filter after ih => exact ih _
  | noting records after ih => exact ih _
  | printing text after ih => exact ih _
  | writing path bytes after ih =>
    rw [bind, run, run]
    cases machine.fileSystem.write deeds.files path bytes with
    | ok files => exact ih _
    | error fault => rfl

theorem run_bind_of_ok (h : script.run machine deeds = (.ok value, deeds')) :
    (script >>= next).run machine deeds = (next value).run machine deeds' := by
  rw [run_bind, h]

theorem run_bind_of_error (h : script.run machine deeds = (.error failure, deeds')) :
    (script >>= next).run machine deeds = (.error failure, deeds') := by
  rw [run_bind, h]

theorem run_printAll (texts : List (List Char)) (deeds : Deeds σ) :
    (printAll texts).run machine deeds = (.ok (), deeds.print texts.flatten) := by
  induction texts generalizing deeds with
  | nil => rfl
  | cons text texts ih =>
    show (printAll texts).run machine (deeds.print text) = _
    rw [ih, Deeds.print_print, List.flatten_cons]

end Run

/-- Which kinds of steps a script may take, of those that can fail or be noticed. -/
structure Licence where
  fail : Prop
  print : Prop
  write : Prop

namespace Licence

/-- To look around, without being noticed. -/
def toLook : Licence := ⟨True, False, False⟩

/-- To print, without ever failing. -/
def toPrint : Licence := ⟨False, True, False⟩

/-- To look around and to print. -/
def toReport : Licence := ⟨True, True, False⟩

end Licence

/-- A script takes no steps but those that a licence allows. Who writes a file can fail to. -/
inductive Obeys (licence : Licence) : Script α → Prop where
  | done {value : α} : Obeys licence (done value)
  | fail {failure : Failure} (allowed : licence.fail) : Obeys licence (fail failure)
  | looking {next : Surroundings → Script α}
      (each : ∀ surroundings, Obeys licence (next surroundings)) : Obeys licence (looking next)
  | listening {filter : Log.Filter} {next : Script α} (after : Obeys licence next) :
      Obeys licence (listening filter next)
  | noting {records : List Log.Record} {next : Script α} (after : Obeys licence next) :
      Obeys licence (noting records next)
  | printing {text : List Char} {next : Script α} (allowed : licence.print)
      (after : Obeys licence next) : Obeys licence (printing text next)
  | writing {path : List Char} {bytes : List UInt8} {next : Script α} (allowed : licence.write)
      (canFail : licence.fail) (after : Obeys licence next) :
      Obeys licence (writing path bytes next)

namespace Obeys

variable {licence licence' : Licence}

theorem bind (h : script.Obeys licence) (hnext : ∀ value, (next value).Obeys licence) :
    (script >>= next).Obeys licence := by
  show (script.bind next).Obeys licence
  induction h with
  | done => exact hnext _
  | fail allowed => exact .fail allowed
  | looking each ih => exact .looking ih
  | listening after ih => exact .listening ih
  | noting after ih => exact .noting ih
  | printing allowed after ih => exact .printing allowed ih
  | writing allowed canFail after ih => exact .writing allowed canFail ih

theorem mono (h : script.Obeys licence) (hfail : licence.fail → licence'.fail)
    (hprint : licence.print → licence'.print) (hwrite : licence.write → licence'.write) :
    script.Obeys licence' := by
  induction h with
  | done => exact .done
  | fail allowed => exact .fail (hfail allowed)
  | looking each ih => exact .looking ih
  | listening after ih => exact .listening ih
  | noting after ih => exact .noting ih
  | printing allowed after ih => exact .printing (hprint allowed) ih
  | writing allowed canFail after ih => exact .writing (hwrite allowed) (hfail canFail) ih

theorem ofExcept {result : Except Failure α} (h : licence.fail) :
    (Script.ofExcept result).Obeys licence := by
  cases result with
  | ok value => exact .done
  | error failure => exact .fail h

theorem printAll (texts : List (List Char)) (h : licence.print) :
    (Script.printAll texts).Obeys licence := by
  induction texts with
  | nil => exact .done
  | cons text texts ih => exact .printing h ih

/-- A script that may not write files leaves them as they are. -/
theorem files_run (h : script.Obeys licence) (hwrite : ¬ licence.write) (deeds : Deeds σ) :
    (script.run machine deeds).2.files = deeds.files := by
  induction h generalizing deeds with
  | done => rfl
  | fail allowed => rfl
  | looking each ih => exact ih _ deeds
  | listening after ih => exact ih _
  | noting after ih => exact (ih _).trans (Deeds.files_note _)
  | printing allowed after ih => exact ih _
  | writing allowed canFail after ih => exact absurd allowed hwrite

end Obeys

/-- A script prints and writes nothing as long as a step that can fail is still to come. -/
inductive Careful : Script α → Prop where
  | fail {failure : Failure} : Careful (fail failure)
  | looking {next : Surroundings → Script α} (each : ∀ surroundings, Careful (next surroundings)) :
      Careful (looking next)
  | listening {filter : Log.Filter} {next : Script α} (after : Careful next) :
      Careful (listening filter next)
  | noting {records : List Log.Record} {next : Script α} (after : Careful next) :
      Careful (noting records next)
  | writing {path : List Char} {bytes : List UInt8} {next : Script α}
      (after : next.Obeys .toPrint) : Careful (writing path bytes next)
  | sure {script : Script α} (obeys : script.Obeys .toPrint) : Careful script

namespace Careful

theorem bind (h : script.Obeys .toLook) (hnext : ∀ value, (next value).Careful) :
    (script >>= next).Careful := by
  show (script.bind next).Careful
  induction h with
  | done => exact hnext _
  | fail allowed => exact .fail
  | looking each ih => exact .looking ih
  | listening after ih => exact .listening ih
  | noting after ih => exact .noting ih
  | printing allowed => cases allowed
  | writing allowed => cases allowed

end Careful

/-- The first step of a script, and what is left to do after it. -/
def step (machine : Machine σ) (script : Script α) (deeds : Deeds σ) : Script α × Deeds σ :=
  match script with
  | looking next => (next (machine.surroundings deeds.files), deeds)
  | listening filter next => (next, deeds.listen filter)
  | noting records next => (next, deeds.note records)
  | printing text next => (next, deeds.print text)
  | writing path bytes next =>
    match machine.fileSystem.write deeds.files path bytes with
    | .ok files => (next, { deeds with files })
    | .error fault => (fail (.plain (.io fault)), deeds)
  | done _ | fail _ => (script, deeds)

theorem run_step (machine : Machine σ) (script : Script α) (deeds : Deeds σ) :
    (script.step machine deeds).1.run machine (script.step machine deeds).2 =
      script.run machine deeds := by
  cases script with
  | writing path bytes next =>
    rw [step, run]
    cases machine.fileSystem.write deeds.files path bytes <;> rfl
  | _ => rfl

theorem Obeys.step {licence : Licence} (h : script.Obeys licence) (machine : Machine σ)
    (deeds : Deeds σ) : (script.step machine deeds).1.Obeys licence := by
  cases h with
  | done => exact .done
  | fail allowed => exact .fail allowed
  | looking each => exact each _
  | listening after => exact after
  | noting after => exact after
  | printing allowed after => exact after
  | writing allowed canFail after =>
    rw [Script.step]
    split
    · exact after
    · exact .fail canFail

/-- Either nothing that can be noticed was done since the start, and care is still taken, or nothing
can fail any more. -/
inductive Unspoilt (start : Deeds σ) (script : Script α) (deeds : Deeds σ) : Prop where
  | unnoticed (careful : script.Careful) (same : deeds.noticed = start.noticed) :
      Unspoilt start script deeds
  | sure (obeys : script.Obeys .toPrint) : Unspoilt start script deeds

namespace Unspoilt

theorem step (h : Unspoilt start script deeds) (machine : Machine σ) :
    Unspoilt start (script.step machine deeds).1 (script.step machine deeds).2 := by
  cases h with
  | sure obeys => exact .sure (obeys.step machine deeds)
  | unnoticed careful same =>
    cases careful with
    | sure obeys => exact .sure (obeys.step machine deeds)
    | fail => exact .unnoticed .fail same
    | looking each => exact .unnoticed (each _) same
    | listening after => exact .unnoticed after same
    | noting after => exact .unnoticed after ((Deeds.noticed_note _).trans same)
    | writing after =>
      rw [Script.step]
      split
      · exact .sure after
      · exact .unnoticed .fail same

theorem noticed_of_fail (h : Unspoilt start (fail failure : Script α) deeds) :
    deeds.noticed = start.noticed := by
  cases h with
  | unnoticed careful same => exact same
  | sure obeys =>
    cases obeys with
    | fail allowed => cases allowed

/-- A run that is unspoilt and then fails leaves everything as it was at the start. -/
theorem noticed_of_run (h : Unspoilt start script deeds)
    (hrun : script.run machine deeds = (.error failure, deeds')) :
    deeds'.noticed = start.noticed := by
  induction script generalizing deeds with
  | done value => cases hrun
  | fail failure =>
    cases hrun
    exact h.noticed_of_fail
  | looking next ih => exact ih _ (h.step machine) hrun
  | listening filter next ih => exact ih (h.step machine) hrun
  | noting records next ih => exact ih (h.step machine) hrun
  | printing text next ih => exact ih (h.step machine) hrun
  | writing path bytes next ih =>
    have hstep := h.step machine
    rw [← run_step] at hrun
    rw [Script.step] at hstep hrun
    cases hwrite : machine.fileSystem.write deeds.files path bytes with
    | ok files =>
      rw [hwrite] at hstep hrun
      exact ih hstep hrun
    | error fault =>
      rw [hwrite] at hstep hrun
      cases hrun
      exact hstep.noticed_of_fail

end Unspoilt

/-- A careful script that fails has printed nothing and written nothing. -/
theorem Careful.noticed_of_run (h : script.Careful)
    (hrun : script.run machine deeds = (.error failure, deeds')) :
    deeds'.noticed = deeds.noticed :=
  Unspoilt.noticed_of_run (.unnoticed h rfl) hrun

end Script

end SqlTokens
