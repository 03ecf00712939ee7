import SqlTokens.Proofs.Run.Outcome

/-!
# Reports on whole inputs

Two commands read an input to its end and report on its tokens. Which tokens these are hangs on the
input and on a single choice, whether blanks and comments are skipped; neither the size of the
batches nor the way in which the input comes in shows (`Machine.Reports.run_eq`).
-/

namespace SqlTokens.Machine

/-- A run reports on the tokens of a text. It is asked to, there are settings, and the input is
there and holds the text. -/
inductive Reports {σ : Type} (machine : Machine σ) (files : σ) (arguments : List (List Char)) :
    Bool → (List Token → List Char) → List Char → Prop where
  | mk {invocation : Invocation} {settings effective : Settings} {file? : Option (List Char)}
      {report : List Token → List Char} {feed : Feed} {text : List Char}
      (asked : Invocation.ofArguments arguments = .ok invocation)
      (settled : (machine.surroundings files).settings invocation = .ok settings)
      (reports : invocation.command.Reports settings file? effective report)
      (opens : (machine.surroundings files).openInput file? = .ok feed)
      (holds : feed.Holds text) :
      Reports machine files arguments effective.skipSundry report text

namespace Reports

variable {σ : Type} {machine : Machine σ} {files : σ} {arguments : List (List Char)}
  {skipSundry : Bool} {report : List Token → List Char} {text : List Char}

/-- Such a run succeeds, prints its report on all tokens that it keeps, and leaves the files as they
were. -/
theorem run_eq (h : machine.Reports files arguments skipSundry report text) :
    ∃ log, machine.run files arguments =
      ⟨.succeeded, report (tokensKept skipSundry text), files, log⟩ := by
  obtain ⟨asked, settled, reports, opens, holds⟩ := h
  have inOrder := Surroundings.problem?_of_settings settled
  obtain ⟨deeds, hprinted, hfiles, hrun⟩ :=
    Invocation.run_script_of_settled (.none files) settled
  have hleft : deeds.files = files := hfiles
  rw [← hleft] at opens
  obtain ⟨records, hreport⟩ := Command.run_of_holds inOrder reports opens holds
  have hdone := run_of_asked asked (hrun.trans hreport)
  rw [Deeds.printed_print, Deeds.printed_note, hprinted, Deeds.printed_none, List.nil_append,
    Deeds.files_print, Deeds.files_note, hleft] at hdone
  exact ⟨_, hdone⟩

theorem ending_eq (h : machine.Reports files arguments skipSundry report text) :
    (machine.run files arguments).ending = .succeeded := by
  obtain ⟨log, hrun⟩ := h.run_eq
  rw [hrun]

theorem printed_eq (h : machine.Reports files arguments skipSundry report text) :
    (machine.run files arguments).printed = report (tokensKept skipSundry text) := by
  obtain ⟨log, hrun⟩ := h.run_eq
  rw [hrun]

end Reports

end SqlTokens.Machine
