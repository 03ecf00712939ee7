import SqlTokens.Lexing.Rule
import SqlTokens.Proofs.Input.Source

/-!
# How far a rule reaches

`Rule.extent` is what a rule takes of a text that lies before it as a whole. Reading a source in
batches comes to the same (`consume_ok`): the state of the rule is carried from batch to batch, and
what the last batch holds too much goes back in front of the rest.

What is read does not depend on whether it is kept (`exists_consume_eq`).
-/

namespace SqlTokens

namespace Sink

@[simp] theorem push_nil (sink : Sink) : sink.push [] = sink := by
  cases sink with
  | mk kept => cases kept <;> rfl

@[simp] theorem push_push (chars more : List Char) (sink : Sink) :
    (sink.push chars).push more = sink.push (chars ++ more) := by
  cases sink with
  | mk kept => cases kept <;> simp [push, List.reverseAux_eq]

end Sink

namespace Rule

variable {σ : Type} {rule : Rule σ} {state next : σ} {text taken left : List Char}

/-- What a rule takes of a text that is not cut into batches. -/
def extent (rule : Rule σ) (state : σ) (text : List Char) : List Char :=
  match rule.run state text with
  | .running _ => text
  | .stopped taken _ => taken

@[simp] theorem extent_nil : rule.extent state [] = [] := rfl

theorem extent_cons (c : Char) (text : List Char) :
    rule.extent state (c :: text) =
      match rule.answer state c with
      | .stopBefore => []
      | .stopAfter => [c]
      | .take next => c :: rule.extent next text := by
  unfold extent
  rw [run]
  cases rule.answer state c with
  | stopBefore => rfl
  | stopAfter => rfl
  | take next =>
    simp only
    cases rule.run next text <;> rfl

/-- A rule that does not stop before a character takes it. -/
theorem extent_cons_ne_nil {c : Char} (h : rule.answer state c ≠ .stopBefore) (text : List Char) :
    rule.extent state (c :: text) ≠ [] := by
  rw [extent_cons]
  cases hanswer : rule.answer state c with
  | stopBefore => exact absurd hanswer h
  | stopAfter => exact List.cons_ne_nil c []
  | take next => exact List.cons_ne_nil c _

/-- A rule reads on from the state in which a part of the text left it, if it has not stopped. -/
theorem run_append (rule : Rule σ) (state : σ) (text more : List Char) :
    rule.run state (text ++ more) =
      match rule.run state text with
      | .stopped taken left => .stopped taken (left ++ more)
      | .running next =>
        match rule.run next more with
        | .stopped taken left => .stopped (text ++ taken) left
        | .running last => .running last := by
  induction state, text using run.induct rule with
  | case1 state =>
    show rule.run state more = _
    cases hmore : rule.run state more <;> simp [run, hmore]
  | case2 state c text hanswer => simp [run, hanswer]
  | case3 state c text hanswer => simp [run, hanswer]
  | case4 state c text next hanswer last hrun ih =>
    simp only [hrun] at ih
    rw [List.cons_append, run, hanswer, run, hanswer]
    simp only [hrun, ih]
    cases rule.run last more <;> rfl
  | case5 state c text next hanswer taken left hrun ih =>
    simp only [hrun] at ih
    rw [List.cons_append, run, hanswer, run, hanswer]
    simp only [hrun, ih]

/-- Once a rule has stopped, nothing that follows matters. -/
theorem extent_append_of_stopped (h : rule.run state text = .stopped taken left)
    (more : List Char) : rule.extent state (text ++ more) = taken := by
  rw [extent, run_append, h]

/-- A rule that has not stopped goes on in its new state. -/
theorem extent_append_of_running (h : rule.run state text = .running next) (more : List Char) :
    rule.extent state (text ++ more) = text ++ rule.extent next more := by
  cases hmore : rule.run next more <;> simp only [extent, run_append, h, hmore]

theorem extent_prefix_self (rule : Rule σ) (state : σ) (text : List Char) :
    rule.extent state text <+: text := by
  unfold extent
  split
  · exact List.prefix_rfl
  · rename_i hrun
    exact ⟨_, append_of_run hrun⟩

/-- A rule that leaves a part of a text has stopped in it. -/
theorem extent_append_of_lt (h : (rule.extent state text).length < text.length)
    (more : List Char) : rule.extent state (text ++ more) = rule.extent state text := by
  cases hrun : rule.run state text with
  | running last => simp [extent, hrun] at h
  | stopped taken left => rw [extent_append_of_stopped hrun, extent, hrun]

section Consume

variable {batch : Nat} {sink sink' : Sink} {source rest : Source} {fault : Fault}

/-- Reading in batches takes the extent of the rule and leaves what follows it. -/
theorem consume_ok (h : rule.consume batch state sink source = (.ok sink', rest)) :
    sink' = sink.push (rule.extent state source.chars) ∧
      rule.extent state source.chars ++ rest.chars = source.chars ∧
      rest.stop? = source.stop? := by
  induction state, sink, source using consume.induct rule batch with
  | case1 state sink source fault source' hfill =>
    rw [consume, hfill] at h
    cases h
  | case2 state sink source source' hfill =>
    rw [consume, hfill] at h
    cases h
    obtain ⟨-, hchars, hstop⟩ := Source.fill_ok hfill
    obtain ⟨hnil, -⟩ := Source.of_fill_nil (by omega) hfill
    rw [hnil] at hchars ⊢
    exact ⟨(Sink.push_nil _).symm, by simpa using hchars, hstop⟩
  | case3 state sink source c cs source' hfill taken left hrun =>
    rw [consume, hfill] at h
    simp only [hrun] at h
    cases h
    obtain ⟨-, -, hstop⟩ := Source.fill_ok hfill
    have hall : source.chars = (taken ++ left) ++ source'.chars := by
      rw [append_of_run hrun, Source.append_chars_of_fill hfill]
    have hextent : rule.extent state source.chars = taken := by
      rw [hall, append_of_run hrun]
      exact extent_append_of_stopped hrun _
    rw [hextent]
    exact ⟨rfl, by rw [Source.chars_undo, hall, List.append_assoc], hstop⟩
  | case4 state sink source c cs source' hfill next hrun ih =>
    rw [consume, hfill] at h
    simp only [hrun] at h
    obtain ⟨-, -, hstop⟩ := Source.fill_ok hfill
    obtain ⟨hsink, hrest, hstop'⟩ := ih h
    have hall := (Source.append_chars_of_fill hfill).symm
    have hextent : rule.extent state source.chars =
        (c :: cs) ++ rule.extent next source'.chars := by
      rw [hall]
      exact extent_append_of_running hrun _
    rw [hextent]
    refine ⟨?_, ?_, hstop'.trans hstop⟩
    · rw [hsink, Sink.push_push]
    · rw [List.append_assoc, hrest, hall]

/-- Only the fault that the source stops before can keep a rule from coming to its end. -/
theorem consume_error (h : rule.consume batch state sink source = (.error fault, rest)) :
    source.stop? = some fault := by
  induction state, sink, source using consume.induct rule batch with
  | case1 state sink source fault' source' hfill =>
    rw [consume, hfill] at h
    cases h
    exact Source.fill_error hfill
  | case2 state sink source source' hfill =>
    rw [consume, hfill] at h
    cases h
  | case3 state sink source c cs source' hfill taken left hrun =>
    rw [consume, hfill] at h
    simp only [hrun] at h
    cases h
  | case4 state sink source c cs source' hfill next hrun ih =>
    rw [consume, hfill] at h
    simp only [hrun] at h
    rw [← (Source.fill_ok hfill).2.2]
    exact ih h

/-- What is read, and what is left of the source, is the same for every sink. -/
theorem exists_consume_eq (rule : Rule σ) (batch : Nat) (state : σ) (source : Source) :
    ∃ (result : Except Fault (List Char)) (rest : Source), ∀ sink : Sink,
      rule.consume batch state sink source = (result.map sink.push, rest) := by
  induction state, Sink.empty true, source using consume.induct rule batch with
  | case1 state sink source fault source' hfill =>
    refine ⟨.error fault, source', ?_⟩
    intro sink
    rw [consume, hfill]
    rfl
  | case2 state sink source source' hfill =>
    refine ⟨.ok [], source', ?_⟩
    intro sink
    rw [consume, hfill]
    simp [Except.map]
  | case3 state sink source c cs source' hfill taken left hrun =>
    refine ⟨.ok taken, source'.undo left, ?_⟩
    intro sink
    rw [consume, hfill]
    simp only [hrun, Except.map]
  | case4 state sink source c cs source' hfill next hrun ih =>
    obtain ⟨result, rest, heq⟩ := ih
    refine ⟨result.map ((c :: cs) ++ ·), rest, ?_⟩
    intro sink
    rw [consume, hfill]
    simp only [hrun, heq]
    cases result <;> simp [Except.map]

end Consume

end Rule

end SqlTokens
