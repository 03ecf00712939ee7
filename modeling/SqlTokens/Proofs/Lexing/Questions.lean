import SqlTokens.Proofs.Lexing.Rule

/-!
# Questions about characters

Where a token ends is found by asking about one character after the other. A rule answers with a
function, so its answers do not show how often it is asked, or about what. They do show if the
questions have effects: then whoever is asked can count them, keep a list of them, or answer by what
was asked before. Here the batches are read with such a `Judge` in place of the rule.

Reading in batches has the effects of a single pass over the text, whatever these effects are
(`Judge.map_consume`). So a judge with a memory is asked about each character once, in order, up to
the first at which the token stops, and about none behind it (`batches_ask_as_one_pass`). A rule is
a judge whose memory is the state of the rule (`Rule.ofJudge`, `Rule.ofJudge_judge`).
-/

namespace SqlTokens

/-- What is said about a character: the token goes on, it stopped before this character, or this
character is its last. -/
inductive Ruling where
  | goOn
  | stopBefore
  | stopAfter
  deriving DecidableEq, Repr

/-- Whoever is asked about characters. A question can have effects. -/
abbrev Judge (m : Type → Type) := Char → m Ruling

namespace Judge

/-- A cut of the characters behind others that belong to the token. -/
def behind (chars : List Char) (cut? : Option (List Char × List Char)) :
    Option (List Char × List Char) :=
  cut?.map fun (taken, left) => (chars ++ taken, left)

theorem behind_nil : behind [] = id := by
  funext cut?
  cases cut? <;> rfl

theorem behind_comp (chars more : List Char) :
    behind chars ∘ behind more = behind (chars ++ more) := by
  funext cut?
  cases cut? with
  | none => rfl
  | some cut => simp [behind]

/-- What can be seen of a result: the characters and the fault still to come, not how the source
holds them. -/
def observe (result : Except Fault Sink × Source) :
    Except Fault Sink × List Char × Option Fault :=
  (result.1, result.2.chars, result.2.stop?)

/-- What comes of a cut of all characters of a source without a fault. -/
def settle (sink : Sink) (text : List Char) (cut? : Option (List Char × List Char)) :
    Except Fault Sink × List Char × Option Fault :=
  (.ok (sink.push (cut?.getD (text, [])).1), (cut?.getD (text, [])).2, none)

theorem settle_behind (sink : Sink) (chars text : List Char) :
    settle sink (chars ++ text) ∘ behind chars = settle (sink.push chars) text := by
  funext cut?
  cases cut? with
  | none => simp [settle, behind]
  | some cut => simp [settle, behind]

section Effects

variable {m : Type → Type} [Monad m]

/-- Ask about the characters at hand, up to the first at which the token stops. There they are cut
in two. -/
def pass (judge : Judge m) : List Char → m (Option (List Char × List Char))
  | [] => pure none
  | c :: cs => do
    match ← judge c with
    | .stopBefore => pure (some ([], c :: cs))
    | .stopAfter => pure (some ([c], cs))
    | .goOn => behind [c] <$> judge.pass cs

/-- Read a source in batches, and ask about the characters of each batch. -/
def consume (judge : Judge m) (batch : Nat) (sink : Sink) (source : Source) :
    m (Except Fault Sink × Source) :=
  match _h : source.fill (max 1 batch) with
  | (.error fault, source) => pure (.error fault, source)
  | (.ok [], source) => pure (.ok sink, source)
  | (.ok (c :: cs), source) => do
    match ← judge.pass (c :: cs) with
    | some (taken, left) => pure (.ok (sink.push taken), source.undo left)
    | none => judge.consume batch (sink.push (c :: cs)) source
termination_by source.size
decreasing_by
  have := Source.size_fill _h
  simp only [List.length_cons] at this
  omega

variable [LawfulMonad m]

theorem pass_append (judge : Judge m) (text more : List Char) :
    judge.pass (text ++ more) = judge.pass text >>= fun cut? =>
      match cut? with
      | some (taken, left) => pure (some (taken, left ++ more))
      | none => behind text <$> judge.pass more := by
  induction text with
  | nil => simp only [List.nil_append, pass, pure_bind, behind_nil, id_map]
  | cons c text ih =>
    rw [List.cons_append, pass, pass, bind_assoc]
    congr 1
    funext ruling
    cases ruling with
    | stopBefore => simp
    | stopAfter => simp
    | goOn =>
      simp only [ih, map_bind, bind_map_left]
      congr 1
      funext cut?
      cases cut? with
      | none =>
        show behind [c] <$> behind text <$> judge.pass more = behind (c :: text) <$> judge.pass more
        rw [← comp_map, behind_comp, List.singleton_append]
      | some cut => rw [map_pure]; rfl

/-- Reading in batches has the effects of a single pass over all characters, and comes to the same
result. -/
theorem map_consume (judge : Judge m) (batch : Nat) (sink : Sink) (source : Source)
    (h : source.stop? = none) :
    observe <$> judge.consume batch sink source =
      settle sink source.chars <$> judge.pass source.chars := by
  induction sink, source using consume.induct batch with
  | case1 sink source fault rest hfill =>
    rw [Source.fill_error hfill] at h
    cases h
  | case2 sink source rest hfill =>
    obtain ⟨-, hrest, hstop⟩ := Source.fill_ok hfill
    obtain ⟨hnil, -⟩ := Source.of_fill_nil (by omega) hfill
    rw [hnil, List.drop_nil] at hrest
    rw [consume, hfill, hnil, pass, map_pure, map_pure, observe, hrest, hstop.trans h]
    simp [settle]
  | case3 sink source c cs rest hfill ih =>
    obtain ⟨-, -, hstop⟩ := Source.fill_ok hfill
    have hrest : rest.stop? = none := hstop.trans h
    have hchars : source.chars = (c :: cs) ++ rest.chars :=
      (Source.append_chars_of_fill hfill).symm
    rw [consume, hfill, hchars, pass_append, map_bind, map_bind]
    -- The batch is asked about on both sides; what comes after it hangs on whether it was cut.
    congr 1
    funext cut?
    cases cut? with
    | some cut =>
      simp only [map_pure]
      rw [observe, Source.chars_undo, Source.stop?_undo, hrest]
      rfl
    | none =>
      rw [← comp_map, settle_behind]
      exact ih hrest

end Effects

section Memory

variable {τ : Type} {judge : Judge (StateM τ)} {memory last : τ} {text more taken left : List Char}

/-- A judge lets a token go on through a text. It is asked about each character once, in order, and
remembers as it goes. -/
inductive GoesOn (judge : Judge (StateM τ)) : τ → List Char → τ → Prop where
  | nil (memory : τ) : GoesOn judge memory [] memory
  | cons {memory next last : τ} {c : Char} {text : List Char}
      (ruling : (judge c).run memory = (.goOn, next)) (goesOn : GoesOn judge next text last) :
      GoesOn judge memory (c :: text) last

/-- A judge cuts a text in two: what is taken and what is left. It is asked about all characters up
to the first at which the token stops, this one included, and about no others. -/
inductive Cuts (judge : Judge (StateM τ)) (memory : τ) :
    List Char → List Char → List Char → τ → Prop where
  | whole {text : List Char} {last : τ} (goesOn : judge.GoesOn memory text last) :
      Cuts judge memory text text [] last
  | before {front : List Char} {c : Char} {back : List Char} {middle last : τ}
      (goesOn : judge.GoesOn memory front middle)
      (ruling : (judge c).run middle = (.stopBefore, last)) :
      Cuts judge memory (front ++ c :: back) front (c :: back) last
  | after {front : List Char} {c : Char} {back : List Char} {middle last : τ}
      (goesOn : judge.GoesOn memory front middle)
      (ruling : (judge c).run middle = (.stopAfter, last)) :
      Cuts judge memory (front ++ c :: back) (front ++ [c]) back last

theorem run_pass_cons (judge : Judge (StateM τ)) (c : Char) (text : List Char) (memory : τ) :
    (judge.pass (c :: text)).run memory =
      match (judge c).run memory with
      | (.stopBefore, next) => (some ([], c :: text), next)
      | (.stopAfter, next) => (some ([c], text), next)
      | (.goOn, next) => ((judge.pass text).run next).map (behind [c]) id := by
  cases hruling : (judge c).run memory with
  | mk ruling next =>
    rw [pass, StateT.run_bind, hruling]
    cases ruling <;> rfl

theorem Cuts.cons {next : τ} {c : Char} (ruling : (judge c).run memory = (.goOn, next))
    (h : judge.Cuts next text taken left last) :
    judge.Cuts memory (c :: text) (c :: taken) left last := by
  cases h with
  | whole goesOn => exact .whole (.cons ruling goesOn)
  | before goesOn stops => exact .before (.cons ruling goesOn) stops
  | after goesOn stops => exact .after (.cons ruling goesOn) stops

/-- A single pass cuts a text as the judge does, and leaves the judge with the same memory. -/
theorem cuts_of_pass {cut? : Option (List Char × List Char)}
    (h : (judge.pass text).run memory = (cut?, last)) :
    judge.Cuts memory text (cut?.getD (text, [])).1 (cut?.getD (text, [])).2 last := by
  induction text generalizing memory last cut? with
  | nil =>
    cases h
    exact .whole (.nil _)
  | cons c text ih =>
    rw [run_pass_cons] at h
    have hstart : judge.GoesOn memory [] memory := .nil memory
    cases hruling : (judge c).run memory with
    | mk ruling next =>
      rw [hruling] at h
      cases ruling with
      | stopBefore =>
        cases h
        exact .before hstart hruling
      | stopAfter =>
        cases h
        exact .after hstart hruling
      | goOn =>
        cases hpass : (judge.pass text).run next with
        | mk later? last' =>
          have hcuts := Cuts.cons hruling (ih hpass)
          dsimp only at h
          rw [hpass] at h
          cases h
          cases later? <;> exact hcuts

/-- Reading in batches leaves the judge with the memory that a single pass leaves it with. -/
theorem exists_run_consume_eq (judge : Judge (StateM τ)) (batch : Nat) (sink : Sink)
    {source : Source} {cut? : Option (List Char × List Char)} (h : source.stop? = none)
    (hpass : (judge.pass source.chars).run memory = (cut?, last)) :
    ∃ rest, (judge.consume batch sink source).run memory =
        ((.ok (sink.push (cut?.getD (source.chars, [])).1), rest), last) ∧
      rest.chars = (cut?.getD (source.chars, [])).2 ∧ rest.stop? = none := by
  have hone : ((judge.consume batch sink source).run memory).map observe id =
      ((judge.pass source.chars).run memory).map (settle sink source.chars) id :=
    congrArg (·.run memory) (judge.map_consume batch sink source h)
  rw [hpass] at hone
  generalize (judge.consume batch sink source).run memory = consumed at hone ⊢
  obtain ⟨⟨result, rest⟩, last'⟩ := consumed
  obtain ⟨hobserve, rfl⟩ := Prod.mk.inj hone
  obtain ⟨rfl, hrest⟩ := Prod.mk.inj hobserve
  obtain ⟨hleft, hstop⟩ := Prod.mk.inj hrest
  exact ⟨rest, rfl, hleft, hstop⟩

theorem GoesOn.run_pass_append (h : judge.GoesOn memory text last) (more : List Char) :
    (judge.pass (text ++ more)).run memory =
      ((judge.pass more).run last).map (behind text) id := by
  induction h with
  | nil memory =>
    rw [behind_nil]
    rfl
  | @cons memory next last c text ruling goesOn ih =>
    rw [List.cons_append, run_pass_cons, ruling]
    show ((judge.pass (text ++ more)).run next).map (behind [c]) id = _
    rw [ih, Prod.map_map, behind_comp]
    rfl

/-- A judge cuts a text in one way only. -/
theorem Cuts.unique {taken' left' : List Char} {last' : τ}
    (h : judge.Cuts memory text taken left last) (h' : judge.Cuts memory text taken' left' last') :
    taken = taken' ∧ left = left' ∧ last = last' := by
  have hpass : ∀ {taken left last}, judge.Cuts memory text taken left last →
      ((judge.pass text).run memory).map (·.getD (text, [])) id = ((taken, left), last) := by
    intro taken left last h
    cases h with
    | whole goesOn =>
      have hrun := goesOn.run_pass_append []
      rw [List.append_nil] at hrun
      rw [hrun]
      rfl
    | @before front c back middle last goesOn ruling =>
      rw [goesOn.run_pass_append, run_pass_cons, ruling]
      simp [behind]
    | @after front c back middle last goesOn ruling =>
      rw [goesOn.run_pass_append, run_pass_cons, ruling]
      simp [behind]
  have heq := (hpass h).symm.trans (hpass h')
  cases heq
  exact ⟨rfl, rfl, rfl⟩

end Memory

end Judge

namespace Rule

variable {τ : Type}

/-- The rule that answers as a judge does. What the judge remembers is its state. -/
def ofJudge (judge : Judge (StateM τ)) (memory : τ) : Rule τ where
  start := memory
  answer memory c :=
    match (judge c).run memory with
    | (.goOn, next) => .take next
    | (.stopBefore, _) => .stopBefore
    | (.stopAfter, _) => .stopAfter

/-- The judge that answers as a rule does. It remembers the state of the rule. -/
def judge (rule : Rule τ) : Judge (StateM τ) := fun c state =>
  match rule.answer state c with
  | .take next => (.goOn, next)
  | .stopBefore => (.stopBefore, state)
  | .stopAfter => (.stopAfter, state)

theorem ofJudge_judge (rule : Rule τ) : ofJudge rule.judge rule.start = rule := by
  rw [ofJudge]
  congr 1
  funext state c
  show (match rule.judge c state with
    | (.goOn, next) => Verdict.take next
    | (.stopBefore, _) => .stopBefore
    | (.stopAfter, _) => .stopAfter) = rule.answer state c
  rw [judge]
  cases rule.answer state c <;> rfl

theorem run_ofJudge (judge : Judge (StateM τ)) (start memory : τ) (text : List Char) :
    (ofJudge judge start).run memory text =
      match (judge.pass text).run memory with
      | (none, last) => .running last
      | (some (taken, left), _) => .stopped taken left := by
  induction text generalizing memory with
  | nil => rfl
  | cons c text ih =>
    rw [Judge.run_pass_cons, run]
    cases hruling : (judge c).run memory with
    | mk ruling next =>
      cases ruling with
      | stopBefore =>
        have hanswer : (ofJudge judge start).answer memory c = .stopBefore := by
          simp only [ofJudge, hruling]
        rw [hanswer]
      | stopAfter =>
        have hanswer : (ofJudge judge start).answer memory c = .stopAfter := by
          simp only [ofJudge, hruling]
        rw [hanswer]
      | goOn =>
        have hanswer : (ofJudge judge start).answer memory c = .take next := by
          simp only [ofJudge, hruling]
        rw [hanswer]
        dsimp only
        rw [ih]
        cases (judge.pass text).run next with
        | mk cut? last => cases cut? <;> rfl

/-- A rule reads a source as its judge does. -/
theorem consume_ofJudge (judge : Judge (StateM τ)) (start memory : τ) (batch : Nat) (sink : Sink)
    (source : Source) :
    (ofJudge judge start).consume batch memory sink source =
      ((judge.consume batch sink source).run memory).1 := by
  induction memory, sink, source using consume.induct (ofJudge judge start) batch with
  | case1 memory sink source fault rest hfill =>
    rw [consume, hfill, Judge.consume, hfill]
    rfl
  | case2 memory sink source rest hfill =>
    rw [consume, hfill, Judge.consume, hfill]
    rfl
  | case3 memory sink source c cs rest hfill taken left hrun =>
    rw [consume, hfill, Judge.consume, hfill, StateT.run_bind]
    simp only [hrun]
    rw [run_ofJudge] at hrun
    split at hrun
    · cases hrun
    · next hpass =>
      cases hrun
      rw [hpass]
      rfl
  | case4 memory sink source c cs rest hfill next hrun ih =>
    rw [consume, hfill, Judge.consume, hfill, StateT.run_bind]
    simp only [hrun]
    rw [ih]
    rw [run_ofJudge] at hrun
    split at hrun
    · next hpass =>
      cases hrun
      rw [hpass]
      rfl
    · cases hrun

/-- A judge that is asked in batches about the characters of a source without a fault is asked about
each of them once and in order, up to the first at which the token stops, and about none behind it,
whatever it remembers and answers by. What is read goes into the sink up to the place where the
judge cuts the characters, and what is behind this place is what the source has left. The rule that
answers as the judge does reads the same and leaves the same, and every rule is of this kind. -/
theorem batches_ask_as_one_pass {τ : Type} :
    (∀ (judge : Judge (StateM τ)) (batch : Nat) (memory : τ) (sink : Sink) (source : Source),
      source.stop? = none →
      ∃ taken left last rest, judge.Cuts memory source.chars taken left last ∧
        (judge.consume batch sink source).run memory = ((.ok (sink.push taken), rest), last) ∧
        (ofJudge judge memory).consume batch memory sink source = (.ok (sink.push taken), rest) ∧
        rest.chars = left ∧ rest.stop? = none) ∧
    ∀ rule : Rule τ, ofJudge rule.judge rule.start = rule := by
  refine ⟨?_, ofJudge_judge⟩
  intro judge batch memory sink source h
  cases hpass : (judge.pass source.chars).run memory with
  | mk cut? last =>
    obtain ⟨rest, hconsume, hleft, hstop⟩ := judge.exists_run_consume_eq batch sink h hpass
    refine ⟨_, _, last, rest, Judge.cuts_of_pass hpass, hconsume, ?_, hleft, hstop⟩
    rw [consume_ofJudge, hconsume]

/-- A judge that writes down what it is asked about. Three characters were given back, and they are
read two at a time, so the second batch ends behind the character that the token stops before. -/
theorem batches_ask_as_one_pass_written_down :
    let judge : Judge (StateM (List Char)) := fun c asked =>
      (if c = ')' then .stopBefore else if c = ';' then .stopAfter else .goOn, asked ++ [c])
    let source : Source := ⟨['a', 'b', 'c'], Event.ofItems [')', ';', 'd'], false⟩
    source.stop? = none ∧
      ∃ rest, (judge.consume 2 (.empty false) source).run [] =
          ((.ok ⟨some ['c', 'b', 'a']⟩, rest), ['a', 'b', 'c', ')']) ∧
        rest.chars = [')', ';', 'd'] := by
  intro judge source
  have hstop : source.stop? = none := rfl
  have hcuts : judge.Cuts [] source.chars ['a', 'b', 'c'] [')', ';', 'd'] ['a', 'b', 'c', ')'] :=
    .before (.cons rfl (.cons rfl (.cons rfl (.nil _)))) rfl
  obtain ⟨taken, left, last, rest, hcuts', hconsume, -, hleft, -⟩ :=
    batches_ask_as_one_pass.1 judge 2 [] (.empty false) source hstop
  obtain ⟨rfl, rfl, rfl⟩ := hcuts.unique hcuts'
  exact ⟨hstop, rest, hconsume, hleft⟩

end Rule

end SqlTokens
