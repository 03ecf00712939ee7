import Mathlib.Data.List.Forall2
import SqlTokens.Proofs.Input.PlainList

/-!
# What a fault costs

A request that meets a fault delivers nothing. The characters that it had taken before are lost:
those that waited to be delivered again, and those that the input had answered with in front of the
fault. What lies behind the fault is not touched, and the next request goes on there.

To keep the accounts, a source stands for the events that are still due from it, up to the end of
its input (`Source.due`). A request takes a `Portion` off them, characters and perhaps the fault
behind them, and nothing is taken twice or passed over (`Source.portion_of_serve`). Once the end of
the input is remembered, it makes no difference what the input would answer
(`Source.serveAll_ended`).
-/

namespace SqlTokens

/-- The events of an input in front of its first end. -/
def Event.beforeEnd : List (Event α) → List (Event α)
  | [] | .ending :: _ => []
  | event :: events => event :: beforeEnd events

/-- What a request takes off an input: characters, and the fault behind them if it meets one. -/
structure Portion where
  chars : List Char
  fault? : Option Fault
  deriving DecidableEq, Repr

namespace Portion

/-- The answer to a request. The characters in front of a fault are not delivered. -/
def answer (portion : Portion) : Except Fault (List Char) :=
  match portion.fault? with
  | none => .ok portion.chars
  | some fault => .error fault

/-- The events that are taken off an input. -/
def events (portion : Portion) : List (Event Char) :=
  Event.ofItems portion.chars ++ (portion.fault?.map Event.failure).toList

/-- A request takes no more characters than it can deliver, and fewer if it meets a fault. -/
structure Fits (request : Request) (portion : Portion) : Prop where
  le : portion.chars.length ≤ request.most
  lt : portion.fault?.isSome = true → portion.chars.length < request.most

end Portion

/-- Whether a request wants characters and gives none back. -/
def Request.isFill : Request → Bool
  | .undo _ => false
  | .fill _ _ | .fillAll _ => true

namespace Event

variable {α : Type} {items : List α} {fault : Fault} {events : List (Event α)}

@[simp] theorem beforeEnd_ofItems_append (items : List α) (events : List (Event α)) :
    beforeEnd (ofItems items ++ events) = ofItems items ++ beforeEnd events := by
  induction items with
  | nil => rfl
  | cons item items ih => exact congrArg (.item item :: ·) ih

@[simp] theorem beforeEnd_failure (fault : Fault) (events : List (Event α)) :
    beforeEnd (.failure fault :: events) = .failure fault :: beforeEnd events := rfl

theorem ofItems_append (items more : List α) :
    ofItems (items ++ more) = ofItems items ++ ofItems more :=
  List.map_append

end Event

namespace Source

/-- The events that are still due from a source, up to the end of its input. -/
def due (source : Source) : List (Event Char) :=
  Event.ofItems source.returned ++ if source.ended then [] else Event.beforeEnd source.input

variable {source rest : Source} {input : List (Event Char)} {chars : List Char} {fault : Fault}
  {want : Nat} {request : Request}

theorem due_ofInput (input : List (Event Char)) : (ofInput input).due = Event.beforeEnd input := rfl

theorem beforeEnd_of_ask (h : ask want input = (.ok chars, rest)) :
    Event.beforeEnd input = Event.ofItems chars ++ rest.due := by
  induction want, input using ask.induct generalizing chars rest with
  | case1 | case2 | case3 =>
    cases h
    rfl
  | case4 => cases h
  | case5 want c input taken source hask ih =>
    rw [ask, hask] at h
    cases h
    exact congrArg (.item c :: ·) (ih hask)
  | case6 want c input fault source hask ih =>
    rw [ask, hask] at h
    cases h

/-- Who meets a fault has read what is in front of it, and leaves what is behind it. -/
theorem exists_of_ask_error (h : ask want input = (.error fault, rest)) :
    ∃ read later, input = Event.ofItems read ++ .failure fault :: later ∧ read.length < want ∧
      rest = ofInput later := by
  induction want, input using ask.induct generalizing rest with
  | case1 | case2 | case3 => cases h
  | case4 want fault' input =>
    cases h
    exact ⟨[], input, rfl, Nat.succ_pos want, rfl⟩
  | case5 want c input taken source hask ih =>
    rw [ask, hask] at h
    cases h
  | case6 want c input fault' source hask ih =>
    rw [ask, hask] at h
    cases h
    obtain ⟨read, later, rfl, hlt, hrest⟩ := ih hask
    exact ⟨c :: read, later, rfl, Nat.succ_lt_succ hlt, hrest⟩

/-- What a request delivers was due first, and the rest is due still. -/
theorem due_of_fill (h : source.fill want = (.ok chars, rest)) :
    source.due = Event.ofItems chars ++ rest.due := by
  cases fill_cases want source with
  | queue hqueue eq =>
    rw [eq] at h
    cases h
    rw [due, due, ← List.append_assoc, ← Event.ofItems_append, List.take_append_drop]
  | input taken source' ended le ask_eq eq =>
    rw [eq] at h
    cases h
    rw [due, ended, if_neg Bool.false_ne_true, beforeEnd_of_ask ask_eq, Event.ofItems_append,
      List.append_assoc]
  | fault fault source' ended le ask_eq eq =>
    rw [eq] at h
    cases h

/-- A request that meets a fault has taken all that waited to be delivered again, and what the input
had in front of the fault; together they are fewer characters than were wanted. -/
theorem exists_of_fill_error (h : source.fill want = (.error fault, rest)) :
    ∃ read later, source.input = Event.ofItems read ++ .failure fault :: later ∧
      source.ended = false ∧ (source.returned ++ read).length < want ∧ rest = ofInput later := by
  cases fill_cases want source with
  | queue hqueue eq =>
    rw [eq] at h
    cases h
  | input taken source' ended le ask_eq eq =>
    rw [eq] at h
    cases h
  | fault fault' source' ended le ask_eq eq =>
    rw [eq] at h
    cases h
    obtain ⟨read, later, hinput, hlt, hrest⟩ := exists_of_ask_error ask_eq
    refine ⟨read, later, hinput, ended, ?_, hrest⟩
    rw [List.length_append]
    omega

theorem serve_of_isFill (source : Source) (h : request.isFill = true) :
    source.serve request = source.fill request.most := by
  cases request with
  | undo chars => cases h
  | fill want room => rfl
  | fillAll room => rfl

theorem exists_of_serve_error (h : source.serve request = (.error fault, rest)) :
    ∃ read later, source.input = Event.ofItems read ++ .failure fault :: later ∧
      source.ended = false ∧ (source.returned ++ read).length < request.most ∧
      rest = ofInput later := by
  cases request with
  | undo chars => cases h
  | fill want room => exact exists_of_fill_error h
  | fillAll room => exact exists_of_fill_error h

/-- What is lost in front of a fault was due first, then the fault, and what lies behind is due
still. -/
theorem due_of_failure {read : List Char} {later : List (Event Char)}
    (hended : source.ended = false)
    (hinput : source.input = Event.ofItems read ++ .failure fault :: later) :
    source.due =
      Event.ofItems (source.returned ++ read) ++ .failure fault :: (ofInput later).due := by
  rw [due, hended, if_neg Bool.false_ne_true, hinput, Event.beforeEnd_ofItems_append,
    Event.beforeEnd_failure, Event.ofItems_append, List.append_assoc, due_ofInput]

/-- A request takes a portion off what is due. -/
theorem portion_of_serve (source : Source) (hfill : request.isFill = true) :
    ∃ portion : Portion, (source.serve request).1 = portion.answer ∧ portion.Fits request ∧
      source.due = portion.events ++ (source.serve request).2.due := by
  cases hserve : source.serve request with
  | mk result rest =>
    cases result with
    | ok chars =>
      rw [serve_of_isFill source hfill] at hserve
      refine ⟨⟨chars, none⟩, rfl, ⟨length_le_of_fill hserve, nofun⟩, ?_⟩
      rw [due_of_fill hserve, Portion.events, Option.map_none, Option.toList_none,
        List.append_nil]
    | error fault =>
      obtain ⟨read, later, hinput, hended, hlt, rfl⟩ := exists_of_serve_error hserve
      refine ⟨⟨source.returned ++ read, some fault⟩, rfl, ⟨Nat.le_of_lt hlt, fun _ => hlt⟩, ?_⟩
      rw [due_of_failure hended hinput, Portion.events, List.append_assoc]
      rfl

/-- Requests take portions off what is due, one after the other. -/
theorem portions_of_serveAll {requests : List Request} (source : Source)
    (hfill : ∀ request ∈ requests, request.isFill = true) :
    ∃ portions : List Portion, (source.serveAll requests).1 = portions.map Portion.answer ∧
      List.Forall₂ (fun request portion => portion.Fits request) requests portions ∧
      source.due = portions.flatMap Portion.events ++ (source.serveAll requests).2.due := by
  induction requests generalizing source with
  | nil => exact ⟨[], rfl, .nil, rfl⟩
  | cons request requests ih =>
    obtain ⟨portion, hanswer, hfits, hdue⟩ :=
      source.portion_of_serve (hfill request List.mem_cons_self)
    obtain ⟨portions, hanswers, hfits', hdue'⟩ :=
      ih (source.serve request).2 fun other h => hfill other (List.mem_cons_of_mem request h)
    refine ⟨portion :: portions, ?_, .cons hfits hfits', ?_⟩
    · rw [List.map_cons, ← hanswer, ← hanswers]
      rfl
    · rw [hdue, hdue', List.flatMap_cons, List.append_assoc]
      rfl

/-- Requests that give nothing back leave nothing to be delivered again. -/
theorem returned_serveAll {requests : List Request} (source : Source)
    (hfill : ∀ request ∈ requests, request.isFill = true) (hreturned : source.returned = []) :
    (source.serveAll requests).2.returned = [] := by
  induction requests generalizing source with
  | nil => exact hreturned
  | cons request requests ih =>
    apply ih (source.serve request).2 fun other h => hfill other (List.mem_cons_of_mem request h)
    rw [serve_of_isFill source (hfill request List.mem_cons_self), returned_fill, hreturned,
      List.drop_nil]

/-- Behind a remembered end, the answer to a request and what it leaves are the same whatever the
input would answer, and the input is left as it is. -/
theorem serve_ended (request : Request) (returned : List Char) :
    ∃ answer returned', ∀ input,
      serve request ⟨returned, input, true⟩ = (answer, ⟨returned', input, true⟩) := by
  have hfill (want : Nat) (input : List (Event Char)) : fill want ⟨returned, input, true⟩ =
      (.ok (returned.take want), ⟨returned.drop want, input, true⟩) := by
    simp [fill]
  cases request with
  | undo chars => exact ⟨.ok [], chars ++ returned, fun _ => rfl⟩
  | fill want room => exact ⟨_, _, hfill (min want room)⟩
  | fillAll room => exact ⟨_, _, hfill room⟩

theorem serveAll_ended (requests : List Request) (returned : List Char) :
    ∃ answers returned', ∀ input,
      serveAll requests ⟨returned, input, true⟩ = (answers, ⟨returned', input, true⟩) := by
  induction requests generalizing returned with
  | nil => exact ⟨[], returned, fun _ => rfl⟩
  | cons request requests ih =>
    obtain ⟨answer, returned', hserve⟩ := serve_ended request returned
    obtain ⟨answers, returned'', hserveAll⟩ := ih returned'
    refine ⟨answer :: answers, returned'', ?_⟩
    intro input
    rw [serveAll, hserve input]
    simp only [hserveAll input]

/-- Whatever was asked of a source before, a request that meets a fault delivers nothing, loses what
was given back and what the input had answered with in front of the fault, fewer characters than
were wanted, and leaves a source that starts behind the fault: nothing waits to be delivered again,
and no end is remembered. So requests that give nothing back account for the events of the input up
to its first end, each of them once and in order: the answers are the characters of the portions
that they take, less those of the portions in front of the faults. Behind a remembered end the input
is not asked again: all answers are the same whatever it would say, and it stays as it is. -/
theorem faults_cost_what_was_taken (input : List (Event Char)) (requests : List Request) :
    let served := (ofInput input).serveAll requests
    let source := served.2
    (∀ request fault rest, source.serve request = (.error fault, rest) →
      ∃ read later, source.input = Event.ofItems read ++ .failure fault :: later ∧
        source.ended = false ∧
        source.due =
          Event.ofItems (source.returned ++ read) ++ .failure fault :: rest.due ∧
        (source.returned ++ read).length < request.most ∧
        rest = ofInput later ∧ rest.pending = 0 ∧ rest.isExhausted = false) ∧
      ((∀ request ∈ requests, request.isFill = true) →
        ∃ portions : List Portion, served.1 = portions.map Portion.answer ∧
          List.Forall₂ (fun request portion => portion.Fits request) requests portions ∧
          Event.beforeEnd input = portions.flatMap Portion.events ++ source.due ∧
          (source.ended = true → source.due = [])) ∧
      (source.ended = true → ∀ later, ∃ answers returned, ∀ input',
        serveAll later ⟨source.returned, input', true⟩ = (answers, ⟨returned, input', true⟩)) := by
  intro served source
  refine ⟨?_, ?_, ?_⟩
  · intro request fault rest hserve
    obtain ⟨read, later, hinput, hended, hlt, rfl⟩ := exists_of_serve_error hserve
    exact ⟨read, later, hinput, hended, due_of_failure hended hinput, hlt, rfl, rfl, rfl⟩
  · intro hfill
    obtain ⟨portions, hanswers, hfits, hdue⟩ := portions_of_serveAll (ofInput input) hfill
    refine ⟨portions, hanswers, hfits, hdue, ?_⟩
    intro hended
    have hreturned : source.returned = [] := returned_serveAll (ofInput input) hfill rfl
    rw [due, hreturned, if_pos hended]
    rfl
  · intro _ later
    exact serveAll_ended later source.returned

/-- A fault in front of which one character was delivered and one was read, and an end that more
would follow on. Once a character was given back before, and it is lost as well. -/
theorem faults_cost_what_was_taken_twice :
    let fault : Fault := ⟨.timedOut, "late"⟩
    let later : List (Event Char) := [.item 'c', .ending, .item 'd']
    let input : List (Event Char) := .item 'a' :: .item 'b' :: .failure fault :: later
    let source := ((ofInput input).serveAll [.fill 1 4, .undo ['x']]).2
    let requests : List Request := [.fill 1 4, .fillAll 3, .fill 9 2]
    let served := (ofInput input).serveAll requests
    source.serve (.fill 4 8) = (.error fault, ofInput later) ∧
      (∃ read, source.due =
          Event.ofItems ('x' :: read) ++ .failure fault :: (ofInput later).due ∧
        ('x' :: read).length < 4) ∧
      (∀ request ∈ requests, request.isFill = true) ∧
      served.1 = [.ok ['a'], .error fault, .ok ['c']] ∧ served.2.ended = true ∧
      (∃ portions : List Portion, served.1 = portions.map Portion.answer ∧
        Event.beforeEnd input = portions.flatMap Portion.events) ∧
      ∃ answers returned, ∀ input',
        serveAll [.fillAll 5] ⟨served.2.returned, input', true⟩ =
          (answers, ⟨returned, input', true⟩) := by
  intro fault later input source requests served
  have hserve : source.serve (.fill 4 8) = (.error fault, ofInput later) := by decide
  have hfill : ∀ request ∈ requests, request.isFill = true := by decide
  have hended : served.2.ended = true := by decide
  obtain ⟨hcost, -, -⟩ := faults_cost_what_was_taken input [.fill 1 4, .undo ['x']]
  obtain ⟨read, later', -, -, hdue, hlt, hrest, -, -⟩ := hcost _ _ _ hserve
  obtain ⟨-, haccounts, hagain⟩ := faults_cost_what_was_taken input requests
  obtain ⟨portions, hanswers, -, hmet, hempty⟩ := haccounts hfill
  rw [hempty hended, List.append_nil] at hmet
  exact ⟨hserve, ⟨read, hdue, hlt⟩, hfill, by decide, hended, ⟨portions, hanswers, hmet⟩,
    hagain hended _⟩

end Source

end SqlTokens
