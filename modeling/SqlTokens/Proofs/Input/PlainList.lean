import SqlTokens.Input.Request
import SqlTokens.Proofs.Input.Source

/-!
# A source as a list

The reader of a source need not know of its queue, of its input or of the end that it remembers. It
can think of one list, from which requests are served: what is given back goes in front, and what is
delivered comes off the front (`serve_slots`, `serveAll_slots`). This holds up to the first fault of
the input, so it holds for ever where there is none.

The list has a mark on every character that was given back. They are the characters that wait in
the queue, so their number is what `Source.pending` tells.
-/

namespace SqlTokens

/-- A place on the list: a character, and whether it was given back. -/
structure Slot where
  char : Char
  isReturned : Bool
  deriving DecidableEq, Repr

namespace Slot

/-- A character that was never delivered. -/
def unread (c : Char) : Slot :=
  ⟨c, false⟩

/-- A character that was given back. -/
def returned (c : Char) : Slot :=
  ⟨c, true⟩

/-- Take as many characters off the front of a list as are asked for, or as there are. -/
def deliver (count : Nat) (list : List Slot) : List Char × List Slot :=
  let front := min count list.length
  ((list.take front).map char, list.drop front)

/-- Serve a request from a list. -/
def serve : Request → List Slot → List Char × List Slot
  | .undo chars, list => ([], chars.map returned ++ list)
  | .fill want room, list => deliver (min want room) list
  | .fillAll room, list => deliver room list

/-- Serve requests from a list, one after the other. -/
def serveAll : List Request → List Slot → List (List Char) × List Slot
  | [], list => ([], list)
  | request :: requests, list =>
    let (delivered, list) := serve request list
    let (later, list) := serveAll requests list
    (delivered :: later, list)

theorem deliver_eq (count : Nat) (list : List Slot) :
    deliver count list = ((list.take count).map char, list.drop count) := by
  rcases Nat.le_total count list.length with hle | hle
  · rw [deliver, Nat.min_eq_left hle]
  · simp [deliver, Nat.min_eq_right hle, List.take_of_length_le hle, List.drop_eq_nil_of_le hle]

end Slot

/-- The number of characters that a request can deliver at most. -/
def Request.most : Request → Nat
  | .undo _ => 0
  | .fill want room => min want room
  | .fillAll room => room

namespace Source

/-- The list that a source stands for. -/
def slots (source : Source) : List Slot :=
  source.returned.map Slot.returned ++ source.unread.map Slot.unread

variable {source rest : Source} {chars : List Char} {want : Nat}

theorem map_char_slots (source : Source) : source.slots.map Slot.char = source.chars := by
  simp [slots, chars_eq_append, Slot.returned, Slot.unread, Function.comp_def]

theorem slots_ofInput (input : List (Event Char)) :
    (ofInput input).slots = (Event.itemsOf input).map Slot.unread := rfl

@[simp] theorem slots_undo (chars : List Char) (source : Source) :
    (source.undo chars).slots = chars.map Slot.returned ++ source.slots := by
  rw [slots, slots, undo, List.map_append, List.append_assoc]
  rfl

/-- The characters in the queue are those that were given back and not delivered since. -/
theorem pending_eq_countP (source : Source) :
    source.pending = source.slots.countP Slot.isReturned := by
  have hreturned : (source.returned.map Slot.returned).countP Slot.isReturned =
      source.returned.length := by
    rw [List.countP_map]
    exact List.countP_eq_length.mpr fun _ _ => rfl
  have hunread : (source.unread.map Slot.unread).countP Slot.isReturned = 0 := by
    rw [List.countP_map]
    exact List.countP_eq_zero.mpr fun _ _ => Bool.false_ne_true
  rw [slots, List.countP_append, hreturned, hunread]
  rfl

/-- Both parts of the list lose what is delivered of them, the queue first. -/
theorem slots_of_fill (h : source.fill want = (.ok chars, rest)) :
    rest.slots = source.slots.drop want := by
  obtain ⟨-, hchars, -⟩ := fill_ok h
  have hreturned := returned_fill want source
  rw [h] at hreturned
  rw [chars_eq_append, chars_eq_append, hreturned, List.drop_append] at hchars
  have hunread := List.append_cancel_left hchars
  rw [slots, slots, hreturned, hunread, List.drop_append, List.length_map, List.map_drop,
    List.map_drop]

theorem fill_eq_deliver (hstop : source.stop? = none) (want : Nat) :
    ∃ rest, source.fill want = (.ok (Slot.deliver want source.slots).1, rest) ∧
      rest.slots = (Slot.deliver want source.slots).2 ∧ rest.stop? = none := by
  have hgranted : source.stop? = none ∨ want ≤ source.chars.length := .inl hstop
  obtain ⟨rest, hfill, -, hstop'⟩ := exists_fill_ok hgranted
  have hslots := slots_of_fill hfill
  rw [← map_char_slots, ← List.map_take] at hfill
  rw [Slot.deliver_eq]
  exact ⟨rest, hfill, hslots, hstop'.trans hstop⟩

/-- A source serves a request as its list does. -/
theorem serve_slots (hstop : source.stop? = none) (request : Request) :
    ∃ rest, source.serve request = (.ok (Slot.serve request source.slots).1, rest) ∧
      rest.slots = (Slot.serve request source.slots).2 ∧ rest.stop? = none := by
  cases request with
  | undo chars => exact ⟨source.undo chars, rfl, slots_undo chars source, hstop⟩
  | fill want room => exact fill_eq_deliver hstop (min want room)
  | fillAll room => exact fill_eq_deliver hstop room

/-- A source serves any number of requests as its list does. -/
theorem serveAll_slots (hstop : source.stop? = none) (requests : List Request) :
    (source.serveAll requests).1 = (Slot.serveAll requests source.slots).1.map .ok ∧
      (source.serveAll requests).2.slots = (Slot.serveAll requests source.slots).2 ∧
      (source.serveAll requests).2.stop? = none := by
  induction requests generalizing source with
  | nil => exact ⟨rfl, rfl, hstop⟩
  | cons request requests ih =>
    obtain ⟨rest, hserve, hslots, hrest⟩ := serve_slots hstop request
    obtain ⟨hanswers, hslots', hstop'⟩ := ih hrest
    rw [hslots] at hanswers hslots'
    simp only [serveAll, Slot.serveAll, hserve, List.map_cons]
    exact ⟨congrArg (_ :: ·) hanswers, hslots', hstop'⟩

/-- Whoever gets less from the input than was asked for has met its end. -/
theorem ended_of_ask_short {input : List (Event Char)} (h : ask want input = (.ok chars, rest))
    (hshort : chars.length < want) : rest.ended = true := by
  induction want, input using ask.induct generalizing chars rest with
  | case1 => exact absurd hshort (Nat.not_lt_zero _)
  | case2 | case3 =>
    cases h
    rfl
  | case4 => cases h
  | case5 want c input taken source hask ih =>
    rw [ask, hask] at h
    cases h
    exact ih hask (Nat.lt_of_succ_lt_succ hshort)
  | case6 want c input fault source hask ih =>
    rw [ask, hask] at h
    cases h

theorem isExhausted_of_fill_short (h : source.fill want = (.ok chars, rest))
    (hshort : chars.length < want) : rest.isExhausted = true := by
  have hreturned : rest.returned = [] := by
    have hdrop := returned_fill want source
    rw [h] at hdrop
    have hall : source.chars.length ≤ want := by
      rw [(fill_ok h).1, List.length_take] at hshort
      omega
    rw [chars_eq_append, List.length_append] at hall
    exact hdrop.trans (List.drop_eq_nil_of_le (by omega))
  have hended : rest.ended = true := by
    cases fill_cases want source with
    | queue hqueue eq =>
      rw [eq] at h
      cases h
      rcases hqueue with hended | hle
      · exact hended
      · rw [List.length_take_of_le hle] at hshort
        exact absurd hshort (Nat.lt_irrefl _)
    | input taken source' ended le ask_eq eq =>
      rw [eq] at h
      cases h
      rw [List.length_append] at hshort
      exact ended_of_ask_short ask_eq (by omega)
    | fault fault source' ended le ask_eq eq =>
      rw [eq] at h
      cases h
  rw [isExhausted, hended, hreturned]
  rfl

section Exhausted

variable (h : source.isExhausted = true)

include h

theorem slots_of_isExhausted : source.slots = [] := by
  obtain ⟨hended, hreturned⟩ := Bool.and_eq_true_iff.mp h
  rw [slots, unread, if_pos hended, List.isEmpty_iff.mp hreturned]
  rfl

/-- What is given back to a source at its end is all that it delivers, and behind it the source is
at its end again. -/
theorem fill_undo_of_isExhausted (run : List Char) (want : Nat) :
    ∃ rest, (source.undo run).fill want = (.ok (run.take want), rest) ∧
      (rest.isExhausted = true ↔ run.length ≤ want) := by
  obtain ⟨hended, hreturned⟩ := Bool.and_eq_true_iff.mp h
  have hrun : (source.undo run).returned = run := by
    rw [undo, List.isEmpty_iff.mp hreturned, List.append_nil]
  cases fill_cases want (source.undo run) with
  | queue hqueue eq =>
    rw [hrun] at eq
    refine ⟨_, eq, ?_⟩
    simp [isExhausted, undo, hended]
  | input chars rest ended =>
    rw [undo, hended] at ended
    cases ended
  | fault fault rest ended =>
    rw [undo, hended] at ended
    cases ended

end Exhausted

/-- Over an input without a fault, requests of any kind and number are served as from a list that
starts as the characters of the input. What is given back is put in front of the list, and what is
delivered are its first characters, as many as are wanted, as there is room for, and as there are.
The queue holds the characters of the list that were given back and not delivered since. The list is
empty where the source says that it has met its end, which it says whenever it delivers less than it
was asked for; and what is given back there is delivered all the same, with the end behind it. -/
theorem serves_as_a_list (input : List (Event Char)) (hstop : Event.stopOf? input = none)
    (requests : List Request) :
    let served := (ofInput input).serveAll requests
    let list := Slot.serveAll requests ((Event.itemsOf input).map Slot.unread)
    served.1 = list.1.map .ok ∧
      served.2.pending ≤ list.2.length ∧
      served.2.pending = list.2.countP Slot.isReturned ∧
      (served.2.isExhausted = true → list.2 = []) ∧
      (∀ request, ∃ delivered rest, served.2.serve request = (.ok delivered, rest) ∧
        (delivered.length < request.most → rest.isExhausted = true)) ∧
      (served.2.isExhausted = true → ∀ run, run ≠ [] →
        (served.2.undo run).isExhausted = false ∧
          ∀ want room, ∃ rest,
            (served.2.undo run).serve (.fill want room) = (.ok (run.take (min want room)), rest) ∧
              (rest.isExhausted = true ↔ run.length ≤ min want room)) := by
  intro served list
  have hsource : (ofInput input).stop? = none := hstop
  obtain ⟨hanswers, hlist, hstop'⟩ := serveAll_slots hsource requests
  rw [slots_ofInput] at hanswers hlist
  have hpending : served.2.pending = list.2.countP Slot.isReturned := by
    rw [pending_eq_countP, hlist]
  refine ⟨hanswers, ?_, hpending, ?_, ?_, ?_⟩
  · rw [hpending]
    exact List.countP_le_length
  · intro hend
    rw [← hlist]
    exact slots_of_isExhausted hend
  · intro request
    obtain ⟨rest, hserve, -, -⟩ := serve_slots hstop' request
    refine ⟨_, rest, hserve, ?_⟩
    intro hshort
    cases request with
    | undo chars => exact absurd hshort (Nat.not_lt_zero _)
    | fill want room => exact isExhausted_of_fill_short hserve hshort
    | fillAll room => exact isExhausted_of_fill_short hserve hshort
  · intro hend run hrun
    refine ⟨?_, ?_⟩
    · simp [isExhausted, undo, hrun]
    · intro want room
      exact fill_undo_of_isExhausted hend run (min want room)

/-- A request that empties the queue, goes on with the input and meets an end that more would follow
on; and a character that is given back to the source there. -/
theorem serves_as_a_list_at_the_end :
    let input : List (Event Char) := [.item 'a', .item 'b', .ending, .item 'c']
    let served := (ofInput input).serveAll [.fill 1 4, .undo ['x', 'y'], .fillAll 8]
    Event.stopOf? input = none ∧ served.1 = [.ok ['a'], .ok [], .ok ['x', 'y', 'b']] ∧
      served.2.isExhausted = true ∧ served.2.pending = 0 ∧
      ∃ rest, (served.2.undo ['z']).serve (.fill 5 2) = (.ok ['z'], rest) ∧
        rest.isExhausted = true := by
  intro input served
  have hstop : Event.stopOf? input = none := rfl
  have hend : served.2.isExhausted = true := by decide
  obtain ⟨hanswers, -, hpending, hempty, -, hundo⟩ :=
    serves_as_a_list input hstop [.fill 1 4, .undo ['x', 'y'], .fillAll 8]
  obtain ⟨rest, hserve, hrest⟩ := (hundo hend ['z'] (by decide)).2 5 2
  refine ⟨hstop, hanswers, hend, ?_, rest, hserve, hrest.mpr (by decide)⟩
  rw [hpending, hempty hend]
  rfl

end Source

end SqlTokens
