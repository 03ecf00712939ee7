import SqlTokens.Input.Source

/-!
# Requests to a source

A request either takes its characters off the front of `Source.chars` or meets the fault that the
source stops before; no third thing can happen (`fill_ok`, `fill_error`). The two statements need no
assumption on the source: a success says nothing about a fault further on, and leaves it in place.

Returned characters are delivered first. What a request leaves of them therefore depends on the
number of characters asked for and on nothing else, even if the request fails (`returned_fill`).
-/

namespace SqlTokens.Source

/-- The characters that have never been delivered. -/
def unread (source : Source) : List Char :=
  if source.ended then [] else Event.itemsOf source.input

theorem chars_eq_append (source : Source) : source.chars = source.returned ++ source.unread := rfl

section Ask

variable {want : Nat} {input : List (Event Char)} {chars : List Char} {fault : Fault}
  {rest : Source}

theorem ask_ok (h : ask want input = (.ok chars, rest)) :
    chars = (Event.itemsOf input).take want ∧ rest.chars = (Event.itemsOf input).drop want ∧
      rest.stop? = Event.stopOf? input := by
  induction want, input using ask.induct generalizing chars rest with
  | case1 | case2 | case3 =>
    cases h
    exact ⟨by simp [Event.itemsOf], by simp [Source.chars, Event.itemsOf], rfl⟩
  | case4 => cases h
  | case5 want c input taken source hask ih =>
    rw [ask, hask] at h
    cases h
    obtain ⟨rfl, hchars, hstop⟩ := ih hask
    exact ⟨rfl, hchars, hstop⟩
  | case6 want c input fault source hask ih =>
    rw [ask, hask] at h
    cases h

theorem ask_error (h : ask want input = (.error fault, rest)) :
    Event.stopOf? input = some fault := by
  induction want, input using ask.induct generalizing rest with
  | case1 | case2 | case3 => cases h
  | case4 want fault' input =>
    cases h
    rfl
  | case5 want c input taken source hask ih =>
    rw [ask, hask] at h
    cases h
  | case6 want c input fault' source hask ih =>
    rw [ask, hask] at h
    cases h
    exact ih hask

/-- A fault is met only by those who ask for more than there is in front of it. -/
theorem length_lt_of_ask_error (h : ask want input = (.error fault, rest)) :
    (Event.itemsOf input).length < want := by
  induction want, input using ask.induct generalizing rest with
  | case1 | case2 | case3 => cases h
  | case4 want fault' input => exact Nat.succ_pos want
  | case5 want c input taken source hask ih =>
    rw [ask, hask] at h
    cases h
  | case6 want c input fault' source hask ih =>
    rw [ask, hask] at h
    cases h
    exact Nat.succ_lt_succ (ih hask)

/-- An input that has delivered less than it was asked for was at its end. -/
theorem stopOf?_of_ask_short (h : ask want input = (.ok chars, rest))
    (hshort : chars.length < want) : Event.stopOf? input = none := by
  induction want, input using ask.induct generalizing chars rest with
  | case1 => exact absurd hshort (Nat.not_lt_zero _)
  | case2 | case3 => rfl
  | case4 => cases h
  | case5 want c input taken source hask ih =>
    rw [ask, hask] at h
    cases h
    exact ih hask (Nat.lt_of_succ_lt_succ hshort)
  | case6 want c input fault source hask ih =>
    rw [ask, hask] at h
    cases h

/-- Asking the input returns nothing to the source. -/
theorem returned_ask (want : Nat) (input : List (Event Char)) :
    (ask want input).2.returned = [] := by
  induction want, input using ask.induct with
  | case1 | case2 | case3 | case4 => rfl
  | case5 want c input taken source hask ih => simpa only [ask, hask] using ih
  | case6 want c input fault source hask ih => simpa only [ask, hask] using ih

end Ask

section Fill

variable {want : Nat} {source rest : Source} {chars : List Char} {fault : Fault}

/-- The ways a request can go. The returned characters alone may do; otherwise all of them are
delivered, and the input is asked for the others. -/
inductive FillCases (want : Nat) (source : Source) : Prop where
  | queue (h : source.ended = true ∨ want ≤ source.returned.length)
      (eq : source.fill want = (.ok (source.returned.take want),
        { source with returned := source.returned.drop want }))
  | input (chars : List Char) (rest : Source) (ended : source.ended = false)
      (le : source.returned.length ≤ want)
      (ask_eq : ask (want - source.returned.length) source.input = (.ok chars, rest))
      (eq : source.fill want = (.ok (source.returned ++ chars), rest))
  | fault (fault : Fault) (rest : Source) (ended : source.ended = false)
      (le : source.returned.length ≤ want)
      (ask_eq : ask (want - source.returned.length) source.input = (.error fault, rest))
      (eq : source.fill want = (.error fault, rest))

theorem fill_cases (want : Nat) (source : Source) : FillCases want source := by
  by_cases hended : source.ended = true
  · exact .queue (.inl hended) (by simp [fill, hended])
  rw [Bool.not_eq_true] at hended
  by_cases hle : want ≤ source.returned.length
  · have hmissing : want - (source.returned.take want).length = 0 := by
      rw [List.length_take]
      omega
    refine .queue (.inr hle) ?_
    simp only [fill, hmissing, decide_true, Bool.true_or, ↓reduceIte]
  · have hlt : source.returned.length < want := Nat.lt_of_not_le hle
    have htake : source.returned.take want = source.returned :=
      List.take_of_length_le (Nat.le_of_lt hlt)
    have hmissing : want - source.returned.length ≠ 0 := by omega
    have hinput : (decide (want - source.returned.length = 0) || source.ended) = false := by
      rw [hended, decide_eq_false hmissing, Bool.or_false]
    cases hask : ask (want - source.returned.length) source.input with
    | mk result rest =>
      cases result with
      | ok chars =>
        refine .input chars rest hended (Nat.le_of_lt hlt) hask ?_
        simp only [fill, htake, hinput, hask, Bool.false_eq_true, ↓reduceIte]
      | error fault =>
        refine .fault fault rest hended (Nat.le_of_lt hlt) hask ?_
        simp only [fill, htake, hinput, hask, Bool.false_eq_true, ↓reduceIte]

theorem fill_ok (h : source.fill want = (.ok chars, rest)) :
    chars = source.chars.take want ∧ rest.chars = source.chars.drop want ∧
      rest.stop? = source.stop? := by
  cases fill_cases want source with
  | queue hqueue eq =>
    rw [eq] at h
    cases h
    rcases hqueue with hended | hle
    · exact ⟨by simp [Source.chars, hended], by simp [Source.chars, hended], rfl⟩
    · refine ⟨?_, ?_, rfl⟩
      · exact (List.take_append_of_le_length hle).symm
      · exact (List.drop_append_of_le_length hle).symm
  | input taken source' ended le ask_eq eq =>
    rw [eq] at h
    cases h
    obtain ⟨rfl, hchars, hstop⟩ := ask_ok ask_eq
    have hall : source.chars = source.returned ++ Event.itemsOf source.input := by
      simp [Source.chars, ended]
    refine ⟨?_, ?_, ?_⟩
    · rw [hall, List.take_append, List.take_of_length_le le]
    · rw [hall, hchars, List.drop_append, List.drop_eq_nil_of_le le, List.nil_append]
    · rw [hstop, stop?, ended, if_neg Bool.false_ne_true]
  | fault fault source' ended le ask_eq eq =>
    rw [eq] at h
    cases h

theorem length_le_of_fill (h : source.fill want = (.ok chars, rest)) : chars.length ≤ want := by
  rw [(fill_ok h).1]
  exact List.length_take_le ..

/-- What a request delivers and what it leaves are what there was. -/
theorem append_chars_of_fill (h : source.fill want = (.ok chars, rest)) :
    chars ++ rest.chars = source.chars := by
  obtain ⟨rfl, hrest, -⟩ := fill_ok h
  rw [hrest, List.take_append_drop]

theorem fill_error (h : source.fill want = (.error fault, rest)) : source.stop? = some fault := by
  cases fill_cases want source with
  | queue hqueue eq =>
    rw [eq] at h
    cases h
  | input taken source' ended le ask_eq eq =>
    rw [eq] at h
    cases h
  | fault fault' source' ended le ask_eq eq =>
    rw [eq] at h
    cases h
    rw [stop?, ended, if_neg Bool.false_ne_true]
    exact ask_error ask_eq

theorem length_lt_of_fill_error (h : source.fill want = (.error fault, rest)) :
    source.chars.length < want := by
  cases fill_cases want source with
  | queue hqueue eq =>
    rw [eq] at h
    cases h
  | input taken source' ended le ask_eq eq =>
    rw [eq] at h
    cases h
  | fault fault' source' ended le ask_eq eq =>
    have hlt := length_lt_of_ask_error ask_eq
    rw [chars_eq_append, unread, ended, if_neg Bool.false_ne_true, List.length_append]
    omega

theorem returned_fill (want : Nat) (source : Source) :
    (source.fill want).2.returned = source.returned.drop want := by
  have hask := returned_ask (want - source.returned.length) source.input
  cases fill_cases want source with
  | queue hqueue eq => rw [eq]
  | input taken source' ended le ask_eq eq =>
    rw [ask_eq] at hask
    rw [eq, List.drop_eq_nil_of_le le]
    exact hask
  | fault fault source' ended le ask_eq eq =>
    rw [ask_eq] at hask
    rw [eq, List.drop_eq_nil_of_le le]
    exact hask

/-- A source that delivers less than it was asked for stops at its end. -/
theorem stop?_of_fill_short (h : source.fill want = (.ok chars, rest))
    (hshort : chars.length < want) : source.stop? = none := by
  cases fill_cases want source with
  | queue hqueue eq =>
    rw [eq] at h
    cases h
    rcases hqueue with hended | hle
    · rw [stop?, if_pos hended]
    · rw [List.length_take_of_le hle] at hshort
      exact absurd hshort (Nat.lt_irrefl _)
  | input taken source' ended le ask_eq eq =>
    rw [eq] at h
    cases h
    rw [List.length_append] at hshort
    rw [stop?, ended, if_neg Bool.false_ne_true]
    exact stopOf?_of_ask_short ask_eq (by omega)
  | fault fault source' ended le ask_eq eq =>
    rw [eq] at h
    cases h

/-- What a request delivers is a matter of the characters to come and of the fault behind them. -/
theorem fill_fst (want : Nat) (source : Source) : (source.fill want).1 =
    match source.stop? with
    | some fault =>
      if source.chars.length < want then .error fault else .ok (source.chars.take want)
    | none => .ok (source.chars.take want) := by
  cases hfill : source.fill want with
  | mk result rest =>
  cases result with
  | error fault =>
    simp only [fill_error hfill, length_lt_of_fill_error hfill, ↓reduceIte]
  | ok chars =>
    obtain rfl := (fill_ok hfill).1
    cases hstop : source.stop? with
    | none => rfl
    | some fault =>
      have hle : ¬source.chars.length < want := by
        intro hlt
        have hnone := stop?_of_fill_short hfill
          (Nat.lt_of_le_of_lt (List.length_take_le' want source.chars) hlt)
        rw [hstop] at hnone
        cases hnone
      simp only [hle, ↓reduceIte]

/-- A request is granted if there is no fault to meet, or if it does not come as far as that. -/
theorem exists_fill_ok (h : source.stop? = none ∨ want ≤ source.chars.length) :
    ∃ rest, source.fill want = (.ok (source.chars.take want), rest) ∧
      rest.chars = source.chars.drop want ∧ rest.stop? = source.stop? := by
  have hgranted : (source.fill want).1 = .ok (source.chars.take want) := by
    rw [fill_fst]
    rcases h with hnone | hle
    · rw [hnone]
    · cases source.stop? with
      | none => rfl
      | some fault => exact if_neg (Nat.not_lt_of_le hle)
  have hfill : source.fill want = (.ok (source.chars.take want), (source.fill want).2) :=
    Prod.ext hgranted rfl
  obtain ⟨-, hchars, hstop⟩ := fill_ok hfill
  exact ⟨_, hfill, hchars, hstop⟩

/-- A request that delivers nothing has come to the end of the source. -/
theorem of_fill_nil (hwant : 0 < want) (h : source.fill want = (.ok [], rest)) :
    source.chars = [] ∧ source.stop? = none := by
  refine ⟨?_, stop?_of_fill_short h hwant⟩
  rcases List.take_eq_nil_iff.mp (fill_ok h).1.symm with hzero | hnil
  · omega
  · exact hnil

end Fill

end SqlTokens.Source
