import SqlTokens.Input.Event

/-!
# Sources of characters

A source hands out the characters of an input and takes back those that its reader did not want
after all. Returned characters come out again first, in their order, before anything new is asked of
the input. The first end that the input answers with is final: it is remembered, and the input is
not asked again. A fault is not remembered, but the request that meets it delivers nothing, so the
characters which that request had already taken are gone.

Until a source first meets a fault it behaves like a list, `chars`: returning characters puts them
in front of the list, and a request takes its first elements.

`size` bounds what a source can still deliver. No request makes it larger, and every character that
is delivered makes it smaller (`size_fill`), which is what ends every loop over a source.
-/

namespace SqlTokens

/-- Characters waiting to be delivered again, what the input will answer, and whether its end was
met. -/
structure Source where
  returned : List Char
  input : List (Event Char)
  ended : Bool
  deriving DecidableEq, Repr

namespace Source

/-- A source that starts at the beginning of an input. -/
def ofInput (input : List (Event Char)) : Source :=
  ⟨[], input, false⟩

/-- A source that reads a text. -/
def ofText (text : List Char) : Source :=
  ofInput (Event.ofItems text)

/-- Give characters back, to be delivered before anything else. -/
def undo (chars : List Char) (source : Source) : Source :=
  { source with returned := chars ++ source.returned }

/-- The number of returned characters that wait to be delivered again. -/
def pending (source : Source) : Nat :=
  source.returned.length

/-- Whether the source has met the end of its input and holds nothing to deliver again. -/
def isExhausted (source : Source) : Bool :=
  source.ended && source.returned.isEmpty

/-- The characters that a source delivers before it first stops. -/
def chars (source : Source) : List Char :=
  source.returned ++ if source.ended then [] else Event.itemsOf source.input

/-- The fault at which a source first stops, if it does not stop at the end of its input. -/
def stop? (source : Source) : Option Fault :=
  if source.ended then none else Event.stopOf? source.input

/-- A bound on the number of characters still to come. -/
def size (source : Source) : Nat :=
  source.returned.length + source.input.length

/-- Ask the input for `want` characters. Asking stops early at the end of the input and at a fault,
and a fault drops the characters that this request had before it. -/
def ask : (want : Nat) → (input : List (Event Char)) → Except Fault (List Char) × Source
  | 0, input => (.ok [], ⟨[], input, false⟩)
  | _ + 1, [] => (.ok [], ⟨[], [], true⟩)
  | _ + 1, .ending :: input => (.ok [], ⟨[], input, true⟩)
  | _ + 1, .failure fault :: input => (.error fault, ⟨[], input, false⟩)
  | want + 1, .item c :: input =>
    match ask want input with
    | (.ok chars, source) => (.ok (c :: chars), source)
    | (.error fault, source) => (.error fault, source)

/-- Take `want` characters: returned ones first, the rest from the input unless its end was met
before. Fewer are delivered only at the end of the input. -/
def fill (want : Nat) (source : Source) : Except Fault (List Char) × Source :=
  let again := source.returned.take want
  let missing := want - again.length
  if missing = 0 || source.ended then
    (.ok again, { source with returned := source.returned.drop want })
  else
    match ask missing source.input with
    | (.ok chars, source) => (.ok (again ++ chars), source)
    | (.error fault, source) => (.error fault, source)

@[simp] theorem chars_ofText (text : List Char) : (ofText text).chars = text := by
  simp [ofText, ofInput, chars]

@[simp] theorem stop?_ofText (text : List Char) : (ofText text).stop? = none := by
  simp [ofText, ofInput, stop?]

@[simp] theorem chars_undo (chars : List Char) (source : Source) :
    (source.undo chars).chars = chars ++ source.chars :=
  List.append_assoc ..

@[simp] theorem stop?_undo (chars : List Char) (source : Source) :
    (source.undo chars).stop? = source.stop? := rfl

@[simp] theorem size_undo (chars : List Char) (source : Source) :
    (source.undo chars).size = chars.length + source.size := by
  simp [undo, size, Nat.add_assoc]

/-- Asking uses up one event for each character, besides a final end or fault. -/
theorem size_ask {want : Nat} {input : List (Event Char)} {result : Except Fault (List Char)}
    {source : Source} (h : ask want input = (result, source)) :
    source.size + (result.toOption.getD []).length ≤ input.length := by
  induction want, input using ask.induct generalizing result source with
  | case1 | case2 | case3 | case4 =>
    simp only [ask, Prod.mk.injEq] at h
    obtain ⟨rfl, rfl⟩ := h
    simp [size, Except.toOption]
  | case5 want c input chars rest hr ih =>
    simp only [ask, hr, Prod.mk.injEq] at h
    obtain ⟨rfl, rfl⟩ := h
    have := ih hr
    simp [Except.toOption] at this ⊢
    omega
  | case6 want c input fault rest hr ih =>
    simp only [ask, hr, Prod.mk.injEq] at h
    obtain ⟨rfl, rfl⟩ := h
    have := ih hr
    simp [Except.toOption] at this ⊢
    omega

/-- Delivered characters are no longer to come. -/
theorem size_fill {want : Nat} {source rest : Source} {chars : List Char}
    (h : source.fill want = (.ok chars, rest)) : rest.size + chars.length ≤ source.size := by
  simp only [fill] at h
  split at h
  · simp only [Prod.mk.injEq, Except.ok.injEq] at h
    obtain ⟨rfl, rfl⟩ := h
    simp only [size, List.length_take, List.length_drop]
    omega
  · split at h
    · rename_i taken source' ha
      simp only [Prod.mk.injEq, Except.ok.injEq] at h
      obtain ⟨rfl, rfl⟩ := h
      have := size_ask ha
      simp only [Except.toOption, Option.getD_some] at this
      simp only [size, List.length_append, List.length_take] at this ⊢
      omega
    · simp at h

/-- Everything that is left, and the fault that it stops before, if it does not end. -/
def drain (source : Source) : List Char × Option Fault :=
  match _h : source.fill 1 with
  | (.error fault, _) => ([], some fault)
  | (.ok [], _) => ([], none)
  | (.ok (c :: cs), rest) =>
    let later := rest.drain
    (c :: cs ++ later.1, later.2)
termination_by source.size
decreasing_by
  have := size_fill _h
  simp only [List.length_cons] at this
  omega

end Source

end SqlTokens
