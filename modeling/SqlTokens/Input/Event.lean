import SqlTokens.Input.Fault

/-!
# What an input answers

An input is known by what it answers to the requests made of it, one after the other: an item, a
fault, or the end. A finite list of these events therefore stands for a whole input. After the last
of them the input answers with its end for ever; an end inside the list is an end that more can
follow, as on a terminal.
-/

namespace SqlTokens

/-- The answer of an input to one request for an item. -/
inductive Event (α : Type) where
  | item (value : α)
  | failure (fault : Fault)
  | ending
  deriving DecidableEq, Repr

namespace Event

/-- An input that answers with the items of a list and then ends. -/
def ofItems (items : List α) : List (Event α) :=
  items.map .item

/-- The items of an input before its first end or fault. -/
def itemsOf : List (Event α) → List α
  | .item value :: events => value :: itemsOf events
  | [] | .ending :: _ | .failure _ :: _ => []

/-- The fault at which an input first stops, if it does not stop at an end. -/
def stopOf? : List (Event α) → Option Fault
  | .item _ :: events => stopOf? events
  | .failure fault :: _ => some fault
  | [] | .ending :: _ => none

/-- All items of an input, up to its end. -/
def readAll (events : List (Event α)) : Except Fault (List α) :=
  match stopOf? events with
  | some fault => .error fault
  | none => .ok (itemsOf events)

@[simp] theorem ofItems_nil : ofItems ([] : List α) = [] := rfl

@[simp] theorem ofItems_cons (item : α) (items : List α) :
    ofItems (item :: items) = .item item :: ofItems items := rfl

@[simp] theorem itemsOf_ofItems (values : List α) : itemsOf (ofItems values) = values := by
  induction values with
  | nil => rfl
  | cons value values ih => simp [itemsOf, ih]

@[simp] theorem stopOf?_ofItems (values : List α) : stopOf? (ofItems values) = none := by
  induction values with
  | nil => rfl
  | cons value values ih => simp [stopOf?, ih]

@[simp] theorem readAll_ofItems (values : List α) : readAll (ofItems values) = .ok values := by
  simp [readAll]

end Event

end SqlTokens
