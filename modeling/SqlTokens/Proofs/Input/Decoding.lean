import SqlTokens.Proofs.Input.Feed

/-!
# Decoding takes the longest well-formed beginning

A feed that does not fail is asked for characters again and again. It hands out some of them and
then answers with its end or with a fault. The encoding of what it handed out is the longest
beginning of its bytes that is a text at all, so there is a fault if and only if bytes are left over
(`answers_are_the_longest_text`). What a text is, is said without a decoder (`Utf8.IsText`).

Decoding and encoding are therefore inverse to each other (`Utf8.text?_eq_some_iff`).
-/

namespace SqlTokens

namespace Event

variable {α : Type}

/-- The answer with which an input stops: its end, unless there is a fault. -/
def ofStop? : Option Fault → Event α
  | none => .ending
  | some fault => .failure fault

theorem getD_getElem?_of_lt (events : List (Event α)) (n : Nat)
    (h : n < (itemsOf events).length) :
    events[n]?.getD .ending = .item ((itemsOf events)[n]) := by
  induction events using itemsOf.induct generalizing n with
  | case1 value events ih =>
    cases n with
    | zero => rfl
    | succ n => exact ih n (Nat.lt_of_succ_lt_succ h)
  | case2 | case3 | case4 => exact absurd h (Nat.not_lt_zero n)

theorem getD_getElem?_length (events : List (Event α)) :
    events[(itemsOf events).length]?.getD .ending = ofStop? (stopOf? events) := by
  induction events using itemsOf.induct with
  | case1 value events ih => exact ih
  | case2 | case3 | case4 => rfl

end Event

namespace Utf8

/-- Bytes that are characters one after the other, each of them well-formed. -/
inductive IsText : List UInt8 → Prop where
  | nil : IsText []
  | cons {lead : UInt8} {tail rest : List UInt8} (char : WellFormed lead tail)
      (rest_isText : IsText rest) : IsText (lead :: (tail ++ rest))

theorem encode_append (text text' : List Char) :
    encode (text ++ text') = encode text ++ encode text' := by
  simp [encode]

theorem isText_encode (text : List Char) : IsText (encode text) := by
  induction text with
  | nil => exact .nil
  | cons c text ih =>
    obtain ⟨lead, tail, hencode, hform, -⟩ := exists_wellFormed c
    rw [encode_cons, hencode]
    exact .cons hform ih

theorem exists_encode_eq {bytes : List UInt8} (h : IsText bytes) : ∃ text, encode text = bytes := by
  induction h with
  | nil => exact ⟨[], rfl⟩
  | @cons lead tail rest char rest_isText ih =>
    obtain ⟨text, rfl⟩ := ih
    refine ⟨.ofNat (codePoint lead tail) :: text, ?_⟩
    rw [encode_cons, (utf8EncodeChar_codePoint char).2, List.cons_append]

/-- Where bytes break off that do not fail, some are left over, and they are blamed for it. -/
theorem Breaks.of_no_stop {bytes : List UInt8} {fault : Fault} (h : Breaks none bytes fault) :
    bytes ≠ [] ∧ fault.kind = .invalidData := by
  cases h with
  | stopped begun stop => cases stop
  | truncated begun ne stop => exact ⟨ne, rfl⟩
  | unexpectedByte rest length => exact ⟨List.cons_ne_nil _ _, rfl⟩
  | malformed rest length problem => exact ⟨List.cons_ne_nil _ _, rfl⟩

end Utf8

namespace Feed

/-- The feed after a number of requests for a character. -/
def afterChars (feed : Feed) : Nat → Feed
  | 0 => feed
  | n + 1 => (feed.afterChars n).nextChar.2

/-- The answer to the request for a character that `n` requests came before. -/
def answer (feed : Feed) (n : Nat) : Event Char :=
  (feed.afterChars n).nextChar.1

theorem afterChars_succ (feed : Feed) (n : Nat) :
    feed.afterChars (n + 1) = feed.nextChar.2.afterChars n := by
  induction n with
  | zero => rfl
  | succ n ih => exact congrArg (·.nextChar.2) ih

theorem nextChar_of_isSpent {feed : Feed} (h : feed.isSpent = true) :
    feed.nextChar = (.ending, feed) := by
  obtain ⟨buffer, chunks⟩ := feed
  obtain ⟨hbuffer, hchunks⟩ := Bool.and_eq_true_iff.mp h
  obtain rfl := List.isEmpty_iff.mp hbuffer
  obtain rfl := List.isEmpty_iff.mp hchunks
  rfl

theorem afterChars_of_isSpent {feed : Feed} (h : feed.isSpent = true) (n : Nat) :
    feed.afterChars n = feed := by
  induction n with
  | zero => rfl
  | succ n ih => rw [afterChars, ih, nextChar_of_isSpent h]

/-- The events of a feed are its answers, and behind the last of them it answers with its end. -/
theorem answer_eq (feed : Feed) (n : Nat) : feed.answer n = feed.events[n]?.getD .ending := by
  induction feed using events.induct generalizing n with
  | case1 feed hspent =>
    rw [events, dif_pos hspent, answer, afterChars_of_isSpent hspent, nextChar_of_isSpent hspent]
    rfl
  | case2 feed hspent next ih =>
    rw [events, dif_neg hspent]
    cases n with
    | zero => rfl
    | succ n =>
      rw [answer, afterChars_succ]
      exact ih n

/-- The characters before the first stop are handed out one after the other, and then it stops. -/
theorem answers_eq (feed : Feed) :
    (∀ n (hn : n < (Event.itemsOf feed.events).length),
      feed.answer n = .item (Event.itemsOf feed.events)[n]) ∧
      feed.answer (Event.itemsOf feed.events).length =
        .ofStop? (Event.stopOf? feed.events) := by
  constructor
  · intro n hn
    rw [answer_eq, Event.getD_getElem?_of_lt feed.events n hn]
  · rw [answer_eq, Event.getD_getElem?_length]

/-- A beginning of the bytes that is a text is read as a whole. -/
theorem prefix_encode_itemsOf (feed : Feed) (begun : List UInt8) (hbegun : begun <+: feed.bytes)
    (h : Utf8.IsText begun) : begun <+: Utf8.encode (Event.itemsOf feed.events) := by
  obtain ⟨text, rfl⟩ := Utf8.exists_encode_eq h
  obtain ⟨rest, hbytes⟩ := hbegun
  obtain ⟨after, -, -, hitems, -⟩ := events_of_bytes hbytes.symm
  rw [hitems, Utf8.encode_append]
  exact List.prefix_append _ _

end Feed

/-- Bytes are decoded to the text that they are the encoding of, and to no other. -/
theorem Utf8.text?_eq_some_iff {bytes : List UInt8} {text : List Char} :
    text? bytes = some text ↔ encode text = bytes := by
  have hbytes : (Feed.ofBytes bytes).bytes = bytes ∧ (Feed.ofBytes bytes).stop? = none := by
    cases bytes <;> simp [Feed.ofBytes, Feed.ofChunks, Feed.bytes, Feed.bytesOf, Feed.stop?,
      Feed.stopOf?]
  have hholds : (Feed.ofBytes bytes).Holds text ↔ encode text = bytes := by
    constructor
    · intro h
      rw [← h.bytes, hbytes.1]
    · intro h
      exact ⟨by rw [hbytes.1, h], hbytes.2⟩
  rw [← hholds, Feed.holds_iff, text?, Event.readAll]
  cases Event.stopOf? (Feed.ofBytes bytes).events <;> simp [Except.toOption]

/-- A feed that does not fail answers with characters, and then with its end or with a fault that
says that its data are invalid. The encoding of the characters is a text, and it is the longest text
that the bytes begin with. There is a fault if and only if it is not all of the bytes. So the
characters of every text are read back from its encoding, and bytes that are read without a fault
are the encoding of what is read. -/
theorem answers_are_the_longest_text (feed : Feed) (h : feed.stop? = none) :
    (∃ text : List Char, ∃ fault? : Option Fault,
      ((∀ n (hn : n < text.length), feed.answer n = .item text[n]) ∧
        feed.answer text.length = .ofStop? fault?) ∧
      (Utf8.encode text <+: feed.bytes ∧ Utf8.IsText (Utf8.encode text) ∧
        ∀ begun, begun <+: feed.bytes → Utf8.IsText begun → begun <+: Utf8.encode text) ∧
      (fault?.isSome ↔ Utf8.encode text ≠ feed.bytes) ∧
      (∀ fault, fault? = some fault → fault.kind = .invalidData) ∧
      ∀ text', feed.bytes = Utf8.encode text' → text = text' ∧ fault? = none) ∧
    ∀ bytes text, Utf8.text? bytes = some text ↔ Utf8.encode text = bytes := by
  refine ⟨?_, fun bytes text => Utf8.text?_eq_some_iff⟩
  have hanswers := feed.answers_eq
  have hlongest := feed.prefix_encode_itemsOf
  have hback (text : List Char) (htext : feed.bytes = Utf8.encode text) :
      Event.itemsOf feed.events = text ∧ Event.stopOf? feed.events = none :=
    Feed.events_of_holds ⟨htext, h⟩
  refine ⟨Event.itemsOf feed.events, Event.stopOf? feed.events, hanswers, ?_⟩
  rcases feed.holds_or_failsAfter with ⟨text, hholds⟩ | ⟨text, fault, hfails⟩
  · obtain ⟨hitems, hend⟩ := Feed.events_of_holds hholds
    rw [hitems] at hlongest hback ⊢
    rw [hend] at hback ⊢
    refine ⟨⟨?_, Utf8.isText_encode text, hlongest⟩, ?_, ?_, hback⟩
    · exact hholds.bytes ▸ List.prefix_refl _
    · simp [hholds.bytes]
    · intro fault hfault
      cases hfault
  · obtain ⟨hitems, hend⟩ := Feed.events_of_failsAfter hfails
    obtain ⟨rest, hbytes, hbreaks⟩ := hfails
    rw [h] at hbreaks
    obtain ⟨hne, hkind⟩ := hbreaks.of_no_stop
    rw [hitems] at hlongest hback ⊢
    rw [hend] at hback ⊢
    refine ⟨⟨⟨rest, hbytes.symm⟩, Utf8.isText_encode text, hlongest⟩, ?_, ?_, hback⟩
    · simpa [hbytes] using hne
    · intro fault' hfault
      cases hfault
      exact hkind

/-- Two letters, of which the second comes in two chunks with an interruption between them, and then
a surrogate. -/
theorem answers_are_the_longest_text_surrogate :
    let feed := Feed.ofChunks [.data [0x61, 0xC3], .failure ⟨.interrupted, "signal"⟩,
      .data [0xA9, 0xED, 0xA0, 0x80, 0x62]]
    feed.stop? = none ∧ ∃ text fault, Utf8.encode ['a', 'é'] <+: Utf8.encode text ∧
      feed.answer text.length = .failure fault ∧ fault.kind = .invalidData := by
  intro feed
  have hstop : feed.stop? = none := by decide
  obtain ⟨⟨text, fault?, ⟨-, hlast⟩, ⟨-, -, hlongest⟩, hiff, hkind, -⟩, htext⟩ :=
    answers_are_the_longest_text feed hstop
  have hletters : Utf8.encode ['a', 'é'] <+: Utf8.encode text :=
    hlongest _ (by decide) (Utf8.isText_encode _)
  have hfault : fault?.isSome := by
    rw [hiff]
    intro hall
    have hread := (htext feed.bytes text).mpr hall
    have hnone : Utf8.text? feed.bytes = none := by decide +kernel
    rw [hnone] at hread
    cases hread
  obtain ⟨fault, rfl⟩ := Option.isSome_iff_exists.mp hfault
  exact ⟨hstop, text, fault, hletters, hlast, hkind fault rfl⟩

end SqlTokens
