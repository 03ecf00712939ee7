import SqlTokens.Proofs.Input.Utf8

/-!
# What a feed holds

A feed is read byte by byte through a buffer that takes in one chunk after the other. What comes of
it is a matter of two things only: the bytes in front of the first stop, and whether that stop is an
end or a fault (`nextByte_cases`). Where chunks begin, how long they are, what was interrupted and
what follows the stop is not seen.

A reader of characters therefore finds one of two things. Either the bytes are the encoding of a
text and the feed ends behind it (`Holds`), or the feed fails behind a text, for one of four reasons
(`FailsAfter`, `Utf8.Breaks`); `holds_iff` and `failsAfter_iff` say that this is what it reports.
-/

namespace SqlTokens

namespace Utf8

/-- Whether bytes are the beginning of a character whose end is missing, or nothing at all. -/
def Begun : List UInt8 → Prop
  | [] => True
  | lead :: tail => ∃ n, tailLength? lead = some n ∧ tail.length < n

/-- Why no character can be read from the front of some bytes, where `stop?` is the fault behind
them if they do not stop at an end. -/
inductive Breaks (stop? : Option Fault) : List UInt8 → Fault → Prop where
  /-- The bytes give out in front of a character or inside it, and there is a fault. -/
  | stopped {bytes : List UInt8} {fault : Fault} (begun : Begun bytes) (stop : stop? = some fault) :
      Breaks stop? bytes fault
  /-- The bytes give out inside a character, and there is an end. -/
  | truncated {bytes : List UInt8} (begun : Begun bytes) (ne : bytes ≠ []) (stop : stop? = none) :
      Breaks stop? bytes Problem.truncated.fault
  /-- No character starts with the first byte. -/
  | unexpectedByte {lead : UInt8} (rest : List UInt8) (h : tailLength? lead = none) :
      Breaks stop? (lead :: rest) (Problem.unexpectedByte lead).fault
  /-- There are as many bytes as the first one asks for, and they are not a character. -/
  | malformed {lead : UInt8} {tail : List UInt8} (rest : List UInt8) {problem : Problem}
      (length : tailLength? lead = some tail.length) (h : decode lead tail = .error problem) :
      Breaks stop? (lead :: (tail ++ rest)) problem.fault

@[simp] theorem encode_cons (c : Char) (text : List Char) :
    encode (c :: text) = String.utf8EncodeChar c ++ encode text := rfl

/-- In front of bytes there is a character, or there is a reason why there is none. -/
theorem exists_char_or_breaks (stop? : Option Fault) (bytes : List UInt8) :
    (∃ c rest, bytes = String.utf8EncodeChar c ++ rest) ∨ (∃ fault, Breaks stop? bytes fault) ∨
      (bytes = [] ∧ stop? = none) := by
  cases bytes with
  | nil =>
    cases stop? with
    | none => exact .inr (.inr ⟨rfl, rfl⟩)
    | some fault => exact .inr (.inl ⟨fault, .stopped trivial rfl⟩)
  | cons lead bytes =>
    cases hlength : tailLength? lead with
    | none => exact .inr (.inl ⟨_, .unexpectedByte bytes hlength⟩)
    | some n =>
      rcases Nat.lt_or_ge bytes.length n with hlt | hle
      · have hbegun : Begun (lead :: bytes) := ⟨n, hlength, hlt⟩
        cases stop? with
        | none => exact .inr (.inl ⟨_, .truncated hbegun (List.cons_ne_nil lead bytes) rfl⟩)
        | some fault => exact .inr (.inl ⟨fault, .stopped hbegun rfl⟩)
      · have hcut := List.take_append_drop n bytes
        have htail : tailLength? lead = some (bytes.take n).length := by
          rw [hlength, List.length_take_of_le hle]
        cases hdecode : decode lead (bytes.take n) with
        | error problem =>
          have hbreaks : Breaks stop? (lead :: (bytes.take n ++ bytes.drop n)) problem.fault :=
            .malformed (bytes.drop n) htail hdecode
          rw [hcut] at hbreaks
          exact .inr (.inl ⟨_, hbreaks⟩)
        | ok c =>
          refine .inl ⟨c, bytes.drop n, ?_⟩
          rw [(decode_eq_ok_iff htail).mp hdecode, List.cons_append, hcut]

end Utf8

namespace Feed

section Bytes

variable {feed : Feed}

/-- The answers of a feed to a request for a byte. -/
inductive NextByteCases (feed : Feed) : Prop where
  | item (byte : UInt8) (rest : Feed) (eq : feed.nextByte = (.item byte, rest))
      (bytes : feed.bytes = byte :: rest.bytes) (stop : rest.stop? = feed.stop?)
  | ending (rest : Feed) (eq : feed.nextByte = (.ending, rest)) (bytes : feed.bytes = [])
      (stop : feed.stop? = none)
  | failure (fault : Fault) (rest : Feed) (eq : feed.nextByte = (.failure fault, rest))
      (bytes : feed.bytes = []) (stop : feed.stop? = some fault)

/-- What the buffer could not hold is still in front of the other chunks. -/
theorem bytesOf_data_left (left : List UInt8) (chunks : List Chunk) :
    bytesOf (if left.isEmpty then chunks else .data left :: chunks) = left ++ bytesOf chunks := by
  cases left <;> rfl

theorem stopOf?_data_left (left : List UInt8) (chunks : List Chunk) :
    stopOf? (if left.isEmpty then chunks else .data left :: chunks) = stopOf? chunks := by
  cases left <;> rfl

theorem refill_cases (chunks : List Chunk) : NextByteCases ⟨[], chunks⟩ := by
  induction chunks using refill.induct with
  | case1 => exact .ending _ rfl rfl rfl
  | case2 fault chunks h ih =>
    have hnext : nextByte ⟨[], .failure fault :: chunks⟩ = nextByte ⟨[], chunks⟩ := by
      simp only [nextByte, refill, h, ↓reduceIte]
    have hbytes : bytes ⟨[], .failure fault :: chunks⟩ = bytes ⟨[], chunks⟩ := by
      simp [Feed.bytes, bytesOf, h]
    have hstop : stop? ⟨[], .failure fault :: chunks⟩ = stop? ⟨[], chunks⟩ := by
      simp [stop?, stopOf?, h]
    cases ih with
    | item byte rest eq bytes stop =>
      exact .item byte rest (hnext.trans eq) (hbytes.trans bytes) (stop.trans hstop.symm)
    | ending rest eq bytes stop =>
      exact .ending rest (hnext.trans eq) (hbytes.trans bytes) (hstop.trans stop)
    | failure fault' rest eq bytes stop =>
      exact .failure fault' rest (hnext.trans eq) (hbytes.trans bytes) (hstop.trans stop)
  | case3 fault chunks h =>
    refine .failure fault ⟨[], chunks⟩ ?_ ?_ ?_
    · simp only [nextByte, refill, h, ↓reduceIte]
    · simp [Feed.bytes, bytesOf, h]
    · simp [stop?, stopOf?, h]
  | case4 chunks => exact .ending ⟨[], chunks⟩ rfl rfl rfl
  | case5 byte bytes chunks =>
    refine .item byte _ rfl ?_ ?_
    · rw [Feed.bytes, Feed.bytes, bytesOf_data_left, ← List.append_assoc, List.take_append_drop]
      rfl
    · rw [stop?, stopOf?_data_left]
      rfl

theorem nextByte_cases (feed : Feed) : NextByteCases feed := by
  obtain ⟨buffer, chunks⟩ := feed
  cases buffer with
  | nil => exact refill_cases chunks
  | cons byte bytes => exact .item byte ⟨bytes, chunks⟩ rfl rfl rfl

theorem nextByte_of_bytes {byte : UInt8} {rest : List UInt8} (h : feed.bytes = byte :: rest) :
    ∃ after, feed.nextByte = (.item byte, after) ∧ after.bytes = rest ∧
      after.stop? = feed.stop? := by
  cases nextByte_cases feed with
  | item byte' after eq bytes stop =>
    obtain ⟨rfl, hrest⟩ := List.cons.inj (bytes.symm.trans h)
    exact ⟨after, eq, hrest, stop⟩
  | ending after eq bytes stop =>
    rw [bytes] at h
    cases h
  | failure fault after eq bytes stop =>
    rw [bytes] at h
    cases h

theorem nextTail_of_bytes {tail rest : List UInt8} (h : feed.bytes = tail ++ rest) :
    ∃ after, nextTail tail.length feed = (.ok tail, after) ∧ after.bytes = rest ∧
      after.stop? = feed.stop? := by
  induction tail generalizing feed with
  | nil => exact ⟨feed, rfl, h, rfl⟩
  | cons byte tail ih =>
    obtain ⟨middle, hbyte, hbytes, hstop⟩ := nextByte_of_bytes h
    obtain ⟨after, htail, hafter, hstop'⟩ := ih hbytes
    refine ⟨after, ?_, hafter, hstop'.trans hstop⟩
    rw [List.length_cons, nextTail, hbyte]
    simp only [htail]

theorem nextTail_of_length_lt {n : Nat} (h : feed.bytes.length < n) :
    ∃ after, nextTail n feed = (.error (feed.stop?.getD Utf8.Problem.truncated.fault), after) := by
  induction n generalizing feed with
  | zero => exact absurd h (Nat.not_lt_zero _)
  | succ n ih =>
    rw [nextTail]
    cases nextByte_cases feed with
    | item byte feed' eq bytes stop =>
      rw [bytes] at h
      obtain ⟨after, hafter⟩ := ih (Nat.lt_of_succ_lt_succ h)
      exact ⟨after, by simp only [eq, hafter, stop]⟩
    | ending feed' eq bytes stop => exact ⟨feed', by simp only [eq, stop, Option.getD_none]⟩
    | failure fault feed' eq bytes stop => exact ⟨feed', by simp only [eq, stop, Option.getD_some]⟩

end Bytes

section Chars

variable {feed : Feed}

/-- A character whose bytes are there is read from them. -/
theorem nextChar_of_bytes {c : Char} {rest : List UInt8}
    (h : feed.bytes = String.utf8EncodeChar c ++ rest) :
    ∃ after, feed.nextChar = (.item c, after) ∧ after.bytes = rest ∧ after.stop? = feed.stop? := by
  obtain ⟨lead, tail, hencode, hlength⟩ := Utf8.exists_utf8EncodeChar_eq c
  rw [hencode, List.cons_append] at h
  obtain ⟨middle, hlead, hbytes, hstop⟩ := nextByte_of_bytes h
  obtain ⟨after, htail, hafter, hstop'⟩ := nextTail_of_bytes hbytes
  have hdecode := (Utf8.decode_eq_ok_iff hlength).mpr hencode
  refine ⟨after, ?_, hafter, hstop'.trans hstop⟩
  simp only [nextChar, hlead, hlength, htail, hdecode]

theorem nextChar_of_end (hbytes : feed.bytes = []) (hstop : feed.stop? = none) :
    ∃ after, feed.nextChar = (.ending, after) := by
  rw [nextChar]
  cases nextByte_cases feed with
  | item byte after eq bytes stop =>
    rw [bytes] at hbytes
    cases hbytes
  | ending after eq bytes stop => exact ⟨after, by rw [eq]⟩
  | failure fault after eq bytes stop =>
    rw [hstop] at stop
    cases stop

/-- A character that was begun is not read. -/
theorem nextChar_of_begun (hbegun : Utf8.Begun feed.bytes)
    (h : feed.bytes ≠ [] ∨ feed.stop?.isSome) : ∃ after,
      feed.nextChar = (.failure (feed.stop?.getD Utf8.Problem.truncated.fault), after) := by
  rw [nextChar]
  cases nextByte_cases feed with
  | item byte middle eq bytes stop =>
    rw [bytes] at hbegun
    obtain ⟨n, hlength, hlt⟩ := hbegun
    obtain ⟨after, hafter⟩ := nextTail_of_length_lt hlt
    rw [stop] at hafter
    exact ⟨after, by simp only [eq, hlength, hafter]⟩
  | ending middle eq bytes stop =>
    rw [bytes, stop] at h
    simp at h
  | failure fault middle eq bytes stop => exact ⟨middle, by simp only [eq, stop, Option.getD_some]⟩

theorem nextChar_of_breaks {fault : Fault} (h : Utf8.Breaks feed.stop? feed.bytes fault) :
    ∃ after, feed.nextChar = (.failure fault, after) := by
  generalize hbytes : feed.bytes = bytes at h
  cases h with
  | stopped begun stop =>
    obtain ⟨after, hafter⟩ := nextChar_of_begun (hbytes ▸ begun) (.inr (by rw [stop]; rfl))
    rw [stop] at hafter
    exact ⟨after, hafter⟩
  | truncated begun ne stop =>
    obtain ⟨after, hafter⟩ := nextChar_of_begun (hbytes ▸ begun) (.inl (hbytes ▸ ne))
    rw [stop] at hafter
    exact ⟨after, hafter⟩
  | unexpectedByte rest length =>
    obtain ⟨after, hlead, -⟩ := nextByte_of_bytes hbytes
    exact ⟨after, by simp only [nextChar, hlead, length]⟩
  | malformed rest length problem =>
    obtain ⟨middle, hlead, hmiddle, -⟩ := nextByte_of_bytes hbytes
    obtain ⟨after, htail, -⟩ := nextTail_of_bytes hmiddle
    exact ⟨after, by simp only [nextChar, hlead, length, htail, problem]⟩

end Chars

section Events

variable {feed after : Feed} {text : List Char} {fault : Fault}

theorem events_of_ne_ending {event : Event Char} (h : feed.nextChar = (event, after))
    (hne : event ≠ .ending) : feed.events = event :: after.events := by
  have hspent : feed.isSpent ≠ true := by
    obtain ⟨buffer, chunks⟩ := feed
    intro hspent
    obtain ⟨hbuffer, hchunks⟩ := Bool.and_eq_true_iff.mp hspent
    obtain rfl := List.isEmpty_iff.mp hbuffer
    obtain rfl := List.isEmpty_iff.mp hchunks
    exact hne (congrArg Prod.fst h).symm
  rw [events, dif_neg hspent, h]

theorem events_of_ending (h : feed.nextChar = (.ending, after)) :
    Event.itemsOf feed.events = [] ∧ Event.stopOf? feed.events = none := by
  rw [events]
  split
  · exact ⟨rfl, rfl⟩
  · rw [h]
    exact ⟨rfl, rfl⟩

/-- A feed holds a text if its bytes are the encoding of the text and it ends behind them. -/
structure Holds (feed : Feed) (text : List Char) : Prop where
  bytes : feed.bytes = Utf8.encode text
  stop : feed.stop? = none

/-- A feed fails behind a text if the next character behind its encoding cannot be read. -/
def FailsAfter (feed : Feed) (text : List Char) (fault : Fault) : Prop :=
  ∃ rest, feed.bytes = Utf8.encode text ++ rest ∧ Utf8.Breaks feed.stop? rest fault

/-- The characters that the bytes begin with are read first, and then it goes on with the bytes
behind them. -/
theorem events_of_bytes {rest : List UInt8} (h : feed.bytes = Utf8.encode text ++ rest) :
    ∃ after : Feed, after.bytes = rest ∧ after.stop? = feed.stop? ∧
      Event.itemsOf feed.events = text ++ Event.itemsOf after.events ∧
      Event.stopOf? feed.events = Event.stopOf? after.events := by
  induction text generalizing feed with
  | nil => exact ⟨feed, h, rfl, rfl, rfl⟩
  | cons c text ih =>
    rw [Utf8.encode_cons, List.append_assoc] at h
    obtain ⟨middle, hchar, hbytes, hstop⟩ := nextChar_of_bytes h
    obtain ⟨after, hafter, hstop', hitems, hend⟩ := ih hbytes
    refine ⟨after, hafter, hstop'.trans hstop, ?_⟩
    rw [events_of_ne_ending hchar (by simp)]
    exact ⟨congrArg (c :: ·) hitems, hend⟩

theorem events_of_holds (h : feed.Holds text) :
    Event.itemsOf feed.events = text ∧ Event.stopOf? feed.events = none := by
  have hbytes : feed.bytes = Utf8.encode text ++ [] := by rw [h.bytes, List.append_nil]
  obtain ⟨after, hnil, hstop, hitems, hend⟩ := events_of_bytes hbytes
  obtain ⟨last, hlast⟩ := nextChar_of_end hnil (hstop.trans h.stop)
  obtain ⟨hnone, hending⟩ := events_of_ending hlast
  rw [hitems, hend, hnone, List.append_nil]
  exact ⟨rfl, hending⟩

theorem events_of_failsAfter (h : feed.FailsAfter text fault) :
    Event.itemsOf feed.events = text ∧ Event.stopOf? feed.events = some fault := by
  obtain ⟨rest, hbytes, hbreaks⟩ := h
  obtain ⟨after, hrest, hstop, hitems, hend⟩ := events_of_bytes hbytes
  rw [← hrest, ← hstop] at hbreaks
  obtain ⟨last, hlast⟩ := nextChar_of_breaks hbreaks
  rw [hitems, hend, events_of_ne_ending hlast (by simp)]
  exact ⟨List.append_nil text, rfl⟩

/-- Every feed holds a text or fails behind one. -/
theorem holds_or_failsAfter (feed : Feed) :
    (∃ text, feed.Holds text) ∨ ∃ text fault, feed.FailsAfter text fault := by
  induction hlength : feed.bytes.length using Nat.strongRecOn generalizing feed with
  | ind n ih =>
    rcases Utf8.exists_char_or_breaks feed.stop? feed.bytes with
      ⟨c, rest, hbytes⟩ | ⟨fault, hbreaks⟩ | ⟨hbytes, hstop⟩
    · obtain ⟨after, -, rfl, hstop⟩ := nextChar_of_bytes hbytes
      obtain ⟨lead, tail, hencode, -⟩ := Utf8.exists_utf8EncodeChar_eq c
      have hlt : after.bytes.length < n := by
        rw [← hlength, hbytes, hencode, List.length_append, List.length_cons]
        omega
      rcases ih _ hlt after rfl with ⟨text, htext, hend⟩ | ⟨text, fault, rest, htext, hbreaks⟩
      · refine .inl ⟨c :: text, ?_, hstop ▸ hend⟩
        rw [hbytes, htext, Utf8.encode_cons]
      · refine .inr ⟨c :: text, fault, rest, ?_, hstop ▸ hbreaks⟩
        rw [hbytes, htext, Utf8.encode_cons, List.append_assoc]
    · exact .inr ⟨[], fault, feed.bytes, rfl, hbreaks⟩
    · exact .inl ⟨[], hbytes, hstop⟩

theorem holds_iff : feed.Holds text ↔
    Event.itemsOf feed.events = text ∧ Event.stopOf? feed.events = none := by
  constructor
  · exact events_of_holds
  · rintro ⟨rfl, hend⟩
    rcases holds_or_failsAfter feed with ⟨text, htext⟩ | ⟨text, fault, hfails⟩
    · rwa [(events_of_holds htext).1]
    · rw [(events_of_failsAfter hfails).2] at hend
      cases hend

theorem failsAfter_iff : feed.FailsAfter text fault ↔
    Event.itemsOf feed.events = text ∧ Event.stopOf? feed.events = some fault := by
  constructor
  · exact events_of_failsAfter
  · rintro ⟨rfl, hfault⟩
    rcases holds_or_failsAfter feed with ⟨text, htext⟩ | ⟨text, fault', hfails⟩
    · rw [(events_of_holds htext).2] at hfault
      cases hfault
    · obtain ⟨hitems, hfault'⟩ := events_of_failsAfter hfails
      obtain rfl := Option.some.inj (hfault'.symm.trans hfault)
      rwa [hitems]

/-- Nothing but the bytes before the first stop, and this stop, shows in what a feed answers. -/
theorem events_congr {feed' : Feed} (hbytes : feed.bytes = feed'.bytes)
    (hstop : feed.stop? = feed'.stop?) :
    Event.itemsOf feed.events = Event.itemsOf feed'.events ∧
      Event.stopOf? feed.events = Event.stopOf? feed'.events := by
  rcases holds_or_failsAfter feed with ⟨text, htext⟩ | ⟨text, fault, rest, htext, hbreaks⟩
  · have htext' : feed'.Holds text := ⟨hbytes ▸ htext.bytes, hstop ▸ htext.stop⟩
    obtain ⟨hitems, hend⟩ := events_of_holds htext
    obtain ⟨hitems', hend'⟩ := events_of_holds htext'
    exact ⟨hitems.trans hitems'.symm, hend.trans hend'.symm⟩
  · have hfails' : feed'.FailsAfter text fault := ⟨rest, hbytes ▸ htext, hstop ▸ hbreaks⟩
    obtain ⟨hitems, hfault⟩ := events_of_failsAfter ⟨rest, htext, hbreaks⟩
    obtain ⟨hitems', hfault'⟩ := events_of_failsAfter hfails'
    exact ⟨hitems.trans hitems'.symm, hfault.trans hfault'.symm⟩

end Events

end Feed

end SqlTokens
