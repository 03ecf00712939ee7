import SqlTokens.Input.Feed
import SqlTokens.Text.Number

/-!
# Reading UTF-8 from a feed

The characters of a feed are decoded as its bytes come in. The first byte of a character tells how
many bytes it takes. All of them are read before any is looked at, so a sequence that turns out to
be malformed is used up as a whole; a byte that cannot start a character is used up alone.

`Feed.events` runs the decoder to the last chunk of a feed, and so turns the feed into the input of
a `Source`.
-/

namespace SqlTokens

namespace Utf8

/-- The bytes of a text. -/
def encode (text : List Char) : List UInt8 :=
  text.flatMap String.utf8EncodeChar

/-- Why bytes are not a character. -/
inductive Problem where
  /-- A character cannot start with this byte. -/
  | unexpectedByte (byte : UInt8)
  /-- The feed ended inside a character. -/
  | truncated
  /-- Only the first `length` bytes are the beginning of a character. -/
  | malformed (length : Nat)
  deriving DecidableEq, Repr

/-- The wording of a problem. -/
def Problem.message : Problem → String
  | unexpectedByte byte =>
    "invalid UTF-8: unexpected byte 0x" ++ String.ofList (Text.hexadecimal 2 byte.toNat)
  | truncated => "invalid UTF-8: truncated sequence at end of stream"
  | malformed length =>
    "invalid UTF-8: invalid utf-8 sequence of " ++ String.ofList (Text.decimal length) ++
      " bytes from index 0"

/-- A problem as a fault of the input. -/
def Problem.fault (problem : Problem) : Fault :=
  ⟨.invalidData, problem.message⟩

/-- The number of bytes behind the first byte of a character, unless no character starts so. -/
def tailLength? (lead : UInt8) : Option Nat :=
  if lead ≤ 0x7f then some 0
  else if 0xc2 ≤ lead && lead ≤ 0xdf then some 1
  else if 0xe0 ≤ lead && lead ≤ 0xef then some 2
  else if 0xf0 ≤ lead && lead ≤ 0xf4 then some 3
  else none

/-- The bounds of the second byte of a character. Four first bytes narrow them, which excludes long
forms of short characters, surrogates, and numbers beyond the last character. -/
def secondBounds (lead : UInt8) : UInt8 × UInt8 :=
  if lead = 0xe0 then (0xa0, 0xbf)
  else if lead = 0xed then (0x80, 0x9f)
  else if lead = 0xf0 then (0x90, 0xbf)
  else if lead = 0xf4 then (0x80, 0x8f)
  else (0x80, 0xbf)

/-- The number of leading bytes that can stand behind a first byte, where the bounds are those of
the next of them. -/
def goodLength (bounds : UInt8 × UInt8) : List UInt8 → Nat
  | [] => 0
  | byte :: bytes =>
    if bounds.1 ≤ byte && byte ≤ bounds.2 then goodLength (0x80, 0xbf) bytes + 1 else 0

/-- The number of the character with a given first byte and given bytes behind it. -/
def codePoint (lead : UInt8) : List UInt8 → Nat
  | [] => lead.toNat
  | [b] => lead.toNat % 32 * 64 + b.toNat % 64
  | [b, c] => lead.toNat % 16 * 4096 + b.toNat % 64 * 64 + c.toNat % 64
  | b :: c :: d :: _ =>
    lead.toNat % 8 * 262144 + b.toNat % 64 * 4096 + c.toNat % 64 * 64 + d.toNat % 64

/-- The character that a first byte and the bytes behind it form. -/
def decode (lead : UInt8) (tail : List UInt8) : Except Problem Char :=
  let good := goodLength (secondBounds lead) tail
  if good < tail.length then .error (.malformed (good + 1))
  else .ok (.ofNat (codePoint lead tail))

end Utf8

namespace Feed

/-- Read the bytes behind the first byte of a character. The end of the feed is a fault here. -/
def nextTail : Nat → Feed → Except Fault (List UInt8) × Feed
  | 0, feed => (.ok [], feed)
  | n + 1, feed =>
    match feed.nextByte with
    | (.ending, feed) => (.error Utf8.Problem.truncated.fault, feed)
    | (.failure fault, feed) => (.error fault, feed)
    | (.item byte, feed) =>
      match nextTail n feed with
      | (.ok bytes, feed) => (.ok (byte :: bytes), feed)
      | (.error fault, feed) => (.error fault, feed)

/-- The next character of a feed. -/
def nextChar (feed : Feed) : Event Char × Feed :=
  match feed.nextByte with
  | (.ending, feed) => (.ending, feed)
  | (.failure fault, feed) => (.failure fault, feed)
  | (.item lead, feed) =>
    match Utf8.tailLength? lead with
    | none => (.failure (Utf8.Problem.unexpectedByte lead).fault, feed)
    | some n =>
      match nextTail n feed with
      | (.error fault, feed) => (.failure fault, feed)
      | (.ok tail, feed) =>
        match Utf8.decode lead tail with
        | .ok c => (.item c, feed)
        | .error problem => (.failure problem.fault, feed)

theorem size_nextTail (n : Nat) (feed : Feed) : (nextTail n feed).2.size ≤ feed.size := by
  induction n generalizing feed with
  | zero => exact Nat.le_refl _
  | succ n ih =>
    have hbyte := size_nextByte feed
    rw [nextTail]
    split <;> rename_i h <;> simp only [h] at hbyte
    · simp only; omega
    · simp only; omega
    · rename_i byte feed'
      have := ih feed'
      split <;> rename_i h' <;> simp only [h'] at this <;> simp only <;> omega

/-- Reading a character from a feed makes it smaller, unless nothing was left of it. -/
theorem size_nextChar (feed : Feed) : feed.nextChar.2.size ≤ feed.size - 1 := by
  have hbyte := size_nextByte feed
  rw [nextChar]
  split <;> rename_i h <;> simp only [h] at hbyte
  · exact hbyte
  · exact hbyte
  · rename_i lead feed'
    split
    · exact hbyte
    · rename_i n _
      have htail := size_nextTail n feed'
      split <;> rename_i h' <;> simp only [h'] at htail
      · simp only; omega
      · split <;> (simp only; omega)

/-- What a feed answers to a reader of characters, up to its last chunk. -/
def events (feed : Feed) : List (Event Char) :=
  if _h : feed.isSpent then []
  else
    let next := feed.nextChar
    next.1 :: events next.2
termination_by feed.size
decreasing_by
  have := size_nextChar feed
  have := size_pos (by simpa using _h)
  omega

end Feed

/-- The text that some bytes are the encoding of, if they are one. -/
def Utf8.text? (bytes : List UInt8) : Option (List Char) :=
  (Event.readAll (Feed.ofBytes bytes).events).toOption

end SqlTokens
