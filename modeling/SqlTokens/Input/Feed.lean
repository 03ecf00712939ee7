import SqlTokens.Input.Event

/-!
# Feeds of bytes

A feed hands out bytes in chunks, and a chunk may be a fault instead. Between the feed and its
reader stands a buffer, which takes in the next chunk, or as much of it as it can hold, only when it
is empty. A chunk without bytes says that the feed has ended, though more chunks can follow. A fault
that only says "interrupted" means that the request should be made again; the reader never sees it.
-/

namespace SqlTokens

/-- What a feed hands out at one request. -/
inductive Chunk where
  | data (bytes : List UInt8)
  | failure (fault : Fault)
  deriving DecidableEq, Repr

/-- A feed of chunks behind a buffer. -/
structure Feed where
  buffer : List UInt8
  chunks : List Chunk
  deriving DecidableEq, Repr

namespace Feed

/-- The number of bytes that the buffer holds. -/
def bufferSize : Nat := 8192

/-- A feed of which nothing has been read. -/
def ofChunks (chunks : List Chunk) : Feed :=
  ⟨[], chunks⟩

/-- A feed that hands out some bytes and ends. -/
def ofBytes (bytes : List UInt8) : Feed :=
  ofChunks [.data bytes]

/-- Fill the empty buffer from the chunks and answer with its first byte. -/
def refill : List Chunk → Event UInt8 × Feed
  | [] => (.ending, ⟨[], []⟩)
  | .failure fault :: chunks =>
    if fault.kind = .interrupted then refill chunks else (.failure fault, ⟨[], chunks⟩)
  | .data [] :: chunks => (.ending, ⟨[], chunks⟩)
  | .data (byte :: bytes) :: chunks =>
    let left := bytes.drop (bufferSize - 1)
    (.item byte,
      ⟨bytes.take (bufferSize - 1), if left.isEmpty then chunks else .data left :: chunks⟩)

/-- The next byte of a feed. -/
def nextByte (feed : Feed) : Event UInt8 × Feed :=
  match feed.buffer with
  | byte :: bytes => (.item byte, { feed with buffer := bytes })
  | [] => refill feed.chunks

/-- The bytes in chunks before the first end or fault. -/
def bytesOf : List Chunk → List UInt8
  | [] | .data [] :: _ => []
  | .data bytes :: chunks => bytes ++ bytesOf chunks
  | .failure fault :: chunks => if fault.kind = .interrupted then bytesOf chunks else []

/-- The fault at which chunks first stop, if they do not stop at an end. -/
def stopOf? : List Chunk → Option Fault
  | [] | .data [] :: _ => none
  | .data _ :: chunks => stopOf? chunks
  | .failure fault :: chunks => if fault.kind = .interrupted then stopOf? chunks else some fault

/-- The bytes that a feed hands out before it first stops. -/
def bytes (feed : Feed) : List UInt8 :=
  feed.buffer ++ bytesOf feed.chunks

/-- The fault at which a feed first stops, if it does not stop at an end. -/
def stop? (feed : Feed) : Option Fault :=
  stopOf? feed.chunks

/-- All bytes of a feed, up to its end. -/
def readAll (feed : Feed) : Except Fault (List UInt8) :=
  match feed.stop? with
  | some fault => .error fault
  | none => .ok feed.bytes

@[simp] theorem readAll_ofBytes (bytes : List UInt8) : (ofBytes bytes).readAll = .ok bytes := by
  cases bytes <;> simp [ofBytes, ofChunks, readAll, stop?, stopOf?, Feed.bytes, bytesOf]

/-- Whether nothing is left of a feed but its end. -/
def isSpent (feed : Feed) : Bool :=
  feed.buffer.isEmpty && feed.chunks.isEmpty

/-- The size of chunks. Each counts one more than its bytes, so that reading it makes a feed smaller
even if it holds none. -/
def sizeOfChunks : List Chunk → Nat
  | [] => 0
  | .data bytes :: chunks => bytes.length + 1 + sizeOfChunks chunks
  | .failure _ :: chunks => 1 + sizeOfChunks chunks

/-- A bound on the number of requests that a feed can answer with something other than its last
end. -/
def size (feed : Feed) : Nat :=
  feed.buffer.length + sizeOfChunks feed.chunks

theorem size_pos {feed : Feed} (h : feed.isSpent = false) : 0 < feed.size := by
  obtain ⟨buffer, chunks⟩ := feed
  cases buffer with
  | nil =>
    cases chunks with
    | nil => simp [isSpent] at h
    | cons chunk chunks =>
      cases chunk <;> simp only [size, sizeOfChunks] <;> omega
  | cons byte bytes => simp only [size, List.length_cons]; omega

theorem size_refill (chunks : List Chunk) :
    (refill chunks).2.size ≤ sizeOfChunks chunks - 1 := by
  induction chunks using refill.induct with
  | case1 => simp [refill, size, sizeOfChunks]
  | case2 fault chunks h ih =>
    simp only [refill, h, ↓reduceIte, sizeOfChunks]
    omega
  | case3 fault chunks h => simp [refill, h, size, sizeOfChunks]
  | case4 chunks => simp [refill, size, sizeOfChunks]
  | case5 byte bytes chunks =>
    simp only [refill, size, sizeOfChunks, List.length_cons]
    split
    · simp only [List.length_take]
      omega
    · simp only [List.length_take, List.length_drop, sizeOfChunks]
      omega

/-- Reading from a feed makes it smaller, unless nothing was left of it. -/
theorem size_nextByte (feed : Feed) : feed.nextByte.2.size ≤ feed.size - 1 := by
  obtain ⟨buffer, chunks⟩ := feed
  cases buffer with
  | nil => simpa [nextByte, size] using size_refill chunks
  | cons byte bytes =>
    simp only [nextByte, size, List.length_cons]
    omega

end Feed

end SqlTokens
