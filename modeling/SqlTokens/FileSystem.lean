import SqlTokens.Input.Feed

/-!
# File systems

Files as a run meets them. A run knows a file by a path and by nothing else. What a path leads to,
whether the file may be read or written and what the files are like afterwards is up to the machine,
so all of this is left open here.
-/

namespace SqlTokens

/-- What can be asked of files and done to them. A value of `σ` is what all files are like at some
time. -/
structure FileSystem (σ : Type) where
  /-- Whether something is at a path. -/
  isThere : σ → List Char → Bool
  /-- Open the file at a path. -/
  openFile : σ → List Char → Except Fault Feed
  /-- Write a file at a path. A file that is there gets new bytes. If there is a fault, the files
  stay as they are. -/
  write : σ → List Char → List UInt8 → Except Fault σ

end SqlTokens
