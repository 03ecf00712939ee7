import SqlTokens.FileSystem
import SqlTokens.Input.Utf8
import SqlTokens.Text.Pieces

/-!
# Disks

A disk holds files in folders, and one of the folders is the working folder. A file is known by the
names on the way to it from the root. A path is a text that leads, step by step, to a file or to a
folder; it starts at the root if its first character is a slash, and otherwise in the working
folder. The folder above the root is the root itself.
-/

namespace SqlTokens

/-- The name of a file or of a folder. -/
abbrev FileName := List Char

namespace Fault

/-- Nothing is there. -/
def notFound : Fault := ⟨.notFound, "No such file or directory (os error 2)"⟩

/-- A path goes on behind a file. -/
def notADirectory : Fault := ⟨.notADirectory, "Not a directory (os error 20)"⟩

/-- A folder was used like a file. -/
def isADirectory : Fault := ⟨.isADirectory, "Is a directory (os error 21)"⟩

/-- A name or a path is longer than a file system allows. -/
def nameTooLong : Fault := ⟨.other, "File name too long (os error 36)"⟩

/-- A path holds the character that ends paths. -/
def nulInPath : Fault := ⟨.other, "file name contained an unexpected NUL byte"⟩

end Fault

/-- A disk: the names on the way to the working folder, those on the way to other folders, and the
files with their bytes. A folder need not be listed if something is listed that is in it. -/
structure Disk where
  here : List FileName
  folders : List (List FileName)
  files : List (List FileName × List UInt8)
  deriving DecidableEq, Repr

namespace Disk

/-- Where a path leads: to a file, to a folder, or to a place in a folder where a file could be. -/
inductive Place where
  | file (names : List FileName) (bytes : List UInt8)
  | folder
  | vacant (names : List FileName)
  deriving DecidableEq, Repr

/-- The largest number of bytes in a name. -/
def maxNameSize : Nat := 255

/-- The largest number of bytes in a path. -/
def maxPathSize : Nat := 4095

/-- The bytes of the file with given names on the way to it. -/
def bytes? (disk : Disk) (names : List FileName) : Option (List UInt8) :=
  disk.files.lookup names

/-- Whether a folder has given names on the way to it. -/
def isFolder (disk : Disk) (names : List FileName) : Bool :=
  (disk.here :: disk.folders).any (names.isPrefixOf ·) ||
    disk.files.any fun file => names.isPrefixOf file.1

/-- A step that leads nowhere. -/
def isIdle (step : FileName) : Bool :=
  step = [] || step = ['.']

/-- Follow the steps of a path from the folder with given names on. -/
def follow (disk : Disk) (above : List FileName) : List FileName → Except Fault Place
  | [] => .ok .folder
  | step :: steps =>
    if isIdle step then disk.follow above steps
    else if step = ['.', '.'] then disk.follow above.dropLast steps
    else if maxNameSize < (Utf8.encode step).length then .error .nameTooLong
    else
      let names := above ++ [step]
      match disk.bytes? names with
      | some bytes => if steps.isEmpty then .ok (.file names bytes) else .error .notADirectory
      | none =>
        if disk.isFolder names then disk.follow names steps
        else if steps.isEmpty then .ok (.vacant names)
        else .error .notFound

/-- The names on the way to the folder that a path starts in. -/
def start (disk : Disk) (path : List Char) : List FileName :=
  if path.head? = some '/' then [] else disk.here

/-- Where a path leads. -/
def locate (disk : Disk) (path : List Char) : Except Fault Place :=
  if path.contains '\x00' then .error .nulInPath
  else if path = [] then .error .notFound
  else if maxPathSize < (Utf8.encode path).length then .error .nameTooLong
  else disk.follow (disk.start path) (Text.pieces '/' path)

/-- Whether a path leads to a file or to a folder. -/
def isThere (disk : Disk) (path : List Char) : Bool :=
  match disk.locate path with
  | .ok (.file _ _) | .ok .folder => true
  | .ok (.vacant _) | .error _ => false

/-- Open the file at a path. A folder can be opened as well, but not read. -/
def openFile (disk : Disk) (path : List Char) : Except Fault Feed :=
  match disk.locate path with
  | .ok (.file _ bytes) => .ok (.ofBytes bytes)
  | .ok .folder => .ok (.ofChunks [.failure .isADirectory])
  | .ok (.vacant _) => .error .notFound
  | .error fault => .error fault

/-- The disk with a file added, or with the bytes of a file replaced. -/
def put (disk : Disk) (names : List FileName) (bytes : List UInt8) : Disk :=
  { disk with files := (names, bytes) :: disk.files.filter (·.1 ≠ names) }

/-- Write a file at a path. Nobody writes a file at a path that ends with a slash. -/
def write (disk : Disk) (path : List Char) (bytes : List UInt8) : Except Fault Disk :=
  let bare := (path.reverse.dropWhile (· = '/')).reverse
  match disk.locate (if bare.isEmpty then path else bare) with
  | .ok .folder => .error .isADirectory
  | .ok (.file names _) | .ok (.vacant names) =>
    if bare = path then .ok (disk.put names bytes) else .error .isADirectory
  | .error fault => .error fault

/-- The files of a disk, all of which may be read and written. -/
def fileSystem : FileSystem Disk :=
  ⟨isThere, openFile, write⟩

/-- The disk with given files in a working folder, each at a path that needs no more than the names
in it. -/
def ofFiles (here : List FileName) (files : List (List Char × List UInt8)) : Disk :=
  files.foldl (fun disk (path, bytes) =>
    disk.put (here ++ (Text.pieces '/' path).filter (!isIdle ·)) bytes) ⟨here, [], []⟩

/-- The files that are not the same on an earlier disk. -/
def changes (earlier disk : Disk) : List (List FileName × List UInt8) :=
  disk.files.filter fun (names, bytes) => earlier.bytes? names ≠ some bytes

@[simp] theorem bytes?_put_self (disk : Disk) (names : List FileName) (bytes : List UInt8) :
    (disk.put names bytes).bytes? names = some bytes := by
  simp [bytes?, put]

/-- Writing a file leaves the other files alone. -/
theorem bytes?_put_of_ne (disk : Disk) {names other : List FileName} (h : other ≠ names)
    (bytes : List UInt8) : (disk.put names bytes).bytes? other = disk.bytes? other := by
  have hb : (other == names) = false := by simpa using h
  have hput : (disk.put names bytes).bytes? other =
      (disk.files.filter (·.1 ≠ names)).lookup other := by
    simp [bytes?, put, List.lookup_cons, hb]
  rw [hput, bytes?]
  induction disk.files with
  | nil => rfl
  | cons file files ih =>
    obtain ⟨name, content⟩ := file
    by_cases hf : name = names
    · subst hf
      simpa [List.lookup_cons, hb] using ih
    · rw [List.filter_cons_of_pos (by simpa using hf)]
      simp only [List.lookup_cons, ih]

end Disk

end SqlTokens
