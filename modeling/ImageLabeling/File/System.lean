import ImageLabeling.Image.Picture
import ImageLabeling.Table

/-!
# The file system

Entries by location, where a location is the list of names from the root down. Paths are walked
name by name (`walk`): every step needs a directory to stand in (`descend`), symbolic links are
followed up to a limit, and two dots go back up. Files are read (`content?`), replaced (`write`)
or written over from their beginning (`FileContent.overwrite`), and directories are made one at a
time (`makeDirectory`) or with those above them (`makeTree`).
-/

namespace ImageLabeling

/-- The place of an entry: the names from the root down. -/
abbrev Location := List FileName

/-- What a file holds. -/
inductive FileContent
  | bytes (bytes : List UInt8)
  | picture (picture : Picture)
  /-- What is left of a picture file after its first bytes were overwritten by `start`: neither a
  picture nor a text. -/
  | spoiled (start : List UInt8) (picture : Picture)
  deriving DecidableEq, Repr

namespace FileContent

/-- Writes bytes over the beginning of a picture file; enough of them replace it as a whole. -/
def overPicture (start : List UInt8) (stored : Picture) : FileContent :=
  if start = [] then .picture stored
  else if stored.storedSize ≤ start.length then .bytes start
  else .spoiled start stored

/-- Writes bytes over the beginning of a file. What they do not reach stays. -/
def overwrite (content : FileContent) (start : List UInt8) : FileContent :=
  match content with
  | bytes old => .bytes (start ++ old.drop start.length)
  | picture stored => overPicture start stored
  | spoiled old stored => overPicture (start ++ old.drop start.length) stored

/-- An empty file holds what is written over its beginning. -/
theorem overwrite_empty (start : List UInt8) : (bytes []).overwrite start = .bytes start := by
  simp [overwrite]

end FileContent

/-- What stands at a location. -/
inductive FileEntry
  | directory
  | file (content : FileContent)
  | link (target : FilePath)
  deriving DecidableEq, Repr

/-- Why a path leads nowhere. -/
inductive PathFault
  | missing
  | notDirectory
  | isDirectory
  | exists
  | nameTooLong
  | tooManyLinks
  deriving DecidableEq, Repr

/-- A file system: its entries below the root, and the directory that relative paths start in. -/
structure FileSystem where
  entries : Table Location FileEntry
  working : Location
  deriving DecidableEq, Repr

namespace FileSystem

/-- The entry at a location; the root is always a directory. -/
def lookup? (fs : FileSystem) (location : Location) : Option FileEntry :=
  if location = [] then some .directory else fs.entries.get? location

/-- Puts an entry at a location, in place of the one there or after all others. -/
def put (fs : FileSystem) (location : Location) (entry : FileEntry) : FileSystem :=
  { fs with entries := fs.entries.put location entry }

/-- An entry put below the root is found, and every other entry stays as it was. -/
theorem lookup?_put (fs : FileSystem) {location : Location} (other : Location) (entry : FileEntry)
    (h : location ≠ []) :
    (fs.put location entry).lookup? other =
      if other = location then some entry else fs.lookup? other := by
  unfold lookup? put
  rw [Table.get?_put]
  by_cases hroot : other = []
  · subst hroot
    simp [Ne.symm h]
  · simp [hroot]

/-- The longest name a directory can hold. -/
def maxNameLength : Nat := 255

/-- The number of bytes from which on a path is too long. -/
def maxPathLength : Nat := 4096

/-- The number of symbolic links that one walk follows. -/
def maxLinks : Nat := 40

/-- Walks pieces from a location, and goes on with `jump` where a link is followed; a link at the
very end is followed if `follow` holds. The location at the end need not have an entry. -/
def descend (fs : FileSystem) (follow : Bool)
    (jump : Location → List (List UInt8) → Except PathFault Location) :
    Location → List (List UInt8) → Except PathFault Location
  | location, [] => .ok location
  | location, piece :: rest =>
    match fs.lookup? location with
    | none => .error .missing
    | some .directory =>
      if FilePath.isBlankPiece piece then fs.descend follow jump location rest
      else if piece = [FilePath.dot, FilePath.dot] then
        fs.descend follow jump location.dropLast rest
      else if maxNameLength < piece.length then .error .nameTooLong
      else
        match fs.lookup? (location ++ [piece]) with
        | some (.link target) =>
          if rest = [] ∧ follow = false then .ok (location ++ [piece])
          else if target.bytes = [] then .error .missing
          else
            jump (if target.isAbsolute then [] else location)
              (FilePath.splitSlash target.bytes ++ rest)
        | _ => fs.descend follow jump (location ++ [piece]) rest
    | some _ => .error .notDirectory

/-- Walks pieces from a location, following at most so many links. -/
def walk (fs : FileSystem) (follow : Bool) :
    Nat → Location → List (List UInt8) → Except PathFault Location
  | 0 => fs.descend follow fun _ _ => .error .tooManyLinks
  | links + 1 => fs.descend follow (fs.walk follow links)

/-- The location that a path leads to. -/
def resolve (fs : FileSystem) (follow : Bool) (path : FilePath) : Except PathFault Location :=
  if path.bytes = [] then .error .missing
  else if maxPathLength ≤ path.bytes.length then .error .nameTooLong
  else if 0 ∈ path.bytes then .error .missing
  else
    fs.walk follow maxLinks (if path.isAbsolute then [] else fs.working)
      (FilePath.splitSlash path.bytes)

/-- The entry that a path leads to, links followed. -/
def find? (fs : FileSystem) (path : FilePath) : Option FileEntry :=
  match fs.resolve true path with
  | .ok location => fs.lookup? location
  | .error _ => none

/-- Whether a path leads to a file. -/
def isFile (fs : FileSystem) (path : FilePath) : Bool :=
  match fs.find? path with
  | some (.file _) => true
  | _ => false

/-- Whether a path leads to a directory. -/
def isDirectory (fs : FileSystem) (path : FilePath) : Bool :=
  fs.find? path == some .directory

/-- The content of the file that a path leads to. -/
def content? (fs : FileSystem) (path : FilePath) : Option FileContent :=
  match fs.find? path with
  | some (.file content) => some content
  | _ => none

/-- The names in the directory at a location with their entries, links not followed. -/
def children (fs : FileSystem) (location : Location) : List (FileName × FileEntry) :=
  fs.entries.rows.filterMap fun (place, entry) =>
    match place.getLast? with
    | some name => if place.dropLast = location then some (name, entry) else none
    | none => none

/-- Where writing to a path puts the file. -/
def writeLocation (fs : FileSystem) (path : FilePath) : Except PathFault Location := do
  let location ← fs.resolve true path
  if fs.lookup? location = some .directory then .error .isDirectory else .ok location

/-- Writes a file, replacing the content of one that is there. -/
def write (fs : FileSystem) (path : FilePath) (content : FileContent) :
    Except PathFault FileSystem := do
  let location ← fs.writeLocation path
  .ok (fs.put location (.file content))

/-- Makes one directory. Slashes at the end of the path do not count. -/
def makeDirectory (fs : FileSystem) (path : FilePath) : Except PathFault FileSystem := do
  let bare : FilePath := ⟨(path.bytes.reverse.dropWhile (· == FilePath.slash)).reverse⟩
  let location ← fs.resolve false (if bare.bytes = [] then path else bare)
  if (fs.lookup? location).isSome then .error .exists else .ok (fs.put location .directory)

/-- Makes the first of `paths`, each the parent of the one before it, making those above it
first where they are missing. Directories made before a failure stay. -/
def makeAll (fs : FileSystem) : List FilePath → FileSystem × Except PathFault Unit
  | [] => (fs, .error .missing)
  | path :: above =>
    if path.bytes = [] then (fs, .ok ())
    else
      match fs.makeDirectory path with
      | .ok fs => (fs, .ok ())
      | .error .missing =>
        match fs.makeAll above with
        | (fs, .error fault) => (fs, .error fault)
        | (fs, .ok ()) =>
          match fs.makeDirectory path with
          | .ok fs => (fs, .ok ())
          | .error fault => (fs, if fs.isDirectory path then .ok () else .error fault)
      | .error fault => (fs, if fs.isDirectory path then .ok () else .error fault)

/-- Makes a directory with all directories above it; one that is there is fine. -/
def makeTree (fs : FileSystem) (path : FilePath) : FileSystem × Except PathFault Unit :=
  fs.makeAll path.ancestors

end FileSystem

end ImageLabeling
