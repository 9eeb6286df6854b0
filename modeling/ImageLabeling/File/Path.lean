import ImageLabeling.Text.Utf8

/-!
# File paths

A path is a sequence of bytes in which slashes separate pieces. Empty pieces and single dots name
nothing, except for a slash or a dot at the very start, the *anchor*. The other pieces are two
dots, for the parent, or an ordinary name. Operations keep the bytes of a path as they are:
joining and taking the parent never normalise what remains.
-/

namespace ImageLabeling

/-- The bytes of a file name. -/
abbrev FileName := List UInt8

/-- A path as the bytes it was written with. -/
structure FilePath where
  bytes : List UInt8
  deriving DecidableEq, Repr, Inhabited

/-- What a path means step by step. -/
inductive PathComponent
  | root
  | here
  | up
  | name (name : FileName)
  deriving DecidableEq, Repr

namespace FilePath

/-- The separator of pieces. -/
def slash : UInt8 := 0x2f

/-- The dot of relative pieces and of extensions. -/
def dot : UInt8 := 0x2e

/-- The path written by a text. -/
def ofString (text : String) : FilePath :=
  ⟨Utf8.encode text⟩

/-- The path as a text, with the replacement character for bytes that are no text. -/
def display (p : FilePath) : String :=
  Utf8.lossy p.bytes

instance : ToString FilePath := ⟨display⟩

/-- Whether the path starts at the root. -/
def isAbsolute (p : FilePath) : Bool :=
  p.bytes.head? == some slash

/-- Splits bytes at every slash. -/
def splitSlash (bytes : List UInt8) : List (List UInt8) :=
  bytes.splitOn slash

/-- Writes pieces with slashes between them. -/
def joinSlash (pieces : List (List UInt8)) : List UInt8 :=
  List.intercalate [slash] pieces

/-- Whether a piece names nothing. -/
def isBlankPiece (piece : List UInt8) : Bool :=
  piece == [] || piece == [dot]

/-- Drops the pieces at the end that name nothing. -/
def dropBlankEnd (pieces : List (List UInt8)) : List (List UInt8) :=
  (pieces.reverse.dropWhile isBlankPiece).reverse

/-- The anchor of a path, a leading slash or a leading dot piece, and the bytes after it. -/
def splitAnchor (p : FilePath) : List UInt8 × List UInt8 :=
  if p.isAbsolute then ([slash], p.bytes.drop 1)
  else if (splitSlash p.bytes).head? == some [dot] then ([dot], p.bytes.drop 1)
  else ([], p.bytes)

/-- The pieces after the anchor, up to the last one that names something. -/
def pieces (p : FilePath) : List (List UInt8) :=
  dropBlankEnd (splitSlash p.splitAnchor.2)

/-- The meaning of a piece that names something. -/
def component (piece : List UInt8) : PathComponent :=
  if piece = [dot, dot] then .up else .name piece

/-- What the path means, step by step. -/
def components (p : FilePath) : List PathComponent :=
  let anchor :=
    if p.splitAnchor.1 = [slash] then [.root]
    else if p.splitAnchor.1 = [dot] then [.here]
    else []
  anchor ++ (p.pieces.filter fun piece => !isBlankPiece piece).map component

/-- The path of an anchor and pieces. -/
def ofPieces (anchor : List UInt8) (pieces : List (List UInt8)) : FilePath :=
  ⟨anchor ++ joinSlash pieces⟩

/-- The ordinary name that the path ends with. -/
def fileName? (p : FilePath) : Option FileName :=
  match p.pieces.getLast? with
  | none => none
  | some piece => if piece = [dot, dot] then none else some piece

/-- The path without its last component; the root and the empty path have none. -/
def parent? (p : FilePath) : Option FilePath :=
  let anchor := p.splitAnchor.1
  if p.pieces ≠ [] then some (ofPieces anchor (dropBlankEnd p.pieces.dropLast))
  else if anchor = [dot] then some ⟨[]⟩
  else none

/-- Splits a name at its last dot into stem and extension. A name without a dot, or with its only
dot in front, has no extension. -/
def splitName (name : FileName) : FileName × Option FileName :=
  let tail := name.reverse.takeWhile (· ≠ dot)
  let stem := (name.reverse.drop (tail.length + 1)).reverse
  if stem = [] then (name, none) else (stem, some tail.reverse)

/-- The name at the end of the path without its extension. -/
def fileStem? (p : FilePath) : Option FileName :=
  p.fileName?.map fun name => (splitName name).1

/-- The extension of the name at the end of the path. -/
def extension? (p : FilePath) : Option FileName :=
  p.fileName?.bind fun name => (splitName name).2

/-- The path without the slashes and dots after its last name. -/
def trimmed (p : FilePath) : FilePath :=
  ofPieces p.splitAnchor.1 p.pieces

/-- Gives a name without an extension the extension `extension`; what follows the name goes. A
path that ends with an extension or without an ordinary name stays. -/
def withDefaultExtension (p : FilePath) (extension : String) : FilePath :=
  match p.fileName?, p.extension? with
  | some _, none => ⟨p.trimmed.bytes ++ dot :: Utf8.encode extension⟩
  | _, _ => p

/-- `q` as seen from the directory `p`; an absolute `q` stands alone. -/
def join (p q : FilePath) : FilePath :=
  if q.isAbsolute then q
  else if p.bytes = [] ∨ p.bytes.getLast? = some slash then ⟨p.bytes ++ q.bytes⟩
  else ⟨p.bytes ++ slash :: q.bytes⟩

/-- The path of a named entry in the directory `p`. -/
def child (p : FilePath) (name : String) : FilePath :=
  p.join (ofString name)

/-- The path and the directories above it, nearest first. -/
def ancestors (p : FilePath) : List FilePath :=
  go (p.components.length + 1) p
where
  /-- At most `n` paths upwards from `p`. -/
  go : Nat → FilePath → List FilePath
    | 0, _ => []
    | n + 1, p => p :: (p.parent?.map (go n)).getD []

end FilePath

end ImageLabeling
