import ImageLabeling.Event
import ImageLabeling.Failure
import ImageLabeling.File.System
import ImageLabeling.Text.Blank
import ImageLabeling.Text.Lines

/-!
# Image sources

The images of a run are a single file, the lines of a list file, or the picture files of a
directory. `Source.images` resolves a source to the paths to process: lines in their order, files
of a directory in the order of their names.
-/

namespace ImageLabeling

/-- Where the images of a run come from. -/
inductive Source
  | single (path : FilePath)
  /-- One image on each line, relative to `root`. -/
  | list (path root : FilePath)
  | directory (path : FilePath) (limit : Option Nat)
  deriving DecidableEq, Repr

namespace Source

/-- The source that flags ask for. A single image wins over a list, and the entries of a list are
relative to its directory unless a root is given. -/
def ofFlags (image list root : Option FilePath) : Except Failure Source :=
  match image, list with
  | some path, _ => .ok (.single path)
  | none, some path => .ok (.list path ((root <|> path.parent?).getD ⟨[]⟩))
  | none, none =>
    .error (.invalidSource "either an image path or an image list is required")

/-! ## Lists -/

/-- The path of a list entry. -/
def entryPath (root : FilePath) (entry : List Char) : FilePath :=
  (root.join (.ofString (String.ofList entry))).withDefaultExtension "jpg"

/-- The paths of a list text: a path for each line that is not blank. -/
def listPaths (root : FilePath) (text : List Char) : List FilePath :=
  (((Text.lines text).map Text.trimChars).filter (· ≠ [])).map (entryPath root)

/-! ## Directories -/

/-- The endings of picture file names, as they are written. -/
def pictureEndings : List String := [".JPEG", ".jpg", ".png"]

/-- Whether a name is that of a picture file. -/
def isPictureName (name : String) : Bool :=
  pictureEndings.any fun ending => ending.toList.isSuffixOf name.toList

/-- The names of the regular files of a listing. -/
def fileNames (listing : List (FileName × FileEntry)) : List FileName :=
  listing.filterMap fun
    | (name, .file _) => some name
    | _ => none

/-- Whether a file name is text that names a picture. -/
def isPicture (name : FileName) : Bool :=
  (Utf8.text? name).any isPictureName

/-- Whether a byte sequence is at most another, byte by byte. -/
def bytesLe : List UInt8 → List UInt8 → Bool
  | [], _ => true
  | _ :: _, [] => false
  | a :: as, b :: bs => a < b || (a == b && bytesLe as bs)

/-- The picture names of a listing, sorted, and no more than the limit. -/
def pictureNames (listing : List (FileName × FileEntry)) (limit : Option Nat) : List FileName :=
  let sorted := ((fileNames listing).filter isPicture).mergeSort bytesLe
  match limit with
  | none => sorted
  | some n => sorted.take n

/-- The warnings about file names that are no text. -/
def nameWarnings (path : FilePath) (listing : List (FileName × FileEntry)) : List Event :=
  ((fileNames listing).filter fun name => (Utf8.text? name).isNone).map fun name =>
    ⟨.warn, "Skipping non UTF-8 file name", [("path", (path.join ⟨name⟩).display)]⟩

/-! ## Resolving a source -/

/-- The images of a source, with the events reported on the way. -/
def images (fs : FileSystem) : Source → List Event × Except Failure (List FilePath)
  | .single path =>
    ([], if fs.isFile path then .ok [path]
      else .error (.invalidSource s!"image {path} does not exist"))
  | .list path root =>
    ([], match fs.content? path with
      | none => .error (.invalidSource s!"list file {path} does not exist")
      | some (.bytes bytes) =>
        match Utf8.text? bytes with
        | none => .error (.unreadableList path)
        | some text => .ok (listPaths root text.toList)
      | some _ => .error (.unreadableList path))
  | .directory path limit =>
    match fs.resolve true path with
    | .error _ => ([], .error (.invalidSource s!"image directory {path} does not exist"))
    | .ok location =>
      if fs.lookup? location = some .directory then
        let listing := fs.children location
        (nameWarnings path listing,
          .ok ((pictureNames listing limit).map fun name => path.join ⟨name⟩))
      else ([], .error (.invalidSource s!"image directory {path} does not exist"))

/-- The name of an image without directories and extension, which names its results. -/
def stem (path : FilePath) : String :=
  (path.fileStem?.map Utf8.lossy).getD "output"

end Source

end ImageLabeling
