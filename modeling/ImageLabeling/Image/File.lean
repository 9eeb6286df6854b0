import ImageLabeling.Failure
import ImageLabeling.File.System

/-!
# Images in picture files

Reading a picture file as an RGB image. The format is the one that the extension of the path stands
for, whatever the file holds; a file of another format, a file without a picture and a path that
leads to no file are all refused in the same way.
-/

namespace ImageLabeling

/-- The image of a picture file. -/
def FileSystem.loadImage (fs : FileSystem) (path : FilePath) : Except Failure Raster :=
  match Picture.formatOf? path, fs.content? path with
  | some format, some (.picture picture) =>
    if picture.format = format then .ok picture.toRaster else .error (.undecodable path)
  | _, _ => .error (.undecodable path)

end ImageLabeling
