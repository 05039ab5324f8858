import Quotation.Files.Path
import Quotation.Image.Jpeg
import Quotation.Image.Png
import Quotation.Image.Webp

/-!
# Image files

The format of an image file is known by the extension of its name, and only by that.

* `ImageFormat`, `ImageFormat.ofPath?`;
* `ImageFormat.sizeAt?`: the size of the image in a file.
-/

namespace Quotation

/-- The formats of images that can be decoded. -/
inductive ImageFormat
  | png
  | jpeg
  | webp
  deriving DecidableEq, Repr

namespace ImageFormat

/-- The format that an extension in lower case stands for. -/
def ofExtension? (extension : String) : Option ImageFormat :=
  if ["png", "apng"].contains extension then some png
  else if ["jpg", "jpeg", "jfif"].contains extension then some jpeg
  else if extension = "webp" then some webp
  else none

/-- The format of the file at a path. -/
def ofPath? (path : String) : Option ImageFormat :=
  (Path.extension? path).bind fun e => ofExtension? (e.map Char.toLower)

/-- The size of the image in a file of a format. -/
def size? (f : ImageFormat) (file : ByteArray) : Option Size :=
  match f with
  | png => Png.size? file
  | jpeg => Jpeg.size? file
  | webp => Webp.size? file

/-- The size of the image that the bytes of a file at a path are. -/
def sizeAt? (path : String) (bytes : List UInt8) : Option Size :=
  (ofPath? path).bind fun f => f.size? ⟨bytes.toArray⟩

end ImageFormat

end Quotation
