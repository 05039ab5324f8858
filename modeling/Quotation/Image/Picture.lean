import Quotation.Files.Basic
import Quotation.Image.Format

/-!
# Pictures

What is made of the image in a file. How it is decoded and made smaller is left open but for its
size.

* `Picture`, and its instance for `Size`: pictures of which only the size is kept;
* `Picture.thumbnail`: the picture that fits into a square;
* `Files.picture?`: the picture in the file at a path.
-/

namespace Quotation

/-- Pictures of some kind: what the bytes of a file at a path are decoded as, and what is left of a
picture when its edges are made to fit. -/
class Picture (Image : Type) where
  decode? : String → List UInt8 → Option Image
  size : Image → Size
  scaleTo : Image → Nat → Image

instance : Picture Size where
  decode? := ImageFormat.sizeAt?
  size := id
  scaleTo := Size.scaleTo

variable {Image : Type} [Picture Image]

/-- The thumbnail of a picture: one that fits stays as it is. -/
def Picture.thumbnail (i : Image) (edge : Nat) : Image :=
  if (size i).fits edge then i else scaleTo i edge

/-- The picture in the file at a path. -/
def Files.picture? (fs : Files) (path : String) : Option Image :=
  match fs.readBytes path with
  | .ok bytes => Picture.decode? path bytes
  | .error _ => none

end Quotation
