import Quotation.Image.Picture
import Quotation.Quote.Snapshot

/-!
# Thumbnails

* `AttachmentStream.thumbnail?`: the thumbnail of an attachment;
* `Quote`: a snapshot with its thumbnail, which is made when it is first asked for and then stays as
  it is, whatever happens to the file;
* `Quote.sameAs`: two quotes are the same if their snapshots are.
-/

namespace Quotation

/-- The thumbnail of an attachment whose longest edge is given. There is none unless the content
type is that of an image and the file holds one. -/
def AttachmentStream.thumbnail? {Image : Type} [Picture Image] (s : AttachmentStream) (fs : Files)
    (edge : UInt32) : Option Image :=
  if s.contentType.startsWith "image/" then
    (fs.picture? s.localPath).map (Picture.thumbnail · edge.toNat)
  else none

/-- A snapshot with its thumbnail: none yet, or the one that was made, if one could be made. -/
structure Quote (Image : Type := Size) where
  snapshot : Snapshot
  thumbnailMax : UInt32
  drawn : Option (Option Image) := none
  deriving Repr

namespace Quote

variable {Image : Type}

/-- The thumbnail of the file as it is now. -/
def draw [Picture Image] (q : Quote Image) (fs : Files) : Option Image :=
  q.snapshot.stream?.bind fun s => s.thumbnail? fs q.thumbnailMax

/-- The thumbnail, and the quote that keeps it. -/
def thumbnail [Picture Image] (q : Quote Image) (fs : Files) : Option Image × Quote Image :=
  match q.drawn with
  | some picture => (picture, q)
  | none =>
    let picture := q.draw fs
    (picture, { q with drawn := some picture })

/-- Whether two quotes show the same. Thumbnails do not count. -/
def sameAs (q r : Quote Image) : Bool :=
  q.snapshot == r.snapshot

/-- A thumbnail that was asked for is kept. -/
theorem drawn_thumbnail [Picture Image] (q : Quote Image) (fs : Files) :
    (q.thumbnail fs).2.drawn = some (q.thumbnail fs).1 := by
  cases h : q.drawn <;> simp [thumbnail, h]

/-- Nothing else is different. -/
theorem snapshot_thumbnail [Picture Image] (q : Quote Image) (fs : Files) :
    (q.thumbnail fs).2.snapshot = q.snapshot := by
  cases h : q.drawn <;> simp [thumbnail, h]

theorem thumbnail_of_drawn [Picture Image] {q : Quote Image} {picture : Option Image}
    (h : q.drawn = some picture) (fs : Files) : q.thumbnail fs = (picture, q) := by
  rw [thumbnail, h]

end Quote

end Quotation
