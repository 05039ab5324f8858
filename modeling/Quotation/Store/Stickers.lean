import Quotation.Content.Sticker
import Quotation.Store.Layout

/-!
# The table of stickers

An installed sticker is known by its pack and its number; the key of the pack does not count.

* `Database.installSticker`: the last one installed stays;
* `Database.sticker?`.
-/

namespace Quotation.Store

/-- The columns of an installed sticker. -/
def stickerColumns : List String :=
  ["pack_id", "pack_key", "sticker_id", "content_type", "emoji", "local_path"]

/-- The number of a sticker as a value. -/
def numberCell (n : UInt32) : Cell :=
  .integer (Int64.ofNat n.toNat)

/-- An installed sticker as the values of a row. -/
def stickerCells (s : InstalledSticker) : List Cell :=
  [.text s.info.packIdHex, .text s.info.packKeyHex, numberCell s.info.number,
    .text s.contentType, .ofText? s.emoji, .text s.localPath]

/-- The installed sticker that a row holds. -/
def stickerOfRow (r : Fetched) : Except ColumnError InstalledSticker := do
  let packId ← r.text 0
  let packKey ← r.text 1
  let number ← r.word32 2
  let contentType ← r.text 3
  let emoji ← r.text? 4
  let localPath ← r.text 5
  let info ← readable 0 .reference (StickerRef.ofHex packId packKey number)
  return ⟨info, contentType, emoji, localPath⟩

namespace Database

/-- Adds a sticker, in the place of the one that has its number in its pack. -/
def installSticker (db : Database) (s : InstalledSticker) : Except StoreError Database :=
  (db.replace "stickers" (stickerColumns.zip (stickerCells s))).mapError .statement

/-- The installed sticker of a pack and a number. -/
def sticker? (db : Database) (info : StickerRef) :
    Except StoreError (Option InstalledSticker) := do
  match ← (db.select "stickers" stickerColumns [.equals "pack_id" (.text info.packIdHex),
    .equals "sticker_id" (numberCell info.number)]).mapError .statement with
  | [] => return none
  | r :: _ => return some (← (stickerOfRow ⟨stickerColumns, r⟩).mapError .column)

end Database

end Quotation.Store
