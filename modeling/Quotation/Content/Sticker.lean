import Quotation.Identity

/-!
# Stickers

A sticker belongs to a pack, which has an identifier and a key.

* `StickerRef`: which sticker of which pack, with `StickerRef.ofHex` from hexadecimal texts;
* `Sticker`: a sticker sent in a message;
* `InstalledSticker`: a sticker held on this device.
-/

namespace Quotation

/-- A sticker by its pack and its number there. -/
structure StickerRef where
  packId : Vector UInt8 16
  packKey : Vector UInt8 32
  number : UInt32
  deriving DecidableEq, Repr

/-- A sticker in a message: its picture is an attachment. -/
structure Sticker where
  info : StickerRef
  attachment : AttachmentId
  emoji : Option String
  deriving DecidableEq, Repr

/-- A sticker of a pack that is installed on this device. -/
structure InstalledSticker where
  info : StickerRef
  contentType : String
  emoji : Option String
  localPath : String
  deriving DecidableEq, Repr

namespace StickerRef

/-- The pack identifier in hexadecimal digits. -/
def packIdHex (s : StickerRef) : String := Text.Hex.encode s.packId.toList

/-- The pack key in hexadecimal digits. -/
def packKeyHex (s : StickerRef) : String := Text.Hex.encode s.packKey.toList

/-- The written form: pack identifier and number. -/
def text (s : StickerRef) : String := s.packIdHex ++ ":" ++ toString s.number.toNat

/-- The sticker of a number in the pack that two hexadecimal texts name. Both texts have to be
hexadecimal before their lengths count. -/
def ofHex (packId packKey : String) (number : UInt32) : Except ReferenceError StickerRef := do
  let id ← (Text.Hex.decode packId).mapError .hex
  let key ← (Text.Hex.decode packKey).mapError .hex
  if hi : id.toArray.size = 16 then
    if hk : key.toArray.size = 32 then return ⟨⟨id.toArray, hi⟩, ⟨key.toArray, hk⟩, number⟩
    else throw .packKeyLength
  else throw .packIdLength

/-- The binary form. -/
def binary : Binary.Codec StickerRef :=
  ((Binary.Codec.octets 16).pair ((Binary.Codec.octets 32).pair .word32)).imap
    (fun (id, key, number) => ⟨id, key, number⟩) fun s => (s.packId, s.packKey, s.number)

/-- The JSON form. -/
def json : Json.Codec StickerRef :=
  .record <| ((Json.Fields.required "pack_id" (.octets 16)).append
      ((Json.Fields.required "pack_key" (.octets 32)).append
        (.required "sticker_id" .word32))).imap
    (fun (id, key, number) => ⟨id, key, number⟩) fun s => (s.packId, s.packKey, s.number)

end StickerRef

namespace Sticker

/-- The binary form. -/
def binary : Binary.Codec Sticker :=
  (StickerRef.binary.pair (AttachmentId.binary.pair Binary.Codec.text.option)).imap
    (fun (info, attachment, emoji) => ⟨info, attachment, emoji⟩)
    fun s => (s.info, s.attachment, s.emoji)

/-- The JSON form. -/
def json : Json.Codec Sticker :=
  .record <| ((Json.Fields.required "info" StickerRef.json).append
      ((Json.Fields.required "attachment_id" AttachmentId.json).append
        (.optional "emoji" .text))).imap
    (fun (info, attachment, emoji) => ⟨info, attachment, emoji⟩)
    fun s => (s.info, s.attachment, s.emoji)

end Sticker

namespace InstalledSticker

/-- What a sticker is taken for when nothing else is known of it. -/
def defaultContentType : String := "image/webp"

/-- The JSON form. -/
def json : Json.Codec InstalledSticker :=
  .record <| ((Json.Fields.required "info" StickerRef.json).append
      ((Json.Fields.required "content_type" .text).append
        ((Json.Fields.optional "emoji" .text).append (.required "local_path" .text)))).imap
    (fun (info, contentType, emoji, localPath) => ⟨info, contentType, emoji, localPath⟩)
    fun s => (s.info, s.contentType, s.emoji, s.localPath)

end InstalledSticker

end Quotation
