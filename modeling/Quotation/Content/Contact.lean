import Quotation.Identity

/-!
# Contact cards

The card of a person that is shared in a message.
-/

namespace Quotation

/-- A shared contact. -/
structure ContactCard where
  displayName : String
  phoneNumbers : List String
  avatar : Option AttachmentId
  deriving DecidableEq, Repr

namespace ContactCard

/-- The binary form. -/
def binary : Binary.Codec ContactCard :=
  (Binary.Codec.text.pair (Binary.Codec.text.list.pair AttachmentId.binary.option)).imap
    (fun (name, numbers, avatar) => ⟨name, numbers, avatar⟩)
    fun c => (c.displayName, c.phoneNumbers, c.avatar)

/-- The JSON form. -/
def json : Json.Codec ContactCard :=
  .record <| ((Json.Fields.required "display_name" .text).append
      ((Json.Fields.required "phone_numbers" (.list .text)).append
        (.optional "avatar_attachment_id" AttachmentId.json))).imap
    (fun (name, numbers, avatar) => ⟨name, numbers, avatar⟩)
    fun c => (c.displayName, c.phoneNumbers, c.avatar)

end ContactCard

end Quotation
