import Quotation.Message
import Quotation.Proofs.Json.Faithful

/-!
# The records that are kept as JSON

The codecs of the values that stand as JSON texts in the columns of a message are faithful: ranges,
sticker, contact card, quote, and the list of attachments.
-/

namespace Quotation

open Json

theorem AttachmentId.faithful : json.Faithful :=
  Codec.faithful_uuid.imap fun _ => rfl

theorem Address.faithful : json.Faithful :=
  (((Fields.faithful_required "uuid" Codec.faithful_uuid).append
    (Fields.faithful_optional "e164" Codec.faithful_text)).imap fun _ => rfl).record (by decide)

theorem TextStyle.faithful : json.Faithful := by
  refine Case.faithful_choice ?_ (by decide) ?_
  · simp only [List.forall_mem_cons]
    refine ⟨Case.faithful_holding _ Codec.faithful_uuid ?_, Case.faithful_plain _ _,
      Case.faithful_plain _ _, Case.faithful_plain _ _, Case.faithful_plain _ _,
      Case.faithful_plain _ _, by simp⟩
    intro u s h
    cases s <;> cases h
    rfl
  · intro s
    cases s <;> simp [Case.holding, Case.plain, account?]

theorem TextRange.faithful : json.Faithful :=
  (((Fields.faithful_required "start" Codec.faithful_word32).append
    ((Fields.faithful_required "length" Codec.faithful_word32).append
      (Fields.faithful_required "style" TextStyle.faithful))).imap fun _ => rfl).record (by decide)

theorem TextRanges.faithful : json.Faithful :=
  ((Fields.faithful_required "ranges" TextRange.faithful.list).imap fun _ => rfl).record (by decide)

theorem StickerRef.faithful : json.Faithful :=
  (((Fields.faithful_required "pack_id" (Codec.faithful_octets 16)).append
    ((Fields.faithful_required "pack_key" (Codec.faithful_octets 32)).append
      (Fields.faithful_required "sticker_id" Codec.faithful_word32))).imap fun _ => rfl).record
    (by decide)

theorem Sticker.faithful : json.Faithful :=
  (((Fields.faithful_required "info" StickerRef.faithful).append
    ((Fields.faithful_required "attachment_id" AttachmentId.faithful).append
      (Fields.faithful_optional "emoji" Codec.faithful_text))).imap fun _ => rfl).record (by decide)

theorem ContactCard.faithful : json.Faithful :=
  (((Fields.faithful_required "display_name" Codec.faithful_text).append
    ((Fields.faithful_required "phone_numbers" Codec.faithful_text.list).append
      (Fields.faithful_optional "avatar_attachment_id" AttachmentId.faithful))).imap
    fun _ => rfl).record (by decide)

theorem QuoteRecord.faithful : json.Faithful :=
  (((Fields.faithful_required "timestamp" Codec.faithful_word64).append
    ((Fields.faithful_required "author" Address.faithful).append
      ((Fields.faithful_optional "body" Codec.faithful_text).append
        ((Fields.faithful_optional "body_ranges" TextRanges.faithful).append
          ((Fields.faithful_optional "content_type" Codec.faithful_text).append
            ((Fields.faithful_optional "source_filename" Codec.faithful_text).append
              (Fields.faithful_optional "thumbnail_attachment_id"
                AttachmentId.faithful))))))).imap fun _ => rfl).record (by decide)

end Quotation
