import Quotation.Proofs.Binary.Truncated
import Quotation.Proofs.Except
import Quotation.Proofs.Wire.Canonical
import Quotation.Store.Outbox

/-!
# Frames that are cut off

Frames and outgoing messages are read by steady codecs. Wherever a written form is cut off, be it
inside of a length, a character, the number of a case or an identifier, reading what is left says
that the bytes have ended.

* `steady`, for each kind of record;
* `Store.outgoingOfRow_of_cut`: the row of an outgoing message whose binary form is cut off;
* `ofBytes_of_cut_off`.
-/

namespace Quotation

open Binary

theorem AttachmentId.steady : binary.Steady :=
  Codec.steady_uuid.imap _ _

theorem ThreadId.steady : binary.Steady :=
  Codec.steady_uuid.imap _ _

theorem Address.steady : binary.Steady :=
  (Codec.steady_uuid.pair Codec.steady_text.option).imap _ _

theorem TextStyle.steady : binary.Steady := by
  apply Codec.steady_switch
  intro i c hc
  simp only [Option.mem_def] at hc
  repeat' split at hc
  all_goals cases hc
  · exact Codec.steady_uuid.arm _ _
  all_goals exact Codec.steady_constant _

theorem TextRanges.steady : binary.Steady :=
  ((Codec.steady_word32.pair (Codec.steady_word32.pair TextStyle.steady)).imap _ _).list.imap _ _

theorem StickerRef.steady : binary.Steady :=
  ((Codec.steady_octets 16).pair ((Codec.steady_octets 32).pair Codec.steady_word32)).imap _ _

theorem Sticker.steady : binary.Steady :=
  (StickerRef.steady.pair (AttachmentId.steady.pair Codec.steady_text.option)).imap _ _

theorem ContactCard.steady : binary.Steady :=
  (Codec.steady_text.pair (Codec.steady_text.list.pair AttachmentId.steady.option)).imap _ _

theorem WireAttachment.steady : binary.Steady :=
  (AttachmentId.steady.pair (Codec.steady_text.pair
    (Codec.steady_word64.pair (Codec.steady_octets 32)))).imap _ _

theorem WireQuote.steady : binary.Steady :=
  (Address.steady.pair (Codec.steady_word64.pair (Codec.steady_text.option.pair
    (TextRanges.steady.option.pair (WireAttachment.steady.option.pair
      (Codec.steady_text.option.pair Codec.steady_text.option)))))).imap _ _

theorem DataMessage.steady : binary.Steady :=
  (Codec.steady_word64.pair (Codec.steady_text.option.pair (TextRanges.steady.option.pair
    (AttachmentId.steady.list.pair (Sticker.steady.option.pair
      (ContactCard.steady.option.pair WireQuote.steady.option)))))).imap _ _

theorem ResendRequest.steady : binary.Steady :=
  (Codec.steady_counted.pair ((Codec.steady_byte.imap _ _).pair
    (Codec.steady_word64.pair Codec.steady_word32))).imap _ _

theorem Frame.steady : binary.Steady := by
  apply Codec.steady_switch
  intro i c hc
  simp only [Option.mem_def] at hc
  repeat' split at hc
  all_goals cases hc
  · exact DataMessage.steady.arm _ _
  · exact ResendRequest.steady.arm _ _

theorem OutgoingMessage.steady : binary.Steady :=
  (ThreadId.steady.pair (Codec.steady_word64.pair (Codec.steady_text.option.pair
    (TextRanges.steady.option.pair (AttachmentId.steady.list.pair
      (Sticker.steady.option.pair (ContactCard.steady.option.pair
        (WireQuote.steady.option.pair ResendRequest.steady.option)))))))).imap _ _

/-- The fault of a payload that is cut off is that of the row, whatever else the row holds. -/
theorem Store.outgoingOfRow_of_cut {p : List UInt8}
    (hp : OutgoingMessage.binary.ofBytes p = .error .endOfInput) (id createdAt : String) :
    outgoingOfRow ⟨outgoingColumns, [.text id, .blob p, .text createdAt]⟩ =
      .error (.unreadable 1 (.binary .endOfInput)) := by
  have hid : Fetched.text ⟨outgoingColumns, [.text id, .blob p, .text createdAt]⟩ 0 = .ok id := rfl
  have hpayload : Fetched.blob ⟨outgoingColumns, [.text id, .blob p, .text createdAt]⟩ 1 = .ok p :=
    rfl
  have hcreated : Fetched.text ⟨outgoingColumns, [.text id, .blob p, .text createdAt]⟩ 2 =
      .ok createdAt := rfl
  simp only [outgoingOfRow, hid, hpayload, hcreated, hp, readable, mapError_error, ok_bind]
  rfl

/-- A frame is read from its written form, and of every part of the form that does not reach to its
end reading says that the bytes have ended. The same holds of outgoing messages, also where they are
kept. -/
theorem ofBytes_of_cut_off :
    (∀ f : Frame, f.Sized → Frame.ofBytes f.toBytes = .ok f ∧
      ∀ p, p <+: f.toBytes → p ≠ f.toBytes → Frame.ofBytes p = .error .endOfInput) ∧
    ∀ m : OutgoingMessage, m.Sized →
      OutgoingMessage.binary.ofBytes (OutgoingMessage.binary.encode m) = .ok m ∧
      ∀ p, p <+: OutgoingMessage.binary.encode m → p ≠ OutgoingMessage.binary.encode m →
        OutgoingMessage.binary.ofBytes p = .error .endOfInput ∧
        ∀ id createdAt, Store.outgoingOfRow
          ⟨Store.outgoingColumns, [.text id, .blob p, .text createdAt]⟩ =
            .error (.unreadable 1 (.binary .endOfInput)) := by
  refine ⟨fun f hf => ⟨Frame.ofBytes_toBytes hf, fun p hp hne => ?_⟩, fun m hm => ?_⟩
  · exact Frame.canonical.ofBytes_of_cut Frame.steady (Frame.fits_iff.mpr hf) hp hne
  · have hfits := OutgoingMessage.fits_iff.mpr hm
    refine ⟨OutgoingMessage.canonical.ofBytes_encode hfits, fun p hp hne => ?_⟩
    have hcut := OutgoingMessage.canonical.ofBytes_of_cut OutgoingMessage.steady hfits hp hne
    exact ⟨hcut, Store.outgoingOfRow_of_cut hcut⟩

/-- A reply whose quote has the text `ü`, cut off between the two bytes of the letter. -/
theorem ofBytes_of_cut_off_letter :
    let f := Frame.ofQuoteBody (some "ü")
    f.Sized ∧ (f.toBytes.take 85).getLast? = some 0xc3 ∧ f.toBytes.take 85 ≠ f.toBytes ∧
      Frame.ofBytes (f.toBytes.take 85) = .error .endOfInput := by
  intro f
  have hf : f.Sized := Frame.sized_ofQuoteBody (by simpa [Text.Sized] using (by decide))
  have hne : f.toBytes.take 85 ≠ f.toBytes := by decide
  exact ⟨hf, by decide, hne, (ofBytes_of_cut_off.1 f hf).2 _ (List.take_prefix 85 _) hne⟩

end Quotation
