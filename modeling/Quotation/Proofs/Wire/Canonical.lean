import Quotation.Outgoing
import Quotation.Proofs.Binary.Canonical

/-!
# One written form for each frame

Frames and outgoing messages are written by canonical codecs: what is read is the written form of
the value, with something behind it or not. A written form holds the lengths of all texts and lists
in 64 bits.

* `Sized`, for each kind of record: the lengths in it are below 2 ^ 64, as those of all texts and
  lists in memory are; `fits_iff` says that its codec asks for no more;
* `canonical`, for each kind of record;
* `ofBytes_eq_ok_iff_written_form`: what this means for frames and outgoing messages.
-/

namespace Quotation

open Binary

/-- A text whose length in bytes is below 2 ^ 64. -/
def Text.Sized (s : String) : Prop := s.utf8ByteSize < UInt64.size

theorem AttachmentId.canonical : binary.Canonical :=
  Codec.canonical_uuid.imap (fun _ => rfl) fun _ => rfl

theorem AttachmentId.fits (id : AttachmentId) : binary.Fits id := trivial

theorem ThreadId.canonical : binary.Canonical :=
  Codec.canonical_uuid.imap (fun _ => rfl) fun _ => rfl

theorem ThreadId.fits (id : ThreadId) : binary.Fits id := trivial

namespace Address

/-- The number of an address has a length below 2 ^ 64. -/
def Sized (a : Address) : Prop := ∀ n ∈ a.e164, Text.Sized n

theorem canonical : binary.Canonical :=
  (Codec.canonical_uuid.pair Codec.canonical_text.option).imap (fun _ => rfl) fun _ => rfl

theorem fits_iff {a : Address} : binary.Fits a ↔ a.Sized := by
  simp [binary, Sized, Text.Sized]

end Address

namespace TextStyle

theorem canonical : binary.Canonical := by
  apply Codec.canonical_switch
  intro i c hc
  simp only [Option.mem_def] at hc
  repeat' split at hc
  all_goals cases hc
  all_goals subst_vars
  · refine ⟨Codec.canonical_uuid.arm ?_, ?_⟩
    · intro u s
      cases s <;> simp [account?, eq_comm]
    · rintro s ⟨u, hu, -⟩
      cases s <;> first | rfl | cases hu
  all_goals
    refine ⟨Codec.canonical_constant _, ?_⟩
    rintro _ rfl
    rfl

theorem fits (s : TextStyle) : binary.Fits s := by
  cases s <;> simp [binary, index, account?]

end TextStyle

theorem TextRange.canonical : binary.Canonical :=
  (Codec.canonical_word32.pair (Codec.canonical_word32.pair TextStyle.canonical)).imap
    (fun _ => rfl) fun _ => rfl

namespace TextRanges

/-- The number of ranges is below 2 ^ 64. -/
def Sized (r : TextRanges) : Prop := r.ranges.length < UInt64.size

theorem canonical : binary.Canonical :=
  TextRange.canonical.list.imap (fun _ => rfl) fun _ => rfl

theorem fits_iff {r : TextRanges} : binary.Fits r ↔ r.Sized := by
  simp [binary, Sized, TextRange.binary, TextStyle.fits]

end TextRanges

theorem StickerRef.canonical : binary.Canonical :=
  ((Codec.canonical_octets 16).pair ((Codec.canonical_octets 32).pair Codec.canonical_word32)).imap
    (fun _ => rfl) fun _ => rfl

namespace Sticker

/-- The emoji of a sticker has a length below 2 ^ 64. -/
def Sized (s : Sticker) : Prop := ∀ e ∈ s.emoji, Text.Sized e

theorem canonical : binary.Canonical :=
  (StickerRef.canonical.pair (AttachmentId.canonical.pair Codec.canonical_text.option)).imap
    (fun _ => rfl) fun _ => rfl

theorem fits_iff {s : Sticker} : binary.Fits s ↔ s.Sized := by
  simp [binary, Sized, Text.Sized, StickerRef.binary, AttachmentId.fits]

end Sticker

namespace ContactCard

/-- The lengths in a contact card are below 2 ^ 64. -/
def Sized (c : ContactCard) : Prop :=
  Text.Sized c.displayName ∧ c.phoneNumbers.length < UInt64.size ∧
    ∀ n ∈ c.phoneNumbers, Text.Sized n

theorem canonical : binary.Canonical :=
  (Codec.canonical_text.pair (Codec.canonical_text.list.pair AttachmentId.canonical.option)).imap
    (fun _ => rfl) fun _ => rfl

theorem fits_iff {c : ContactCard} : binary.Fits c ↔ c.Sized := by
  simp [binary, Sized, Text.Sized, AttachmentId.fits]

end ContactCard

namespace WireAttachment

/-- The content type of an attachment has a length below 2 ^ 64. -/
def Sized (a : WireAttachment) : Prop := Text.Sized a.contentType

theorem canonical : binary.Canonical :=
  (AttachmentId.canonical.pair (Codec.canonical_text.pair
    (Codec.canonical_word64.pair (Codec.canonical_octets 32)))).imap (fun _ => rfl) fun _ => rfl

theorem fits_iff {a : WireAttachment} : binary.Fits a ↔ a.Sized := by
  simp [binary, Sized, Text.Sized, AttachmentId.fits]

end WireAttachment

namespace WireQuote

/-- The lengths in a quote are below 2 ^ 64. -/
def Sized (q : WireQuote) : Prop :=
  q.author.Sized ∧ (∀ s ∈ q.body, Text.Sized s) ∧ (∀ r ∈ q.ranges, r.Sized) ∧
    (∀ a ∈ q.attachment, a.Sized) ∧ (∀ s ∈ q.contentType, Text.Sized s) ∧
    ∀ s ∈ q.sourceFilename, Text.Sized s

theorem canonical : binary.Canonical :=
  (Address.canonical.pair (Codec.canonical_word64.pair (Codec.canonical_text.option.pair
    (TextRanges.canonical.option.pair (WireAttachment.canonical.option.pair
      (Codec.canonical_text.option.pair Codec.canonical_text.option)))))).imap
    (fun _ => rfl) fun _ => rfl

theorem fits_iff {q : WireQuote} : binary.Fits q ↔ q.Sized := by
  simp [binary, Sized, Text.Sized, Address.fits_iff, TextRanges.fits_iff, WireAttachment.fits_iff]

end WireQuote

namespace DataMessage

/-- The lengths in a message are below 2 ^ 64. -/
def Sized (m : DataMessage) : Prop :=
  (∀ s ∈ m.body, Text.Sized s) ∧ (∀ r ∈ m.ranges, r.Sized) ∧
    m.attachments.length < UInt64.size ∧ (∀ s ∈ m.sticker, s.Sized) ∧
    (∀ c ∈ m.contact, c.Sized) ∧ ∀ q ∈ m.quote, q.Sized

theorem canonical : binary.Canonical :=
  (Codec.canonical_word64.pair (Codec.canonical_text.option.pair (TextRanges.canonical.option.pair
    (AttachmentId.canonical.list.pair (Sticker.canonical.option.pair
      (ContactCard.canonical.option.pair WireQuote.canonical.option)))))).imap
    (fun _ => rfl) fun _ => rfl

theorem fits_iff {m : DataMessage} : binary.Fits m ↔ m.Sized := by
  simp [binary, Sized, Text.Sized, TextRanges.fits_iff, AttachmentId.fits, Sticker.fits_iff,
    ContactCard.fits_iff, WireQuote.fits_iff]

end DataMessage

namespace ResendRequest

/-- The number of bytes of the content is below 2 ^ 64. -/
def Sized (r : ResendRequest) : Prop := r.content.length < UInt64.size

theorem canonical : binary.Canonical :=
  (Codec.canonical_counted.pair ((Codec.canonical_byte.imap (fun _ => rfl) fun _ => rfl).pair
    (Codec.canonical_word64.pair Codec.canonical_word32))).imap (fun _ => rfl) fun _ => rfl

theorem fits_iff {r : ResendRequest} : binary.Fits r ↔ r.Sized := by
  simp [binary, Sized, Cipher.binary]

end ResendRequest

namespace Frame

/-- The lengths in a frame are below 2 ^ 64. -/
def Sized : Frame → Prop
  | data m => m.Sized
  | decryptionError r => r.Sized

theorem canonical : binary.Canonical := by
  apply Codec.canonical_switch
  intro i c hc
  simp only [Option.mem_def] at hc
  repeat' split at hc
  all_goals cases hc
  all_goals subst_vars
  · refine ⟨DataMessage.canonical.arm fun m f => by cases f <;> simp [message?, eq_comm], ?_⟩
    rintro f ⟨m, hm, -⟩
    cases f <;> first | rfl | cases hm
  · refine ⟨ResendRequest.canonical.arm fun r f => by cases f <;> simp [request?, eq_comm], ?_⟩
    rintro f ⟨r, hr, -⟩
    cases f <;> first | rfl | cases hr

theorem fits_iff {f : Frame} : binary.Fits f ↔ f.Sized := by
  cases f with
  | data m => simp [binary, index, message?, Sized, DataMessage.fits_iff]
  | decryptionError r => simp [binary, index, request?, Sized, ResendRequest.fits_iff]

theorem ofBytes_toBytes {f : Frame} (h : f.Sized) : ofBytes f.toBytes = .ok f :=
  canonical.ofBytes_encode (fits_iff.mpr h)

end Frame

namespace OutgoingMessage

/-- The lengths in an outgoing message are below 2 ^ 64. -/
def Sized (m : OutgoingMessage) : Prop :=
  (∀ s ∈ m.body, Text.Sized s) ∧ (∀ r ∈ m.ranges, r.Sized) ∧
    m.attachments.length < UInt64.size ∧ (∀ s ∈ m.sticker, s.Sized) ∧
    (∀ c ∈ m.contact, c.Sized) ∧ (∀ q ∈ m.quote, q.Sized) ∧ ∀ r ∈ m.resend, r.Sized

theorem canonical : binary.Canonical :=
  (ThreadId.canonical.pair (Codec.canonical_word64.pair (Codec.canonical_text.option.pair
    (TextRanges.canonical.option.pair (AttachmentId.canonical.list.pair
      (Sticker.canonical.option.pair (ContactCard.canonical.option.pair
        (WireQuote.canonical.option.pair ResendRequest.canonical.option)))))))).imap
    (fun _ => rfl) fun _ => rfl

theorem fits_iff {m : OutgoingMessage} : binary.Fits m ↔ m.Sized := by
  simp [binary, Sized, Text.Sized, ThreadId.fits, TextRanges.fits_iff, AttachmentId.fits,
    Sticker.fits_iff, ContactCard.fits_iff, WireQuote.fits_iff, ResendRequest.fits_iff]

/-- What is sent is as short as what is kept. -/
theorem sized_frame {m : OutgoingMessage} (h : m.Sized) : m.frame.Sized := by
  obtain ⟨hbody, hranges, hattachments, hsticker, hcontact, hquote, hresend⟩ := h
  unfold frame
  cases hr : m.resend with
  | none => exact ⟨hbody, hranges, hattachments, hsticker, hcontact, hquote⟩
  | some r => exact hresend r hr

end OutgoingMessage

/-- Bytes are read as a frame, or as an outgoing message, exactly if they are its written form with
something behind it or not; and of two written forms none begins with the other. -/
theorem ofBytes_eq_ok_iff_written_form :
    (∀ bs f, Frame.ofBytes bs = .ok f ↔ f.Sized ∧ ∃ tail, bs = f.toBytes ++ tail) ∧
    (∀ bs m, OutgoingMessage.binary.ofBytes bs = .ok m ↔
      m.Sized ∧ ∃ tail, bs = OutgoingMessage.binary.encode m ++ tail) ∧
    (∀ f g : Frame, f.Sized → g.Sized → ∀ tail, g.toBytes = f.toBytes ++ tail →
      g = f ∧ tail = []) ∧
    ∀ m n : OutgoingMessage, m.Sized → n.Sized → ∀ tail,
      OutgoingMessage.binary.encode n = OutgoingMessage.binary.encode m ++ tail →
        n = m ∧ tail = [] := by
  refine ⟨fun bs f => ?_, fun bs m => ?_, fun f g hf hg tail h => ?_, fun m n hm hn tail h => ?_⟩
  · rw [Frame.ofBytes, Frame.canonical.ofBytes_eq_ok_iff, Frame.fits_iff]
    rfl
  · rw [OutgoingMessage.canonical.ofBytes_eq_ok_iff, OutgoingMessage.fits_iff]
  · rw [← Frame.fits_iff] at hf hg
    exact Frame.canonical.encode_append_inj hf hg h
  · rw [← OutgoingMessage.fits_iff] at hm hn
    exact OutgoingMessage.canonical.encode_append_inj hm hn h

/-- A reply whose quote has the given body. -/
def Frame.ofQuoteBody (body : Option String) : Frame :=
  .data
    { timestamp := 2000
      quote := some
        { author := ⟨⟨.replicate 16 7⟩, some "+15550100"⟩
          timestamp := 1000
          body } }

theorem Frame.sized_ofQuoteBody {body : Option String} (h : ∀ s ∈ body, Text.Sized s) :
    (ofQuoteBody body).Sized := by
  have hnumber : Text.Sized "+15550100" := by
    unfold Text.Sized
    decide
  simpa [ofQuoteBody, Sized, DataMessage.Sized, WireQuote.Sized, Address.Sized, hnumber] using h

/-- An absent body and an empty one are written differently. -/
theorem toBytes_absent_ne_empty :
    let absent := Frame.ofQuoteBody none
    let empty := Frame.ofQuoteBody (some "")
    absent.Sized ∧ empty.Sized ∧ ∀ tail, empty.toBytes ≠ absent.toBytes ++ tail := by
  intro absent empty
  have habsent : absent.Sized := Frame.sized_ofQuoteBody (by simp)
  have hempty : empty.Sized := Frame.sized_ofQuoteBody (by simp [Text.Sized])
  refine ⟨habsent, hempty, fun tail h => ?_⟩
  have heq := (ofBytes_eq_ok_iff_written_form.2.2.1 absent empty habsent hempty tail h).1
  revert heq
  decide

end Quotation
