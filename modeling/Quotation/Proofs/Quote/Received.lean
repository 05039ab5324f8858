import Quotation.Proofs.Quote.Original
import Quotation.Proofs.Quote.Pipeline

/-!
# Quotes of messages that the receiver does not have

A device that receives a quote of a message that it does not have shows what was sent. That works
if there is a text or a content type, as with all texts and stickers. Of a contact, of a deleted or
expired message, and of an attachment without caption that its sender knows nothing of, there is
neither, and the receiver shows no quote at all.

* `Snapshot.Described`, `Snapshot.not_described_iff`;
* `Snapshot.described_of_shape`, `Snapshot.not_described_of_shape`: the kinds of quotes;
* `received_ok_iff_described`.
-/

namespace Quotation

namespace Snapshot

/-- Whether a quote has a text or a content type. -/
def Described (s : Snapshot) : Prop :=
  s.body.isSome = true ∨ s.contentType.isSome = true

instance (s : Snapshot) : Decidable s.Described :=
  inferInstanceAs (Decidable (_ ∨ _))

theorem not_described_iff {s : Snapshot} : ¬s.Described ↔ s.body = none ∧ s.contentType = none := by
  rw [Described, not_or, Option.not_isSome_iff_eq_none, Option.not_isSome_iff_eq_none]

/-- The quotes of texts and stickers always have one of them. -/
theorem described_of_shape {look : Lookup} {i : Item} {s : Snapshot} (h : ofItem look i = .ok s)
    (hshape : s.shape = .plainText ∨ s.shape = .sticker) : s.Described := by
  obtain ⟨source, content, -, hcontent, rfl⟩ := ofItem_eq_ok_iff.mp h
  cases frozen_of_contentOf hcontent with
  | text hbody => exact .inl rfl
  | attachment hr => simp [shape, Content.shape] at hshape
  | sticker hr ha =>
    exact .inr (Option.isSome_iff_ne_none.mpr (contentType_stickerAttachment ha))
  | contact => simp [shape, Content.shape] at hshape
  | deleted => simp [shape, Content.shape] at hshape
  | expired => simp [shape, Content.shape] at hshape

/-- The quotes of contacts and of messages whose content is gone never have one. -/
theorem not_described_of_shape {s : Snapshot} (hshape : s.shape = .contactShare ∨
    s.shape = .remotelyDeleted ∨ s.shape = .viewOnceExpired) : ¬s.Described := by
  rw [not_described_iff, body, contentType]
  rw [shape] at hshape
  cases hcontent : s.content with
  | text body ranges => simp [hcontent, Content.shape] at hshape
  | attachment caption ranges a => simp [hcontent, Content.shape] at hshape
  | sticker info a => simp [hcontent, Content.shape] at hshape
  | contactShare name => exact ⟨rfl, rfl⟩
  | remotelyDeleted => exact ⟨rfl, rfl⟩
  | viewOnceExpired => exact ⟨rfl, rfl⟩

/-- A quote with neither text nor content type is taken for an empty text where the quoted message
is not known. -/
theorem ofRecord_ofWire_of_not_described {s : Snapshot} (h : ¬s.Described) (config : Config)
    {look : Lookup} (hnone : look.messageAt s.timestamp s.author = .ok none) :
    ofRecord config look (.ofWire s.wire none) = .error .emptySource := by
  obtain ⟨hbody, htype⟩ := not_described_iff.mp h
  have hlookup : look.messageAt (QuoteRecord.ofWire s.wire none).timestamp
      (QuoteRecord.ofWire s.wire none).author = .ok none := by
    rw [QuoteRecord.ofWire, wire_timestamp, wire_author]
    exact hnone
  have hsource : Source.ofRecord (.ofWire s.wire none) = .error .emptySource := by
    rw [Source.ofRecord, QuoteRecord.ofWire, wire_contentType, wire_body, htype, hbody]
    rfl
  rw [ofRecord, hlookup, hsource]
  rfl

end Snapshot

namespace Store

/-- A quote of a message of any database that the operations lead to is shown, by a device that does
not have the message, exactly if it has a text or a content type, and is else refused as empty. So
quotes of texts and stickers are always shown, those of contacts and of deleted and expired messages
never. -/
theorem received_ok_iff_described (ops : List Operation) (id : MessageId) (s : Snapshot)
    (hs : Snapshot.ofMessage (Database.fresh.run ops).lookup id = .ok s) (config : Config)
    (others : List Operation)
    (habsent : ∀ m, Added others m →
      ¬(m.timestamp = s.timestamp ∧ m.author.uuid = s.author.uuid)) :
    let answer := Snapshot.ofRecord config (Database.fresh.run others).lookup
      (QuoteRecord.ofWire s.wire none)
    ((∃ t, answer = .ok t) ↔ s.Described) ∧
    (answer = .error .emptySource ↔ ¬s.Described) ∧
    (s.shape = .plainText ∨ s.shape = .sticker → ∃ t, answer = .ok t) ∧
    (s.shape = .contactShare ∨ s.shape = .remotelyDeleted ∨ s.shape = .viewOnceExpired →
      answer = .error .emptySource) := by
  intro answer
  obtain ⟨m, -, hitem⟩ := Snapshot.ofMessage_eq_ok hs
  have hnone : (Database.fresh.run others).lookup.messageAt s.timestamp s.author = .ok none :=
    messageAt?_of_not_added habsent
  have hshown : s.Described → ∃ t, answer = .ok t := by
    intro hdescribed
    rw [Snapshot.Described, ← s.wire_body, ← s.wire_contentType] at hdescribed
    rw [← s.wire_timestamp, ← s.wire_author] at hnone
    obtain ⟨t, ht, -⟩ :=
      Snapshot.ofRecord_ofWire (Snapshot.tidy_wire_of_ofItem hitem) hdescribed config hnone
    exact ⟨t, ht⟩
  have hrefused : ¬s.Described → answer = .error .emptySource := fun hnot =>
    Snapshot.ofRecord_ofWire_of_not_described hnot config hnone
  refine ⟨⟨?_, hshown⟩, ⟨?_, hrefused⟩, ?_, ?_⟩
  · rintro ⟨t, ht⟩
    refine Decidable.byContradiction fun hnot => ?_
    rw [hrefused hnot] at ht
    cases ht
  · intro herror hdescribed
    obtain ⟨t, ht⟩ := hshown hdescribed
    rw [herror] at ht
    cases ht
  · exact fun hshape => hshown (Snapshot.described_of_shape hitem hshape)
  · exact fun hshape => hrefused (Snapshot.not_described_of_shape hshape)

/-- The quote of a text, received by a device that has nothing. -/
theorem received_ok_iff_described_leapMessage :
    let m : Message := { leapMessage with body := some "Hi" }
    let s : Snapshot := ⟨m.timestamp, m.author, false, .text "Hi" none⟩
    Snapshot.ofMessage (Database.fresh.run [.insertMessage m]).lookup m.id = .ok s ∧
    ∃ t, Snapshot.ofRecord {} (Database.fresh.run []).lookup (QuoteRecord.ofWire s.wire none) =
      .ok t := by
  intro m s
  have hops : ∀ op ∈ [Operation.insertMessage m], op.Kept := by decide
  have hquote : Snapshot.ofMessage (Database.fresh.run [.insertMessage m]).lookup m.id = .ok s := by
    rw [((keeps_run_iff hops).mpr (by rfl)).ofMessage_eq]
    rfl
  obtain ⟨-, -, hshown, -⟩ := received_ok_iff_described [.insertMessage m] m.id s hquote {} []
    fun n hn => absurd hn not_added_nil
  exact ⟨hquote, hshown (.inl rfl)⟩

/-- The quote of a deleted message is sent, and refused by a device that does not have the
message. -/
theorem received_deleted_refused :
    let ops : List Operation :=
      [.insertMessage leapMessage, .markRemotelyDeleted leapMessage.id]
    let s : Snapshot := ⟨leapMessage.timestamp, leapMessage.author, false, .remotelyDeleted⟩
    Snapshot.ofMessage (Database.fresh.run ops).lookup leapMessage.id = .ok s ∧
    Snapshot.ofRecord {} (Database.fresh.run []).lookup (QuoteRecord.ofWire s.wire none) =
      .error .emptySource := by
  intro ops s
  have hops : ∀ op ∈ ops, op.Kept := by decide
  constructor
  · have hkeeps : (Database.fresh.run ops).Keeps leapMessage.tombstone :=
      (keeps_run_iff hops).mpr (by rfl)
    have hquote := hkeeps.ofMessage_eq
    exact hquote.trans (by rfl)
  · exact Snapshot.ofRecord_ofWire_of_not_described
      (Snapshot.not_described_of_shape (.inr (.inl rfl))) {}
      (messageAt?_of_not_added fun n hn => absurd hn not_added_nil)

end Store

end Quotation
