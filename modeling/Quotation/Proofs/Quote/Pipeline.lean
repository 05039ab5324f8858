import Quotation.Proofs.Quote.Tidy
import Quotation.Proofs.Store.History

/-!
# The way of a quote

A quote of a kept message is put into a reply, the reply is stored and sent, and the device that
receives it shows the quote from what was sent. All of it gets through but the attachment, of which
the receiver has only the description.

* `quote_survives_sending`.
-/

namespace Quotation

/-- A quote by name is the quote of the message of that name. -/
theorem Snapshot.ofMessage_eq_ok {look : Lookup} {id : MessageId} {s : Snapshot}
    (h : ofMessage look id = .ok s) :
    ∃ m, look.message id = .ok (some m) ∧ ofItem look m.item = .ok s := by
  unfold ofMessage at h
  split at h
  · cases h
  · cases h
  · rename_i m hm
    exact ⟨m, hm, h⟩

namespace Store

/-- The quote of a message of any database that the operations lead to is stored with the reply and
read from what is sent. A device that does not have the quoted message, but gets a text or a content
type of it, shows a quote that agrees with it, and would send it on without the attachment. -/
theorem quote_survives_sending (ops : List Operation) (id : MessageId) (s : Snapshot)
    (hs : Snapshot.ofMessage (Database.fresh.run ops).lookup id = .ok s) :
    (∀ (thread : ThreadId) (timestamp : UInt64) (text : String),
      (s.reply thread timestamp text).Sized → ∀ (replyId : MessageId) (now : Instant),
      (Database.fresh.run ops).outgoing? replyId = .ok none → now.Dated →
      ∃ tx o, (WriteTransaction.begin (Database.fresh.run ops)).insertOutgoing replyId
          (s.reply thread timestamp text) now = .ok tx ∧
        tx.commit.outgoing? replyId = .ok (some o) ∧
        o.message = s.reply thread timestamp text ∧
        Frame.ofBytes o.message.frame.toBytes =
          .ok (.data { timestamp, body := some text, quote := some s.wire })) ∧
    (s.body.isSome = true ∨ s.contentType.isSome = true →
      ∀ (config : Config) (others : List Operation),
      (∀ m, Added others m → ¬(m.timestamp = s.timestamp ∧ m.author.uuid = s.author.uuid)) →
      ∃ t, Snapshot.ofRecord config (Database.fresh.run others).lookup
          (QuoteRecord.ofWire s.wire none) = .ok t ∧
        t.author = s.author ∧ t.timestamp = s.timestamp ∧ t.body = s.body ∧
        t.ranges = s.ranges ∧ t.contentType = s.contentType ∧
        t.sourceFilename = s.sourceFilename ∧ t.wire = { s.wire with attachment := none }) := by
  constructor
  · intro thread timestamp text hsized replyId now hnew hnow
    rw [Contents.run_fresh] at hnew ⊢
    obtain ⟨tx, hinsert, hfound⟩ := (Contents.run {} ops).outgoing?_commit
      (o := ⟨replyId, s.reply thread timestamp text, now⟩) hnew hsized hnow
    exact ⟨tx, _, hinsert, hfound, rfl, Frame.ofBytes_toBytes (OutgoingMessage.sized_frame hsized)⟩
  · intro hcontent config others habsent
    rw [Contents.run_fresh]
    have hnone : (Contents.run {} others).database.lookup.messageAt s.wire.timestamp
        s.wire.author = .ok none := by
      -- a message keeps the time and the author that it was added with
      refine Contents.messageAt?_eq_none _ fun m hm => ?_
      obtain ⟨n, hadded, htimestamp, hauthor, -⟩ := exists_added_of_mem hm
      have hother := habsent n hadded
      rw [← htimestamp, ← hauthor] at hother
      rw [Snapshot.wire_timestamp, Snapshot.wire_author, Contents.sentAt, Address.sameAccount]
      simpa using hother
    obtain ⟨m, -, hitem⟩ := Snapshot.ofMessage_eq_ok hs
    have htidy := Snapshot.tidy_wire_of_ofItem hitem
    rw [← Snapshot.wire_body, ← Snapshot.wire_contentType] at hcontent
    obtain ⟨t, ht, hwire⟩ := Snapshot.ofRecord_ofWire htidy hcontent config hnone
    refine ⟨t, ht, ?_, ?_, ?_, ?_, ?_, ?_, hwire⟩
    · rw [← t.wire_author, hwire, s.wire_author]
    · rw [← t.wire_timestamp, hwire, s.wire_timestamp]
    · rw [← t.wire_body, hwire, s.wire_body]
    · rw [← t.wire_ranges, hwire, s.wire_ranges]
    · rw [← t.wire_contentType, hwire, s.wire_contentType]
    · rw [← t.wire_sourceFilename, hwire, s.wire_sourceFilename]

/-- A message with blanks around its text, quoted by one device and shown by another. -/
theorem quote_survives_sending_leapMessage :
    let m : Message := { leapMessage with body := some " Hi " }
    let s : Snapshot := ⟨m.timestamp, m.author, false, .text " Hi " none⟩
    let sender := Database.fresh.run [.insertMessage m]
    let reply := s.reply m.thread 2000 "Hello"
    Snapshot.ofMessage sender.lookup m.id = .ok s ∧ reply.Sized ∧
    (∃ tx o, (WriteTransaction.begin sender).insertOutgoing m.id reply m.receivedAt = .ok tx ∧
      tx.commit.outgoing? m.id = .ok (some o) ∧ o.message = reply ∧
      Frame.ofBytes o.message.frame.toBytes =
        .ok (.data { timestamp := 2000, body := some "Hello", quote := some s.wire })) ∧
    ∃ t, Snapshot.ofRecord {} (Database.fresh.run []).lookup (QuoteRecord.ofWire s.wire none) =
      .ok t ∧ t.body = some " Hi " := by
  intro m s sender reply
  have hfound : sender.lookup.message m.id = .ok (some m) := by
    have hkept : ∀ op ∈ [Operation.insertMessage m], op.Kept := by decide
    have hmessage := (Contents.kept_run hkept).message?_eq m.id
    rw [← Contents.run_fresh] at hmessage
    exact hmessage.trans (by rfl)
  have hquote : Snapshot.ofMessage sender.lookup m.id = .ok s := by
    rw [Snapshot.ofMessage, hfound]
    rfl
  have hsized : reply.Sized := by
    simp [reply, s, m, leapMessage, Snapshot.reply, Snapshot.wire, OutgoingMessage.Sized,
      WireQuote.Sized, Address.Sized, Text.Sized]
    decide
  obtain ⟨hsent, hreceived⟩ := quote_survives_sending [.insertMessage m] m.id s hquote
  refine ⟨hquote, hsized, hsent m.thread 2000 "Hello" hsized m.id m.receivedAt (by rfl) (by decide),
    ?_⟩
  obtain ⟨t, ht, -, -, hbody, -⟩ := hreceived (.inl rfl) {} [] fun n hn => by
    obtain ⟨before, after, hnil, -⟩ := hn
    simp at hnil
  exact ⟨t, ht, hbody⟩

end Store

end Quotation
