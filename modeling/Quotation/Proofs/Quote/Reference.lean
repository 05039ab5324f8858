import Quotation.Proofs.Quote.Kinds
import Quotation.Proofs.Store.Inventory

/-!
# The reference to an attachment

A quote is sent as what can be asked of its snapshot. The attachment that it refers to, if it does,
is the one that was quoted, described as the record of it is.

* `Request`, `Request.quote`: the three ways to a quote;
* `Request.Refers`: the attachment that a request leads to, of which there is one at most;
* `Request.Shows`, `Request.exists_shows`: what a request shows, and that its quote is made of that;
* `Snapshot.isSome_wire_attachment_iff`: when a quote is sent with a reference;
* `Snapshot.exists_stream_of_wire`: where the reference comes from;
* `wire_fields_eq_snapshot`.
-/

namespace Quotation

/-- What may be quoted: an item, a kept message, or the message that a record refers to. -/
inductive Request
  | item (i : Item)
  | message (id : MessageId)
  | record (r : QuoteRecord)

/-- The quote that is asked for. -/
def Request.quote (config : Config) (look : Lookup) : Request → Except QuoteError Snapshot
  | item i => Snapshot.ofItem look i
  | message id => Snapshot.ofMessage look id
  | record r => Snapshot.ofRecord config look r

/-- Which attachment a request leads to: the first of the item or of the message that is found, and
where none is found the thumbnail of the record. -/
inductive Request.Refers (look : Lookup) (id : AttachmentId) : Request → Prop
  | item {i : Item} (h : look.FirstMedia i.attachments id) : Refers look id (.item i)
  | message {name : MessageId} {m : Message} (hfound : look.message name = .ok (some m))
      (h : look.FirstMedia m.attachments id) : Refers look id (.message name)
  | original {r : QuoteRecord} {m : Message}
      (hfound : look.messageAt r.timestamp r.author = .ok (some m))
      (h : look.FirstMedia m.attachments id) : Refers look id (.record r)
  | thumbnail {r : QuoteRecord} (hnone : look.messageAt r.timestamp r.author = .ok none)
      (h : r.thumbnail = some id) : Refers look id (.record r)

/-- Which part of a message a request shows: what is decided for the item or for the message that is
found, and where none is found what the record says. -/
inductive Request.Shows (look : Lookup) (source : Source) : Request → Prop
  | item {i : Item} (h : Source.ofItem look i = .ok source) : Shows look source (.item i)
  | message {name : MessageId} {m : Message} (hfound : look.message name = .ok (some m))
      (h : Source.ofItem look m.item = .ok source) : Shows look source (.message name)
  | original {r : QuoteRecord} {m : Message}
      (hfound : look.messageAt r.timestamp r.author = .ok (some m))
      (h : Source.ofItem look m.item = .ok source) : Shows look source (.record r)
  | record {r : QuoteRecord} (hnone : look.messageAt r.timestamp r.author = .ok none)
      (h : Source.ofRecord r = .ok source) : Shows look source (.record r)

/-! ### The attachment that is chosen -/

/-- There is no choice. -/
theorem Lookup.FirstMedia.unique {look : Lookup} {ids : List AttachmentId} {id id' : AttachmentId}
    (h : look.FirstMedia ids id) (h' : look.FirstMedia ids id') : id' = id := by
  have hchosen := Source.primaryAttachment_of_firstMedia h
  rw [Source.primaryAttachment_of_firstMedia h'] at hchosen
  exact Option.some.inj (Except.ok.inj hchosen)

theorem Request.Refers.unique {look : Lookup} {request : Request} {id id' : AttachmentId}
    (h : request.Refers look id) (h' : request.Refers look id') : id' = id := by
  cases h with
  | item h => cases h' with | item h' => exact h.unique h'
  | message hfound h =>
    cases h' with
    | message hfound' h' =>
      cases hfound.symm.trans hfound'
      exact h.unique h'
  | original hfound h =>
    cases h' with
    | original hfound' h' =>
      cases hfound.symm.trans hfound'
      exact h.unique h'
    | thumbnail hnone h' => cases hfound.symm.trans hnone
  | thumbnail hnone h =>
    cases h' with
    | original hfound h' => cases hnone.symm.trans hfound
    | thumbnail _ h' => exact Option.some.inj (h'.symm.trans h)

namespace Source

variable {look : Lookup} {id : AttachmentId}

/-- The attachment that a part of a message names, if it is an attachment. -/
def attachment? : Source → Option AttachmentId
  | attachmentWithCaption id _ _ _ _ => id
  | _ => none

theorem attachment?_captioned (id : Option AttachmentId) (body : Option String)
    (ranges : Option TextRanges) (contentType sourceFilename : Option String) :
    (captioned id body ranges contentType sourceFilename).attachment? = id := by
  unfold captioned
  split <;> rfl

theorem attachment?_ofText {body : Option String} {ranges : Option TextRanges} {source : Source}
    (h : ofText body ranges = .ok source) : source.attachment? = none := by
  obtain ⟨s, ranges', rfl, -⟩ := exists_plainText_of_ofText h
  rfl

theorem firstMedia_of_ofItem {i : Item} {source : Source} (h : ofItem look i = .ok source)
    (hid : source.attachment? = some id) : look.FirstMedia i.attachments id := by
  cases decided_of_ofItem h with
  | deleted => cases hid
  | expired => cases hid
  | sticker hs => cases hid
  | contact name => cases hid
  | captioned hprimary =>
    rw [attachment?_captioned] at hid
    cases hid
    exact firstMedia_of_primaryAttachment hprimary
  | text htext =>
    rw [attachment?_ofText htext] at hid
    cases hid

theorem thumbnail_of_ofRecord {r : QuoteRecord} {source : Source} (h : ofRecord r = .ok source)
    (hid : source.attachment? = some id) : r.thumbnail = some id := by
  unfold ofRecord at h
  split at h
  · cases h
    rwa [attachment?_captioned] at hid
  · rw [attachment?_ofText h] at hid
    cases hid

end Source

/-! ### The reference that is sent -/

/-- What is known of an attachment is what the record of it says. -/
theorem Resolved.exists_of_ofId? {look : Lookup} {id : Option AttachmentId} {r : Resolved}
    (h : ofId? look id = .ok r) :
    ∃ o, r = ofRecord? o ∧
      ∀ a, o = some a → ∃ name, id = some name ∧ look.attachment name = .ok (some a) := by
  cases id with
  | none =>
    cases h
    exact ⟨none, rfl, nofun⟩
  | some name =>
    rw [ofId?, ofId] at h
    cases hheld : look.attachment name with
    | error e =>
      rw [hheld] at h
      cases h
    | ok o =>
      rw [hheld] at h
      cases h
      exact ⟨o, rfl, fun a ha => ⟨name, rfl, ha ▸ hheld⟩⟩

/-- The stream of a record, if there is one. -/
theorem Resolved.eq_of_ofRecord?_stream {o : Option Attachment} {s : AttachmentStream}
    (h : stream s = ofRecord? o) : o = some (.stream s) := by
  rcases o with _ | t | p
  · cases h
  · cases h
    rfl
  · rw [ofRecord?] at h
    split at h <;> cases h

namespace Snapshot

theorem isSome_wire_attachment_iff (s : Snapshot) :
    s.wire.attachment.isSome = true ↔
      s.shape = .attachmentWithCaption ∧ s.stream?.isSome = true := by
  cases h : s.content <;> simp [wire, shape, stream?, Content.shape, Content.attachment?, h]

/-- A reference is to the stream that is held of the attachment that is shown. -/
theorem exists_stream_of_wire {look : Lookup} {source : Source} {s : Snapshot}
    (h : Frozen look source s.content) {w : WireAttachment} (hw : s.wire.attachment = some w) :
    ∃ id stream, source.attachment? = some id ∧ look.attachment id = .ok (some (.stream stream)) ∧
      w = wireAttachment stream ∧ s.wire.contentType = some stream.contentType := by
  obtain ⟨timestamp, author, remote, content⟩ := s
  dsimp only at h
  cases h with
  | text hbody => cases hw
  | @attachment id caption ranges contentType sourceFilename r hr =>
    obtain ⟨stream, hstream, rfl⟩ := Option.map_eq_some_iff.mp hw
    cases r with
    | stream s =>
      cases hstream
      obtain ⟨o, ho, hrecord⟩ := Resolved.exists_of_ofId? hr
      obtain ⟨name, rfl, hheld⟩ := hrecord _ (Resolved.eq_of_ofRecord?_stream ho)
      exact ⟨name, stream, rfl, hheld, rfl, rfl⟩
    | failed p => cases hstream
    | missing pending => cases hstream
  | sticker hr ha => cases hw
  | contact => cases hw
  | deleted => cases hw
  | expired => cases hw

end Snapshot

namespace Request

variable {config : Config} {look : Lookup} {s : Snapshot} {request : Request}

/-- Each of the three ways is to decide what is shown, and to freeze that. -/
theorem exists_shows (h : request.quote config look = .ok s) :
    ∃ source, request.Shows look source ∧ Snapshot.Frozen look source s.content := by
  cases request with
  | item i =>
    obtain ⟨source, content, hsource, hcontent, rfl⟩ := Snapshot.ofItem_eq_ok_iff.mp h
    exact ⟨source, .item hsource, Snapshot.frozen_of_contentOf hcontent⟩
  | message name =>
    rw [quote, Snapshot.ofMessage] at h
    cases hfound : look.message name with
    | error e =>
      rw [hfound] at h
      cases h
    | ok o =>
      rw [hfound] at h
      cases o with
      | none => cases h
      | some m =>
        obtain ⟨source, content, hsource, hcontent, rfl⟩ := Snapshot.ofItem_eq_ok_iff.mp h
        exact ⟨source, .message hfound hsource, Snapshot.frozen_of_contentOf hcontent⟩
  | record r =>
    rw [quote, Snapshot.ofRecord] at h
    cases hfound : look.messageAt r.timestamp r.author with
    | error e =>
      rw [hfound] at h
      cases h
    | ok o =>
      rw [hfound] at h
      cases o with
      | none =>
        obtain ⟨source, hsource, hbuild⟩ := bind_eq_ok_iff.mp h
        obtain ⟨content, hcontent, rfl⟩ := map_eq_ok_iff.mp hbuild
        exact ⟨source, .record hfound hsource, Snapshot.frozen_of_contentOf hcontent⟩
      | some m =>
        obtain ⟨source, content, hsource, hcontent, rfl⟩ := Snapshot.ofItem_eq_ok_iff.mp h
        exact ⟨source, .original hfound hsource, Snapshot.frozen_of_contentOf hcontent⟩

/-- The attachment that is shown is the one that the request leads to. -/
theorem Shows.refers {source : Source} (h : request.Shows look source) {id : AttachmentId}
    (hid : source.attachment? = some id) : request.Refers look id := by
  cases h with
  | item h => exact .item (Source.firstMedia_of_ofItem h hid)
  | message hfound h => exact .message hfound (Source.firstMedia_of_ofItem h hid)
  | original hfound h => exact .original hfound (Source.firstMedia_of_ofItem h hid)
  | record hnone h => exact .thumbnail hnone (Source.thumbnail_of_ofRecord h hid)

end Request

/-- What is held of an attachment after a run has its name. -/
theorem Store.id_of_attachment? {ops : List Operation} {id : AttachmentId} {a : Attachment}
    (h : (Database.fresh.run ops).attachment? id = .ok (some a)) : a.id = id := by
  rw [Contents.run_fresh, Contents.attachment?_eq_inventory] at h
  exact Contents.id_of_inventory (Except.ok.inj h)

/-- A quote is sent as its snapshot tells, and with a reference exactly if the snapshot is one of an
attachment of which the stream is held. The reference is to the attachment that the request leads
to, with name, type, size and digest as they are held, and the type is that of the quote. -/
theorem wire_fields_eq_snapshot :
    (∀ s : Snapshot, s.wire.author = s.author ∧ s.wire.timestamp = s.timestamp ∧
      s.wire.body = s.body ∧ s.wire.ranges = s.ranges ∧ s.wire.contentType = s.contentType ∧
      s.wire.sourceFilename = s.sourceFilename ∧
      (s.wire.attachment.isSome = true ↔
        s.shape = .attachmentWithCaption ∧ s.stream?.isSome = true)) ∧
    ∀ (config : Config) (look : Lookup) (request : Request) (s : Snapshot) (w : WireAttachment),
      request.quote config look = .ok s → s.wire.attachment = some w →
        ∃ id stream, (∀ j, request.Refers look j ↔ j = id) ∧
          look.attachment id = .ok (some (.stream stream)) ∧
          w = ⟨stream.id, stream.contentType, stream.byteCount, stream.digest⟩ ∧
          s.wire.contentType = some w.contentType ∧
          ∀ ops, look = (Store.Database.fresh.run ops).lookup → w.id = id := by
  refine ⟨fun s => ⟨s.wire_author, s.wire_timestamp, s.wire_body, s.wire_ranges, s.wire_contentType,
    s.wire_sourceFilename, s.isSome_wire_attachment_iff⟩, fun config look request s w h hw => ?_⟩
  obtain ⟨source, hshows, hfrozen⟩ := Request.exists_shows h
  obtain ⟨id, stream, hid, hheld, rfl, htype⟩ := Snapshot.exists_stream_of_wire hfrozen hw
  refine ⟨id, stream, fun j => ⟨(hshows.refers hid).unique, ?_⟩, hheld, rfl, htype, ?_⟩
  · rintro rfl
    exact hshows.refers hid
  · rintro ops rfl
    exact Store.id_of_attachment? hheld

/-- A record of a message that is not there, with a thumbnail whose bytes are here. -/
theorem wire_fields_eq_snapshot_thumbnail :
    let stream : AttachmentStream :=
      ⟨⟨⟨.replicate 16 5⟩⟩, "image/png", some "a.png", 7, "/tmp/a.png", .replicate 32 9⟩
    let now : Instant := ⟨0, 0, by decide⟩
    let ops : List Store.Operation := [.insertAttachment (.stream stream) now]
    let look := (Store.Database.fresh.run ops).lookup
    let r : QuoteRecord :=
      { timestamp := 1000, author := ⟨⟨.replicate 16 3⟩, none⟩, contentType := some "image/jpeg"
        thumbnail := some stream.id }
    let s : Snapshot := ⟨1000, r.author, true,
      .attachment none none ⟨some "image/png", some "a.png", .stream stream⟩⟩
    (Request.record r).quote {} look = .ok s ∧
    ∃ w, s.wire.attachment = some w ∧ w.id = stream.id ∧ s.wire.contentType = some w.contentType ∧
      ∀ j, (Request.record r).Refers look j ↔ j = w.id := by
  intro stream now ops look r s
  have hnone : look.messageAt r.timestamp r.author = .ok none := by
    refine (congrArg (·.messageAt? r.timestamp r.author) (Store.Contents.run_fresh ops)).trans ?_
    exact Store.Contents.messageAt?_eq_none _ fun m hm => absurd hm List.not_mem_nil
  have hheld : look.attachment stream.id = .ok (some (.stream stream)) :=
    Store.attachment?_run ops stream.id
  have hquote : (Request.record r).quote {} look = .ok s := by
    have hsource : Source.ofRecord r = .ok (.attachmentWithCaption (some stream.id) none none
      (some "image/jpeg") none) := rfl
    rw [Request.quote, Snapshot.ofRecord, hnone]
    dsimp only
    rw [hsource, Except.bind, Snapshot.build, Snapshot.contentOf, Resolved.ofId?, Resolved.ofId,
      hheld]
    rfl
  obtain ⟨-, htells⟩ := wire_fields_eq_snapshot
  obtain ⟨id, t, hrefers, -, -, htype, hname⟩ := htells {} look (.record r) s _ hquote rfl
  obtain rfl : stream.id = id := hname ops rfl
  exact ⟨hquote, _, rfl, rfl, htype, hrefers⟩

end Quotation
