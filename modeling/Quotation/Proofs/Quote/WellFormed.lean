import Quotation.Proofs.Quote.Reference

/-!
# Well-formed snapshots

Which fields of a quote go together, however the quote was come by. What is frozen need not be so in
itself: a text with ranges would be frozen as it is, and an attachment with any content type. It is
the decision what to show that rules this out, and for the rest of a long text the decision and the
freezing look up the same record.

* `Snapshot.WellFormed`: what holds of every quote;
* `Snapshot.WellChosen`: what holds besides of the quote of an item;
* `wellFormed_quote`.
-/

namespace Quotation

/-- Whether a request leads to an item: only a record of which the message is not found does not. -/
def Request.HasItem (look : Lookup) : Request → Prop
  | item _ => True
  | message _ => True
  | record r => look.messageAt r.timestamp r.author ≠ .ok none

namespace Snapshot

/-- Whether content type and name of a file are told as in a record of them. Where the record has no
name there may still be one. -/
def Describes (s : Snapshot) (contentType : String) (sourceFilename : Option String) : Prop :=
  s.contentType = some contentType ∧ ∀ name ∈ sourceFilename, s.sourceFilename = some name

/-- What holds of the fields of every quote. -/
structure WellFormed (s : Snapshot) : Prop where
  body : ∀ text ∈ s.body, ∃ c ∈ text.toList, Text.isBlank c = false
  ranges : ∀ r ∈ s.ranges, r.ranges ≠ [] ∧ s.body.isSome = true
  sticker : s.shape = .sticker → s.contentType.isSome = true ∧ s.body = none
  exclusive : ¬(s.stream?.isSome = true ∧ s.failedPointer?.isSome = true)
  failed : ∀ p ∈ s.failedPointer?, p.state = .failed
  describesStream : ∀ a ∈ s.stream?, s.Describes a.contentType a.sourceFilename
  describesPointer : ∀ p ∈ s.failedPointer?, s.Describes p.contentType p.sourceFilename

/-- What holds besides of the quote of an item: the rest of a long text is not what is shown, and
the name of a file goes with its content type. -/
structure WellChosen (s : Snapshot) : Prop where
  media : s.shape = .attachmentWithCaption → s.contentType ≠ some "text/x-signal-plain"
  filename : s.sourceFilename.isSome = true → s.contentType.isSome = true

end Snapshot

/-! ### What is decided -/

namespace Source

/-- The text of a part that is shown. -/
def body? : Source → Option String
  | plainText body _ => some body
  | attachmentWithCaption _ caption _ _ _ => caption
  | _ => none

/-- The ranges of the text. -/
def ranges? : Source → Option TextRanges
  | plainText _ ranges => ranges
  | attachmentWithCaption _ _ ranges _ _ => ranges
  | _ => none

theorem legible_captioned (id : Option AttachmentId) (body : Option String)
    (ranges : Option TextRanges) (contentType sourceFilename : Option String) :
    Legible (captioned id body ranges contentType sourceFilename).body?
      (captioned id body ranges contentType sourceFilename).ranges? := by
  obtain ⟨caption, ranges', heq, hlegible⟩ :=
    exists_caption id body ranges contentType sourceFilename
  rw [heq]
  exact hlegible

theorem legible_ofText {body : Option String} {ranges : Option TextRanges} {source : Source}
    (h : ofText body ranges = .ok source) : Legible source.body? source.ranges? := by
  obtain ⟨s, ranges', rfl, hlegible⟩ := exists_plainText_of_ofText h
  exact hlegible

theorem legible_ofItem {look : Lookup} {i : Item} {source : Source}
    (h : ofItem look i = .ok source) : Legible source.body? source.ranges? := by
  cases decided_of_ofItem h with
  | deleted => exact legible_none
  | expired => exact legible_none
  | sticker hs => exact legible_none
  | contact name => exact legible_none
  | captioned hprimary => exact legible_captioned _ _ _ _ _
  | text htext => exact legible_ofText htext

theorem legible_ofRecord {r : QuoteRecord} {source : Source} (h : ofRecord r = .ok source) :
    Legible source.body? source.ranges? := by
  unfold ofRecord at h
  split at h
  · cases h
    exact legible_captioned _ _ _ _ _
  · exact legible_ofText h

end Source

/-- Whatever a request shows, its text can be read. -/
theorem Request.Shows.legible {look : Lookup} {source : Source} {request : Request}
    (h : request.Shows look source) : Source.Legible source.body? source.ranges? := by
  cases h with
  | item h => exact Source.legible_ofItem h
  | message hfound h => exact Source.legible_ofItem h
  | original hfound h => exact Source.legible_ofItem h
  | record hnone h => exact Source.legible_ofRecord h

/-! ### What is frozen -/

theorem Resolved.state_of_ofId? {look : Lookup} {id : Option AttachmentId} {p : AttachmentPointer}
    (h : ofId? look id = .ok (.failed p)) : p.state = .failed := by
  obtain ⟨o, ho, -⟩ := exists_of_ofId? h
  rcases o with _ | s | q
  · cases ho
  · cases ho
  · rw [ofRecord?] at ho
    split at ho
    · rename_i hstate
      cases ho
      exact hstate
    · cases ho

/-- The content type of an attachment is that of the record of it. -/
theorem Resolved.exists_record_of_contentType {look : Lookup} {id : Option AttachmentId}
    {r : Resolved} (h : ofId? look id = .ok r) {t : String} (ht : r.contentType = some t) :
    ∃ name a, id = some name ∧ look.attachment name = .ok (some a) ∧ a.contentType = t := by
  obtain ⟨o, rfl, hrecord⟩ := exists_of_ofId? h
  cases o with
  | none => cases ht
  | some a =>
    obtain ⟨name, hname, hheld⟩ := hrecord a rfl
    refine ⟨name, a, hname, hheld, Option.some.inj (Eq.trans ?_ ht)⟩
    rcases a with s | p
    · rfl
    · rw [ofRecord?]
      split <;> rfl

namespace QuotedAttachment

/-- A quoted attachment that is described as the stream or the pointer that it comes with is. -/
structure Faithful (a : QuotedAttachment) : Prop where
  failed : ∀ p ∈ a.failed?, p.state = .failed
  stream : ∀ s ∈ a.stream?, a.contentType = some s.contentType ∧
    ∀ name ∈ s.sourceFilename, a.sourceFilename = some name
  pointer : ∀ p ∈ a.failed?, a.contentType = some p.contentType ∧
    ∀ name ∈ p.sourceFilename, a.sourceFilename = some name

theorem stream?_eq_none_or (a : QuotedAttachment) : a.stream? = none ∨ a.failed? = none := by
  rcases a with ⟨contentType, sourceFilename, s | p | _⟩
  · exact .inr rfl
  · exact .inl rfl
  · exact .inl rfl

theorem faithful_of_none {a : QuotedAttachment} (hstream : a.stream? = none)
    (hfailed : a.failed? = none) : a.Faithful := by
  constructor
  all_goals
    intro x hx
    simp [hstream, hfailed] at hx

theorem faithful_ofResolved {r : Resolved} (hfailed : ∀ p, r = .failed p → p.state = .failed)
    (contentType sourceFilename : Option String) :
    (ofResolved r contentType sourceFilename).Faithful := by
  cases r with
  | stream s =>
    constructor
    · rintro _ ⟨⟩
    · rintro _ ⟨⟩
      refine ⟨rfl, fun name hname => ?_⟩
      rw [ofResolved, Resolved.sourceFilename, Option.mem_def.mp hname, Option.some_or]
    · rintro _ ⟨⟩
  | failed p =>
    constructor
    · rintro _ ⟨⟩
      exact hfailed p rfl
    · rintro _ ⟨⟩
    · rintro _ ⟨⟩
      refine ⟨rfl, fun name hname => ?_⟩
      rw [ofResolved, Resolved.sourceFilename, Option.mem_def.mp hname, Option.some_or]
  | missing pending => exact faithful_of_none rfl rfl

/-- The content type that a sticker is given where none is known changes nothing of this: there is
then neither a stream nor a pointer. -/
theorem faithful_stickerAttachment {look : Lookup} {info : StickerRef} {r : Resolved}
    (hfailed : ∀ p, r = .failed p → p.state = .failed) {a : QuotedAttachment}
    (h : Snapshot.stickerAttachment look info r = .ok a) : a.Faithful := by
  rw [Snapshot.stickerAttachment] at h
  split at h
  · cases h
    exact faithful_ofResolved hfailed none none
  · rename_i hnone
    obtain ⟨installed, -, rfl⟩ := map_eq_ok_iff.mp h
    cases r with
    | stream s => cases hnone
    | failed p => cases hnone
    | missing pending => exact faithful_of_none rfl rfl

end QuotedAttachment

namespace Snapshot

variable {look : Lookup} {source : Source} {s : Snapshot}

/-- The text is frozen as it is. -/
theorem Frozen.body (h : Frozen look source s.content) :
    s.body = source.body? ∧ s.ranges = source.ranges? := by
  obtain ⟨timestamp, author, remote, content⟩ := s
  dsimp only at h
  cases h <;> exact ⟨rfl, rfl⟩

theorem Frozen.faithful (h : Frozen look source s.content) :
    ∀ a ∈ s.content.attachment?, a.Faithful := by
  obtain ⟨timestamp, author, remote, content⟩ := s
  dsimp only at h
  cases h with
  | attachment hr =>
    rintro _ ⟨⟩
    refine QuotedAttachment.faithful_ofResolved (fun p hp => ?_) _ _
    exact Resolved.state_of_ofId? (hp ▸ hr)
  | sticker hr ha =>
    rintro _ ⟨⟩
    refine QuotedAttachment.faithful_stickerAttachment (fun p hp => ?_) ha
    exact Resolved.state_of_ofId? (hp ▸ hr)
  | text hbody => rintro _ ⟨⟩
  | contact => rintro _ ⟨⟩
  | deleted => rintro _ ⟨⟩
  | expired => rintro _ ⟨⟩

theorem Frozen.of_shape_sticker (h : Frozen look source s.content) (hshape : s.shape = .sticker) :
    s.contentType.isSome = true ∧ s.body = none := by
  obtain ⟨timestamp, author, remote, content⟩ := s
  dsimp only at h
  cases h with
  | sticker hr ha =>
    exact ⟨Option.isSome_iff_ne_none.mpr (contentType_stickerAttachment ha), rfl⟩
  | text hbody => cases hshape
  | attachment hr => cases hshape
  | contact => cases hshape
  | deleted => cases hshape
  | expired => cases hshape

/-- What is asked of a snapshot about its attachment is asked of that attachment. -/
theorem wellFormed_attachment (h : ∀ a ∈ s.content.attachment?, a.Faithful) :
    ¬(s.stream?.isSome = true ∧ s.failedPointer?.isSome = true) ∧
      (∀ p ∈ s.failedPointer?, p.state = .failed) ∧
      (∀ a ∈ s.stream?, s.Describes a.contentType a.sourceFilename) ∧
      ∀ p ∈ s.failedPointer?, s.Describes p.contentType p.sourceFilename := by
  simp only [Describes, stream?, failedPointer?, contentType, sourceFilename]
  cases ha : s.content.attachment? with
  | none => simp
  | some a =>
    simp only [Option.bind_some]
    refine ⟨?_, (h a ha).failed, (h a ha).stream, (h a ha).pointer⟩
    rcases a.stream?_eq_none_or with hnone | hnone <;> simp [hnone]

/-- A part with a legible text is frozen well-formed. -/
theorem Frozen.wellFormed (h : Frozen look source s.content)
    (hlegible : Source.Legible source.body? source.ranges?) : s.WellFormed := by
  obtain ⟨hbody, hranges⟩ := h.body
  rw [← hbody, ← hranges] at hlegible
  obtain ⟨hexclusive, hfailed, hstream, hpointer⟩ := wellFormed_attachment h.faithful
  refine ⟨fun text htext => ?_, fun r hr => ⟨?_, ?_⟩, h.of_shape_sticker, hexclusive, hfailed,
    hstream, hpointer⟩
  · have hshows := hlegible.shows text htext
    rw [Text.IsBlankText] at hshows
    push Not at hshows
    simpa only [Bool.not_eq_true] using hshows
  · have hsome := hlegible.styles r hr
    rintro hnil
    simp [TextRanges.isEmpty, hnil] at hsome
  · by_contra hnone
    rw [Bool.not_eq_true, Option.isSome_eq_false_iff, Option.isNone_iff_eq_none] at hnone
    rw [hlegible.styles_text hnone] at hr
    cases hr

/-- The attachment of an item that is shown was looked at before: what is frozen of it is what was
found then. -/
theorem Frozen.media {i : Item} (h : Frozen look source s.content)
    (hsource : Source.ofItem look i = .ok source) (hshape : s.shape = .attachmentWithCaption) :
    s.contentType ≠ some "text/x-signal-plain" := by
  intro htype
  obtain ⟨timestamp, author, remote, content⟩ := s
  dsimp only at h
  cases Source.decided_of_ofItem hsource with
  | deleted =>
    cases h
    cases hshape
  | expired =>
    cases h
    cases hshape
  | sticker hs =>
    cases h
    cases hshape
  | contact name =>
    cases h
    cases hshape
  | @captioned id hprimary =>
    obtain ⟨caption, ranges, heq, -⟩ := Source.exists_caption (some id) i.body i.ranges none none
    rw [heq] at h
    cases h with | @attachment _ _ _ _ _ r hr =>
    have hknown : r.contentType = some "text/x-signal-plain" := by
      simpa [contentType, Content.attachment?, QuotedAttachment.ofResolved] using htype
    obtain ⟨name, a, hname, hheld, ha⟩ := Resolved.exists_record_of_contentType hr hknown
    cases hname
    obtain ⟨before, after, -, -, o, ho, hmedia⟩ := Source.firstMedia_of_primaryAttachment hprimary
    cases ho.symm.trans hheld
    exact hmedia a rfl ha
  | text htext =>
    obtain ⟨text, ranges, rfl, -⟩ := Source.exists_plainText_of_ofText htext
    cases h
    cases hshape

theorem Frozen.wellChosen {i : Item} (h : Frozen look source s.content)
    (hsource : Source.ofItem look i = .ok source) : s.WellChosen := by
  refine ⟨h.media hsource, fun hname => ?_⟩
  have htidy := (tidy_wire (Source.tidy_ofItem hsource) h s.timestamp s.author
    s.isRemotelySourced).filename
  have hfilename : s.contentType = none → s.sourceFilename = none := by
    simpa only [wire_contentType, wire_sourceFilename] using htidy
  by_contra hnone
  rw [Bool.not_eq_true, Option.isSome_eq_false_iff, Option.isNone_iff_eq_none] at hnone
  rw [hfilename hnone] at hname
  cases hname

end Snapshot

/-- Every quote is well-formed, whatever the lookups answer; and the quote of an item, of a kept
message, or of the message that a record leads to shows neither the rest of a long text nor the name
of a file without its type. -/
theorem wellFormed_quote (config : Config) (look : Lookup) (request : Request) (s : Snapshot)
    (h : request.quote config look = .ok s) :
    s.WellFormed ∧ (request.HasItem look → s.WellChosen) := by
  obtain ⟨source, hshows, hfrozen⟩ := Request.exists_shows h
  refine ⟨hfrozen.wellFormed hshows.legible, fun hitem => ?_⟩
  cases hshows with
  | item hsource => exact hfrozen.wellChosen hsource
  | message hfound hsource => exact hfrozen.wellChosen hsource
  | original hfound hsource => exact hfrozen.wellChosen hsource
  | record hnone hsource => exact absurd hnone hitem

/-- An item of a long text and a picture that could not be fetched: the picture is quoted with the
beginning of the text as its caption, and the empty list of ranges is dropped. -/
theorem wellFormed_quote_picture :
    let rest : AttachmentStream :=
      ⟨⟨⟨.replicate 16 1⟩⟩, "text/x-signal-plain", none, 9, "/tmp/rest", .replicate 32 1⟩
    let picture : AttachmentPointer := ⟨⟨⟨.replicate 16 2⟩⟩, "image/png", some "a.png", 7, "key",
      .failed⟩
    let now : Instant := ⟨0, 0, by decide⟩
    let ops : List Store.Operation := [.insertAttachment (.stream rest) now,
      .insertAttachment (.pointer picture) now]
    let look := (Store.Database.fresh.run ops).lookup
    let i : Item :=
      { timestamp := 1000, author := ⟨⟨.replicate 16 3⟩, none⟩, body := some "look"
        ranges := some ⟨[]⟩, attachments := [rest.id, picture.id] }
    let s : Snapshot := ⟨1000, i.author, false,
      .attachment (some "look") none ⟨some "image/png", some "a.png", .failedThumbnail picture⟩⟩
    (Request.item i).quote {} look = .ok s ∧ s.WellFormed ∧ s.WellChosen := by
  intro rest picture now ops look i s
  have hrest : look.attachment rest.id = .ok (some (.stream rest)) :=
    Store.attachment?_run ops rest.id
  have hpicture : look.attachment picture.id = .ok (some (.pointer picture)) :=
    Store.attachment?_run ops picture.id
  have hquote : (Request.item i).quote {} look = .ok s := by
    have hprimary : Source.primaryAttachment look i.attachments = .ok (some picture.id) := by
      refine Source.primaryAttachment_of_firstMedia ⟨[rest.id], [], rfl, ?_, _, hpicture, ?_⟩
      · exact List.forall_mem_singleton.mpr ⟨_, hrest, rfl⟩
      · rintro _ ⟨⟩
        decide
    have hsource : Source.ofItem look i =
        .ok (.attachmentWithCaption (some picture.id) (some "look") none none none) := by
      rw [Source.ofItem, hprimary]
      rfl
    exact Snapshot.ofItem_of_attachmentWithCaption hsource hpicture
  obtain ⟨hformed, hchosen⟩ := wellFormed_quote {} look (.item i) s hquote
  exact ⟨hquote, hformed, hchosen trivial⟩

end Quotation
