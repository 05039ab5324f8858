import Quotation.Proofs.Except
import Quotation.Quote.Sending

/-!
# What a quote carries

The quote of an item carries no blank text and no empty list of ranges, ranges only with a text, and
the name of a file only with a content type. A record that is so is shown as it is.

* `Source.Tidy`, `WireQuote.Tidy`, `Snapshot.tidy_wire_of_ofItem`;
* `Snapshot.ofRecord_ofWire`: what is made of such a quote where the quoted message is not known.
-/

namespace Quotation

namespace Source

/-- A text and ranges that can be shown as they are. -/
structure Legible (body : Option String) (ranges : Option TextRanges) : Prop where
  shows : ∀ s ∈ body, ¬Text.IsBlankText s
  styles : ∀ r ∈ ranges, r.isEmpty = false
  styles_text : body = none → ranges = none

theorem nonBlank?_eq_some {body : Option String} {s : String} (h : nonBlank? body = some s) :
    body = some s ∧ ¬Text.IsBlankText s := by
  rw [nonBlank?, Option.filter_eq_some_iff] at h
  exact ⟨h.1, by simpa using h.2⟩

theorem legible_none : Legible none none :=
  ⟨by simp, by simp, fun _ => rfl⟩

theorem legible_nonBlank {body : Option String} {s : String} (h : nonBlank? body = some s)
    (ranges : Option TextRanges) : Legible (some s) (someRanges? ranges) where
  shows := by simpa using (nonBlank?_eq_some h).2
  styles r hr := by
    rw [Option.mem_def, someRanges?, Option.filter_eq_some_iff] at hr
    simpa using hr.2
  styles_text := nofun

namespace Legible

variable {body : Option String} {ranges : Option TextRanges}

theorem nonBlank?_eq (h : Legible body ranges) : nonBlank? body = body := by
  cases body with
  | none => rfl
  | some s =>
    rw [nonBlank?, Option.filter_some, if_pos]
    simpa using h.shows s rfl

theorem someRanges?_eq (h : Legible body ranges) : someRanges? ranges = ranges := by
  cases ranges with
  | none => rfl
  | some r =>
    rw [someRanges?, Option.filter_some, if_pos]
    simpa using h.styles r rfl

/-- A legible text is shown as it is. -/
theorem ofText_eq {s : String} (h : Legible (some s) ranges) :
    ofText (some s) ranges = .ok (.plainText s ranges) := by
  rw [ofText, h.nonBlank?_eq, h.someRanges?_eq]

/-- A legible caption is shown as it is. -/
theorem captioned_eq (h : Legible body ranges) (id : Option AttachmentId)
    (contentType sourceFilename : Option String) :
    captioned id body ranges contentType sourceFilename =
      .attachmentWithCaption id body ranges contentType sourceFilename := by
  rw [captioned, h.nonBlank?_eq]
  cases body with
  | none => rw [h.styles_text rfl]
  | some s => rw [h.someRanges?_eq]

end Legible

/-- What holds of the part of an item that a quote shows. -/
def Tidy : Source → Prop
  | plainText body ranges => Legible (some body) ranges
  | attachmentWithCaption _ caption ranges contentType sourceFilename =>
    Legible caption ranges ∧ (contentType = none → sourceFilename = none)
  | _ => True

theorem exists_plainText_of_ofText {body : Option String} {ranges : Option TextRanges}
    {source : Source} (h : ofText body ranges = .ok source) :
    ∃ s ranges', source = .plainText s ranges' ∧ Legible (some s) ranges' := by
  unfold ofText at h
  cases hbody : nonBlank? body with
  | none =>
    rw [hbody] at h
    cases h
  | some s =>
    rw [hbody] at h
    cases h
    exact ⟨s, _, rfl, legible_nonBlank hbody ranges⟩

theorem exists_caption (id : Option AttachmentId) (body : Option String)
    (ranges : Option TextRanges) (contentType sourceFilename : Option String) :
    ∃ caption ranges', captioned id body ranges contentType sourceFilename =
      .attachmentWithCaption id caption ranges' contentType sourceFilename ∧
        Legible caption ranges' := by
  unfold captioned
  cases hbody : nonBlank? body with
  | none => exact ⟨none, none, rfl, legible_none⟩
  | some s => exact ⟨some s, _, rfl, legible_nonBlank hbody ranges⟩

/-- What may be decided for an item. -/
inductive Decided (look : Lookup) (i : Item) : Source → Prop
  | deleted : Decided look i .remotelyDeleted
  | expired : Decided look i .viewOnceExpired
  | sticker {s : Sticker} (hs : i.sticker = some s) :
      Decided look i (.sticker s.info (some s.attachment))
  | contact (name : String) : Decided look i (.contactShare name)
  | captioned {id : AttachmentId} (h : primaryAttachment look i.attachments = .ok (some id)) :
      Decided look i (captioned (some id) i.body i.ranges none none)
  | text {source : Source} (h : ofText i.body i.ranges = .ok source) : Decided look i source

theorem decided_of_ofItem {look : Lookup} {i : Item} {source : Source}
    (h : ofItem look i = .ok source) : Decided look i source := by
  unfold ofItem at h
  split at h
  · cases h
    exact .deleted
  split at h
  · cases h
    exact .expired
  split at h
  · rename_i hs
    cases h
    exact .sticker hs
  split at h
  · cases h
    exact .contact _
  split at h
  · cases h
  · rename_i hprimary
    cases h
    exact .captioned hprimary
  · exact .text h

theorem tidy_ofItem {look : Lookup} {i : Item} {source : Source}
    (h : ofItem look i = .ok source) : source.Tidy := by
  cases decided_of_ofItem h with
  | deleted => trivial
  | expired => trivial
  | sticker hs => trivial
  | contact name => trivial
  | @captioned id hprimary =>
    obtain ⟨caption, ranges, heq, hlegible⟩ := exists_caption (some id) i.body i.ranges none none
    rw [heq]
    exact ⟨hlegible, fun _ => rfl⟩
  | text htext =>
    obtain ⟨s, ranges, rfl, hlegible⟩ := exists_plainText_of_ofText htext
    exact hlegible

end Source

/-- A quote whose parts are shown as they are. -/
structure WireQuote.Tidy (q : WireQuote) : Prop where
  legible : Source.Legible q.body q.ranges
  filename : q.contentType = none → q.sourceFilename = none

namespace QuotedAttachment

/-- Of an attachment of unknown type the name of the file is not known either. -/
theorem sourceFilename_ofResolved {r : Resolved} {contentType sourceFilename : Option String}
    (h : contentType = none → sourceFilename = none)
    (hnone : (ofResolved r contentType sourceFilename).contentType = none) :
    (ofResolved r contentType sourceFilename).sourceFilename = none := by
  cases r with
  | stream s => cases hnone
  | failed p => cases hnone
  | missing pending =>
    cases pending with
    | none =>
      have hnone' : contentType = none := hnone
      exact h hnone'
    | some p => cases hnone

end QuotedAttachment

namespace Snapshot

/-- A quote of an item is made in two steps: it is decided what it shows, and that is frozen. -/
theorem ofItem_eq_ok_iff {look : Lookup} {i : Item} {s : Snapshot} :
    ofItem look i = .ok s ↔ ∃ source content, Source.ofItem look i = .ok source ∧
      contentOf look source = .ok content ∧ ⟨i.timestamp, i.author, false, content⟩ = s := by
  simp only [ofItem, build, bind_eq_ok_iff, map_eq_ok_iff]
  constructor
  · rintro ⟨source, hsource, content, hcontent, hs⟩
    exact ⟨source, content, hsource, hcontent, hs⟩
  · rintro ⟨source, content, hsource, hcontent, hs⟩
    exact ⟨source, hsource, content, hcontent, hs⟩

/-- An attachment that is to be shown is quoted as the record of it says. -/
theorem ofItem_of_attachmentWithCaption {look : Lookup} {i : Item} {id : AttachmentId}
    {caption : Option String} {ranges : Option TextRanges}
    {contentType sourceFilename : Option String}
    (hsource : Source.ofItem look i =
      .ok (.attachmentWithCaption (some id) caption ranges contentType sourceFilename))
    {o : Option Attachment} (hheld : look.attachment id = .ok o) :
    ofItem look i = .ok ⟨i.timestamp, i.author, false, .attachment caption ranges
      (.ofResolved (.ofRecord? o) contentType sourceFilename)⟩ := by
  refine ofItem_eq_ok_iff.mpr ⟨_, _, hsource, ?_, rfl⟩
  rw [contentOf, Resolved.ofId?, Resolved.ofId, hheld]
  rfl

/-- The content type of a quoted sticker is always known. -/
theorem contentType_stickerAttachment {look : Lookup} {info : StickerRef} {r : Resolved}
    {a : QuotedAttachment} (h : stickerAttachment look info r = .ok a) :
    a.contentType ≠ none := by
  rw [stickerAttachment] at h
  split at h
  · rename_i hsome
    cases h
    simp [hsome]
  · -- nothing is known of the attachment: the installed sticker or the default tells the type
    obtain ⟨installed, -, rfl⟩ := map_eq_ok_iff.mp h
    simp

/-- How each part of a message is frozen. -/
inductive Frozen (look : Lookup) : Source → Content → Prop
  | text {body : String} {ranges : Option TextRanges} (h : ¬Text.IsBlankText body) :
      Frozen look (.plainText body ranges) (.text body ranges)
  | attachment {id : Option AttachmentId} {caption : Option String} {ranges : Option TextRanges}
      {contentType sourceFilename : Option String} {r : Resolved}
      (h : Resolved.ofId? look id = .ok r) :
      Frozen look (.attachmentWithCaption id caption ranges contentType sourceFilename)
        (.attachment caption ranges (.ofResolved r contentType sourceFilename))
  | sticker {info : StickerRef} {id : Option AttachmentId} {r : Resolved} {a : QuotedAttachment}
      (h : Resolved.ofId? look id = .ok r) (ha : stickerAttachment look info r = .ok a) :
      Frozen look (.sticker info id) (.sticker info a)
  | contact {name : String} : Frozen look (.contactShare name) (.contactShare name)
  | deleted : Frozen look .remotelyDeleted .remotelyDeleted
  | expired : Frozen look .viewOnceExpired .viewOnceExpired

theorem frozen_of_contentOf {look : Lookup} {source : Source} {content : Content}
    (h : contentOf look source = .ok content) : Frozen look source content := by
  cases source with
  | plainText body ranges =>
    rw [contentOf] at h
    split at h
    · cases h
    · rename_i hbody
      cases h
      exact .text hbody
  | attachmentWithCaption id caption ranges contentType sourceFilename =>
    obtain ⟨r, hr, rfl⟩ := map_eq_ok_iff.mp h
    exact .attachment hr
  | sticker info id =>
    obtain ⟨a, ha, rfl⟩ := map_eq_ok_iff.mp h
    obtain ⟨r, hr, ha⟩ := bind_eq_ok_iff.mp ha
    exact .sticker hr ha
  | contactShare name =>
    cases h
    exact .contact
  | remotelyDeleted =>
    cases h
    exact .deleted
  | viewOnceExpired =>
    cases h
    exact .expired

/-- A snapshot of a tidy part is sent as a tidy quote. -/
theorem tidy_wire {look : Lookup} {source : Source} (hsource : source.Tidy) {content : Content}
    (h : Frozen look source content) (timestamp : UInt64) (author : Address) (remote : Bool) :
    (wire ⟨timestamp, author, remote, content⟩).Tidy := by
  cases h with
  | text hbody => exact ⟨hsource, fun _ => rfl⟩
  | attachment hr => exact ⟨hsource.1, QuotedAttachment.sourceFilename_ofResolved hsource.2⟩
  | sticker hr ha =>
    exact ⟨Source.legible_none, fun hnone => absurd hnone (contentType_stickerAttachment ha)⟩
  | contact => exact ⟨Source.legible_none, fun _ => rfl⟩
  | deleted => exact ⟨Source.legible_none, fun _ => rfl⟩
  | expired => exact ⟨Source.legible_none, fun _ => rfl⟩

/-- The quote of an item is sent as a tidy quote. -/
theorem tidy_wire_of_ofItem {look : Lookup} {i : Item} {s : Snapshot}
    (h : ofItem look i = .ok s) : s.wire.Tidy := by
  obtain ⟨source, content, hsource, hcontent, rfl⟩ := ofItem_eq_ok_iff.mp h
  exact tidy_wire (Source.tidy_ofItem hsource) (frozen_of_contentOf hcontent) _ _ _

section Wire

variable (s : Snapshot)

@[simp] theorem wire_author : s.wire.author = s.author := by
  cases h : s.content <;> simp [wire, h]

@[simp] theorem wire_timestamp : s.wire.timestamp = s.timestamp := by
  cases h : s.content <;> simp [wire, h]

@[simp] theorem wire_body : s.wire.body = s.body := by
  cases h : s.content <;> simp [wire, body, h]

@[simp] theorem wire_ranges : s.wire.ranges = s.ranges := by
  cases h : s.content <;> simp [wire, ranges, h]

@[simp] theorem wire_contentType : s.wire.contentType = s.contentType := by
  cases h : s.content <;> simp [wire, contentType, Content.attachment?, h]

@[simp] theorem wire_sourceFilename : s.wire.sourceFilename = s.sourceFilename := by
  cases h : s.content <;> simp [wire, sourceFilename, Content.attachment?, h]

end Wire

/-- A tidy quote that has a text or a content type is shown, where the quoted message is not known,
so that it would be sent on as it is, but for the attachment, which stays with its sender. -/
theorem ofRecord_ofWire {q : WireQuote} (hq : q.Tidy)
    (hcontent : q.body.isSome = true ∨ q.contentType.isSome = true) (config : Config)
    {look : Lookup} (hnone : look.messageAt q.timestamp q.author = .ok none) :
    ∃ s, ofRecord config look (.ofWire q none) = .ok s ∧
      s.wire = { q with attachment := none } := by
  have hmessage : look.messageAt (QuoteRecord.ofWire q none).timestamp
      (QuoteRecord.ofWire q none).author = .ok none := hnone
  rw [ofRecord, hmessage]
  obtain ⟨author, timestamp, body, ranges, attachment, contentType, sourceFilename⟩ := q
  obtain ⟨hlegible, hfilename⟩ := hq
  cases contentType with
  | none =>
    -- without a content type it is the text that is shown, and no file name can be lost
    obtain rfl : sourceFilename = none := hfilename rfl
    obtain ⟨text, rfl⟩ : ∃ text, body = some text :=
      Option.isSome_iff_exists.mp (hcontent.resolve_right (by simp))
    have hsource : Source.ofRecord (.ofWire ⟨author, timestamp, some text, ranges, attachment, none,
        none⟩ none) = .ok (.plainText text ranges) :=
      hlegible.ofText_eq
    have hcontent : contentOf look (.plainText text ranges) = .ok (.text text ranges) :=
      if_neg (hlegible.shows text rfl)
    simp only [hsource, Except.bind, build, hcontent, Except.map]
    exact ⟨_, rfl, rfl⟩
  | some found =>
    have hsource : Source.ofRecord (.ofWire ⟨author, timestamp, body, ranges, attachment,
        some found, sourceFilename⟩ none) =
        .ok (.attachmentWithCaption none body ranges (some found) sourceFilename) :=
      congrArg Except.ok (hlegible.captioned_eq none (some found) sourceFilename)
    simp only [hsource, Except.bind, build]
    exact ⟨_, rfl, rfl⟩

end Snapshot

end Quotation
