import Quotation.Proofs.Quote.Kinds
import Quotation.Proofs.Quote.Pipeline
import Quotation.Proofs.Store.Lifecycle

/-!
# Quotes and downloads

Noting how far downloads are and completing them changes of the quote of a message only what this
device has of the quoted attachment: its bytes, a pointer to them that has failed, or neither.

* `Holdings.SameRecords`: holdings that differ in the states of attachments only;
* `Item.Shows.of_sameRecords`: what is shown of an item where such holdings take each other's place;
* `Operation.IsDownload`, `Contents.sameRecords_run`: downloads lead to such holdings;
* `QuotedIn`, `quote_after_downloads`.
-/

namespace Quotation

/-! ### Holdings that differ in states only -/

namespace Holdings

/-- Whether the same is known of each attachment but where its bytes are, and the same of each
sticker. -/
structure SameRecords (held held' : Holdings) : Prop where
  contentType : ∀ id,
    (held'.attachment? id).map (·.contentType) = (held.attachment? id).map (·.contentType)
  sourceFilename : ∀ id,
    (held'.attachment? id).map (·.sourceFilename) = (held.attachment? id).map (·.sourceFilename)
  sticker : held'.sticker? = held.sticker?

variable (held : Holdings)

/-- Whether the quote of an item refers to an attachment: that of its sticker, or the first that is
not known to be the rest of a long text if it has no sticker. -/
inductive Refers (i : Item) : AttachmentId → Prop
  | sticker {s : Sticker} (hs : i.sticker = some s) : Refers i s.attachment
  | first {id : AttachmentId} (hs : i.sticker = none) (hfirst : held.FirstMedia i.attachments id) :
      Refers i id

theorem isRestOfText_iff (id : AttachmentId) : held.IsRestOfText id ↔
    (held.attachment? id).map (·.contentType) = some "text/x-signal-plain" := by
  rw [IsRestOfText, Option.map_eq_some_iff]

theorem contentType_quoted (id : AttachmentId) :
    (held.quoted id).contentType = (held.attachment? id).map (·.contentType) := by
  rw [quoted]
  rcases held.attachment? id with _ | s | p <;> rfl

theorem sourceFilename_quoted (id : AttachmentId) :
    (held.quoted id).sourceFilename =
      ((held.attachment? id).map (·.sourceFilename)).join := by
  rw [quoted]
  rcases held.attachment? id with _ | s | p <;> rfl

/-- A quoted attachment has the stream exactly if the bytes are here. -/
theorem isSome_stream?_quoted {id : AttachmentId} :
    (held.quoted id).stream?.isSome = true ↔ ∃ s, held.attachment? id = some (.stream s) := by
  rw [quoted]
  rcases held.attachment? id with _ | s | p
  · simp [QuotedAttachment.stream?]
  · simp [QuotedAttachment.stream?]
  · by_cases hstate : p.state = .failed <;> simp [QuotedAttachment.stream?, hstate]

/-- It has the pointer exactly if fetching the bytes has failed. -/
theorem isSome_failed?_quoted {id : AttachmentId} :
    (held.quoted id).failed?.isSome = true ↔
      ∃ p, held.attachment? id = some (.pointer p) ∧ p.state = .failed := by
  rw [quoted]
  rcases held.attachment? id with _ | s | p
  · simp [QuotedAttachment.failed?]
  · simp [QuotedAttachment.failed?]
  · by_cases hstate : p.state = .failed <;> simp [QuotedAttachment.failed?, hstate]

namespace SameRecords

variable {held held' : Holdings}

theorem isRestOfText (h : held.SameRecords held') (id : AttachmentId) :
    held'.IsRestOfText id ↔ held.IsRestOfText id := by
  rw [isRestOfText_iff, isRestOfText_iff, h.contentType]

theorem firstMedia (h : held.SameRecords held') {ids : List AttachmentId} {id : AttachmentId}
    (hfirst : held.FirstMedia ids id) : held'.FirstMedia ids id := by
  obtain ⟨before, after, rfl, hbefore, hid⟩ := hfirst
  refine ⟨before, after, rfl, fun j hj => ?_, fun hrest => ?_⟩
  · exact (h.isRestOfText j).mpr (hbefore j hj)
  · exact hid ((h.isRestOfText id).mp hrest)

theorem quoted (h : held.SameRecords held') (id : AttachmentId) :
    (held'.quoted id).contentType = (held.quoted id).contentType ∧
      (held'.quoted id).sourceFilename = (held.quoted id).sourceFilename := by
  rw [contentType_quoted, contentType_quoted, sourceFilename_quoted, sourceFilename_quoted,
    h.contentType, h.sourceFilename]
  exact ⟨rfl, rfl⟩

theorem quotedSticker (h : held.SameRecords held') (s : Sticker) :
    (held'.quotedSticker s).contentType = (held.quotedSticker s).contentType ∧
      (held'.quotedSticker s).sourceFilename = (held.quotedSticker s).sourceFilename := by
  obtain ⟨htype, hname⟩ := h.quoted s.attachment
  refine ⟨?_, hname⟩
  simp only [Holdings.quotedSticker, htype, h.sticker]

end SameRecords

end Holdings

namespace Item

variable {held held' : Holdings} {i : Item}

/-- The quote of an attachment or a sticker shows the same of it where only states differ. -/
theorem Shows.of_sameRecords (h : held.SameRecords held') {c : Content} (hc : i.Shows held c)
    (hshape : c.shape = .attachmentWithCaption ∨ c.shape = .sticker) :
    ∃ id, held.Refers i id ∧
      ((∃ caption ranges, c = .attachment caption ranges (held.quoted id) ∧
        i.Shows held' (.attachment caption ranges (held'.quoted id))) ∨
      ∃ s, s.attachment = id ∧ c = .sticker s.info (held.quotedSticker s) ∧
        i.Shows held' (.sticker s.info (held'.quotedSticker s))) := by
  cases hc with
  | sticker hvisible hs => exact ⟨_, .sticker hs, .inr ⟨_, rfl, rfl, .sticker hvisible hs⟩⟩
  | captioned hplain hfirst hs hnonblank =>
    exact ⟨_, .first hplain.noSticker hfirst,
      .inl ⟨_, _, rfl, .captioned hplain (h.firstMedia hfirst) hs hnonblank⟩⟩
  | uncaptioned hplain hfirst hblank =>
    exact ⟨_, .first hplain.noSticker hfirst,
      .inl ⟨_, _, rfl, .uncaptioned hplain (h.firstMedia hfirst) hblank⟩⟩
  | deleted _ => simp [Content.shape] at hshape
  | expired _ _ _ => simp [Content.shape] at hshape
  | contact _ _ _ => simp [Content.shape] at hshape
  | text _ _ _ _ => simp [Content.shape] at hshape

end Item

/-- Whether two snapshots of one message agree in all but the state of the quoted attachment. -/
structure Snapshot.SameButState (s t : Snapshot) : Prop where
  shape : t.shape = s.shape
  timestamp : t.timestamp = s.timestamp
  author : t.author = s.author
  isRemotelySourced : t.isRemotelySourced = s.isRemotelySourced
  body : t.body = s.body
  ranges : t.ranges = s.ranges
  contentType : t.contentType = s.contentType
  sourceFilename : t.sourceFilename = s.sourceFilename
  sticker : t.sticker? = s.sticker?
  contactName : t.contactName? = s.contactName?
  /-- As they are sent, they differ at most in the attachment. -/
  wire : t.wire = { s.wire with attachment := t.wire.attachment }

/-- Whether a snapshot is sent with the attachment exactly if it has the stream, or without it as
that of a sticker. -/
structure Snapshot.SendsStream (s : Snapshot) : Prop where
  attachment : s.shape = .attachmentWithCaption →
    (s.wire.attachment.isSome = true ↔ s.stream?.isSome = true)
  sticker : s.shape = .sticker → s.wire.attachment = none

theorem Snapshot.sendsStream (s : Snapshot) : s.SendsStream := by
  rcases s with ⟨timestamp, author, isRemotelySourced, content⟩
  refine ⟨fun hshape => ?_, fun hshape => ?_⟩
  · cases content with
    | attachment caption ranges a => simp [wire, stream?, Content.attachment?]
    | _ => cases hshape
  · cases content with
    | sticker info a => rfl
    | _ => cases hshape

namespace Snapshot

variable {held held' : Holdings} {look look' : Lookup} {i : Item}

section SameButState

variable {timestamp : UInt64} {author : Address} {isRemotelySourced : Bool} {a b : QuotedAttachment}
  (htype : b.contentType = a.contentType) (hname : b.sourceFilename = a.sourceFilename)

include htype hname

theorem sameButState_attachment {caption : Option String} {ranges : Option TextRanges} :
    SameButState ⟨timestamp, author, isRemotelySourced, .attachment caption ranges a⟩
      ⟨timestamp, author, isRemotelySourced, .attachment caption ranges b⟩ where
  shape := rfl
  timestamp := rfl
  author := rfl
  isRemotelySourced := rfl
  body := rfl
  ranges := rfl
  contentType := htype
  sourceFilename := hname
  sticker := rfl
  contactName := rfl
  wire := by simp only [wire, htype, hname]

theorem sameButState_sticker {info : StickerRef} :
    SameButState ⟨timestamp, author, isRemotelySourced, .sticker info a⟩
      ⟨timestamp, author, isRemotelySourced, .sticker info b⟩ where
  shape := rfl
  timestamp := rfl
  author := rfl
  isRemotelySourced := rfl
  body := rfl
  ranges := rfl
  contentType := htype
  sourceFilename := hname
  sticker := rfl
  contactName := rfl
  wire := by simp only [wire, htype, hname]

end SameButState

/-- The quote of an attachment or a sticker where only states differ. -/
theorem ofItem_of_sameRecords (hlook : look.Answers held) (hlook' : look'.Answers held')
    (h : held.SameRecords held') {s : Snapshot} (hs : ofItem look i = .ok s)
    (hshape : s.shape = .attachmentWithCaption ∨ s.shape = .sticker) :
    ∃ id t, held.Refers i id ∧ ofItem look' i = .ok t ∧ s.SameButState t ∧
      t.stream? = (held'.quoted id).stream? ∧ t.failedPointer? = (held'.quoted id).failed? := by
  obtain ⟨c, hc, rfl⟩ := exists_shows_of_ofItem hlook hs
  obtain ⟨id, hid, ⟨caption, ranges, rfl, hshows⟩ | ⟨s, rfl, rfl, hshows⟩⟩ :=
    hc.of_sameRecords h hshape
  · obtain ⟨htype, hname⟩ := h.quoted id
    refine ⟨id, _, hid, ofItem_of_shows hlook' hshows, ?_, rfl, rfl⟩
    exact sameButState_attachment htype hname
  · obtain ⟨htype, hname⟩ := h.quotedSticker s
    refine ⟨s.attachment, _, hid, ofItem_of_shows hlook' hshows, ?_, rfl, rfl⟩
    exact sameButState_sticker htype hname

end Snapshot

namespace Store

/-! ### Downloads -/

/-- Whether an operation notes how far a download is or completes it. -/
def Operation.IsDownload : Operation → Prop
  | setDownloadState _ _ => True
  | completeDownload _ _ _ => True
  | _ => False

/-- Whether some operations complete the download of an attachment. -/
def Completed (db : Database) (ops : List Operation) (id : AttachmentId) : Prop :=
  ∃ before localPath contents after,
    ops = before ++ .completeDownload id localPath contents :: after ∧
      ∃ db', (db.run before).completeDownload id localPath contents = .ok db'

/-- Whether the quote of a message refers to an attachment, by what the lookups of a database
tell. -/
def QuotedIn (db : Database) (m : Message) (id : AttachmentId) : Prop :=
  ∃ held, db.lookup.Answers held ∧ held.Refers m.item id

namespace Inventory

variable {v : Inventory} {id : AttachmentId} {downloads : List Operation}

/-- Downloads add no attachment. -/
theorem run_downloads_of_none (hdownloads : ∀ op ∈ downloads, op.IsDownload) (hnone : v id = none) :
    v.run downloads id = none := by
  induction downloads generalizing v with
  | nil => exact hnone
  | cons op downloads ih =>
    rw [List.forall_mem_cons] at hdownloads
    rcases after_of_none hnone op with hnext | ⟨a, now, rfl, -, -⟩
    · exact ih hdownloads.2 hnext
    · exact hdownloads.1.elim

/-- An attachment is a stream after downloads exactly if it was one before or one of them completes
the download of what is there. -/
theorem run_downloads_stream_iff (hdownloads : ∀ op ∈ downloads, op.IsDownload) :
    (∃ s, v.run downloads id = some (.stream s)) ↔ (∃ s, v id = some (.stream s)) ∨
      (∃ a, v id = some a) ∧ ∃ op ∈ downloads, op.Completes id := by
  constructor
  · rintro ⟨t, ht⟩
    rcases hid : v id with _ | s | p
    · cases (run_downloads_of_none hdownloads hid).symm.trans ht
    · exact .inl ⟨s, rfl⟩
    · refine .inr ⟨⟨_, rfl⟩, Classical.byContradiction fun hnone => ?_⟩
      have hopen : ∀ op ∈ downloads, ¬op.Completes id := fun op hmem hop => hnone ⟨op, hmem, hop⟩
      cases (run_pointer hid hopen).symm.trans ht
  · rintro (⟨s, hs⟩ | ⟨⟨a, ha⟩, op, hmem, hop⟩)
    · exact run_stream hs downloads
    · exact run_of_completes ha hmem hop

end Inventory

namespace Contents

variable {c : Contents} {downloads : List Operation}

/-- What is held of attachments and stickers. -/
def held (c : Contents) : Holdings where
  attachment? := c.inventory
  sticker? info :=
    c.stickers.find? fun s => s.info.packId == info.packId && s.info.number == info.number

theorem answers_held (c : Contents) : c.database.lookup.Answers c.held :=
  ⟨c.attachment?_eq_inventory, c.sticker?_eq⟩

theorem exists_after_download (c : Contents) {op : Operation} (hop : op.IsDownload) :
    ∃ as, c.after op = { c with attachments := as } := by
  cases op with
  | setDownloadState id state => exact ⟨_, rfl⟩
  | completeDownload id localPath contents =>
    rcases contents with e | bytes
    · exact ⟨_, rfl⟩
    · rw [after]
      split
      · exact ⟨_, rfl⟩
      · exact ⟨_, rfl⟩
  | _ => exact hop.elim

/-- Downloads leave the other tables alone. -/
theorem exists_run_downloads (c : Contents) (hdownloads : ∀ op ∈ downloads, op.IsDownload) :
    ∃ as, c.run downloads = { c with attachments := as } := by
  induction downloads generalizing c with
  | nil => exact ⟨_, rfl⟩
  | cons op downloads ih =>
    rw [List.forall_mem_cons] at hdownloads
    obtain ⟨as, has⟩ := c.exists_after_download hdownloads.1
    obtain ⟨as', has'⟩ := ih (c.after op) hdownloads.2
    refine ⟨as', ?_⟩
    rw [run, List.foldl_cons]
    refine has'.trans ?_
    rw [has]

theorem message?_run_downloads (hdownloads : ∀ op ∈ downloads, op.IsDownload) (id : MessageId) :
    (c.run downloads).database.message? id = c.database.message? id := by
  obtain ⟨as, has⟩ := c.exists_run_downloads hdownloads
  rw [message?_eq_answer, message?_eq_answer, has]

theorem sameRecords_run (hdownloads : ∀ op ∈ downloads, op.IsDownload) :
    c.held.SameRecords (c.run downloads).held := by
  have hsticker : (c.run downloads).stickers = c.stickers := by
    obtain ⟨as, has⟩ := c.exists_run_downloads hdownloads
    rw [has]
  -- what is there keeps its description, and nothing is added
  have hrecord : ∀ id, (c.inventory id = none ∧ (c.run downloads).inventory id = none) ∨
      ∃ a b, c.inventory id = some a ∧ (c.run downloads).inventory id = some b ∧
        a.SameDescription b := by
    intro id
    rw [inventory_run]
    cases hid : c.inventory id with
    | none => exact .inl ⟨rfl, Inventory.run_downloads_of_none hdownloads hid⟩
    | some a =>
      obtain ⟨b, hb, hsame⟩ := Inventory.run_of_some hid downloads
      exact .inr ⟨a, b, rfl, hb, hsame⟩
  refine ⟨fun id => ?_, fun id => ?_, ?_⟩
  · rcases hrecord id with ⟨hnone, hnone'⟩ | ⟨a, b, ha, hb, hsame⟩
    · simp only [held, hnone, hnone']
    · simp only [held, ha, hb, Option.map_some, hsame.contentType]
  · rcases hrecord id with ⟨hnone, hnone'⟩ | ⟨a, b, ha, hb, hsame⟩
    · simp only [held, hnone, hnone']
    · simp only [held, ha, hb, Option.map_some, hsame.sourceFilename]
  · simp only [held, hsticker]

/-- A download is completed exactly if one of the operations completes it and there is an attachment
of the name to begin with. -/
theorem completed_iff (hdownloads : ∀ op ∈ downloads, op.IsDownload) {id : AttachmentId} :
    Completed c.database downloads id ↔
      (∃ a, c.inventory id = some a) ∧ ∃ op ∈ downloads, op.Completes id := by
  constructor
  · rintro ⟨before, localPath, contents, after, rfl, hdone⟩
    rw [run_eq, completeDownload_eq_ok_iff] at hdone
    obtain ⟨⟨bytes, rfl⟩, a, ha⟩ := hdone
    rw [attachment?_eq_ok_iff, inventory_run] at ha
    refine ⟨?_, _, List.mem_append_right _ List.mem_cons_self, rfl⟩
    cases hid : c.inventory id with
    | none =>
      have hbefore : ∀ op ∈ before, op.IsDownload :=
        fun op hmem => hdownloads op (List.mem_append_left _ hmem)
      cases (Inventory.run_downloads_of_none hbefore hid).symm.trans ha
    | some b => exact ⟨b, rfl⟩
  · rintro ⟨⟨a, ha⟩, op, hmem, hop⟩
    obtain ⟨before, after, rfl⟩ := List.append_of_mem hmem
    cases op with
    | completeDownload i localPath contents =>
      rcases contents with e | bytes
      · exact hop.elim
      · obtain rfl : i = id := hop
        refine ⟨before, localPath, .ok bytes, after, rfl, ?_⟩
        obtain ⟨b, hb, -⟩ := Inventory.run_of_some ha before
        rw [run_eq, completeDownload_eq_ok_iff]
        refine ⟨⟨bytes, rfl⟩, b, ?_⟩
        rw [attachment?_eq_ok_iff, inventory_run, hb]
    | _ => exact hop.elim

end Contents

/-- The quote of an attachment or of a sticker, after any run and again after any downloads, shows
the same but for the state of the attachment that it refers to. The later one has the stream exactly
if the attachment was a stream before or one of the downloads was completed, and the pointer exactly
if it still is a pointer and the state that was noted last, or else the one it was added with, is
that it has failed. As they are sent, the quotes differ at most in the attachment, which goes with
the stream, and never with a sticker. -/
theorem quote_after_downloads (ops downloads : List Operation)
    (hdownloads : ∀ op ∈ downloads, op.IsDownload) (id : MessageId) (s : Snapshot)
    (hs : Snapshot.ofMessage (Database.fresh.run ops).lookup id = .ok s)
    (hshape : s.shape = .attachmentWithCaption ∨ s.shape = .sticker) :
    let before := Database.fresh.run ops
    let after := before.run downloads
    ∃ m a t, before.message? id = .ok (some m) ∧ QuotedIn before m a ∧
      Snapshot.ofMessage after.lookup id = .ok t ∧ s.SameButState t ∧
      s.SendsStream ∧ t.SendsStream ∧
      (t.stream?.isSome = true ↔
        (∃ x, before.attachment? a = .ok (some (.stream x))) ∨ Completed before downloads a) ∧
      (t.failedPointer?.isSome = true ↔ (∃ p, after.attachment? a = .ok (some (.pointer p))) ∧
        ∃ p rest, AddedThen (ops ++ downloads) (.pointer p) rest ∧ p.id = a ∧
          lastNoted a p.state rest = .failed) := by
  intro before after
  let c := Contents.run {} ops
  have hbefore : before = c.database := Contents.run_fresh ops
  have hafter : after = (c.run downloads).database := by
    rw [show after = before.run downloads from rfl, hbefore, Contents.run_eq]
  obtain ⟨m, hm, hitem⟩ := Snapshot.ofMessage_eq_ok hs
  have hlook : before.lookup.Answers c.held := by
    rw [hbefore]
    exact c.answers_held
  have hlook' : after.lookup.Answers (c.run downloads).held := by
    rw [hafter]
    exact Contents.answers_held _
  obtain ⟨a, t, ha, ht, hsame, hstream, hfailed⟩ := Snapshot.ofItem_of_sameRecords hlook hlook'
    (Contents.sameRecords_run hdownloads) hitem hshape
  have hm' : after.lookup.message id = .ok (some m) := by
    have hkept := Contents.message?_run_downloads (c := c) hdownloads id
    rw [← hafter, ← hbefore] at hkept
    exact hkept.trans hm
  refine ⟨m, a, t, hm, ⟨c.held, hlook, ha⟩, ?_, hsame, s.sendsStream, t.sendsStream, ?_, ?_⟩
  · rw [Snapshot.ofMessage, hm']
    exact ht
  · have hheld : (c.run downloads).held.attachment? = c.inventory.run downloads :=
      c.inventory_run downloads
    rw [hstream, Holdings.isSome_stream?_quoted, hheld,
      Inventory.run_downloads_stream_iff hdownloads, hbefore, Contents.completed_iff hdownloads]
    simp only [Contents.attachment?_eq_ok_iff]
  · have hheld : (c.run downloads).held.attachment? = Inventory.empty.run (ops ++ downloads) := by
      rw [Inventory.run_append, ← inventory_run_fresh, ← Contents.inventory_run]
      rfl
    have hfound : ∀ i, after.attachment? i = .ok (Inventory.empty.run (ops ++ downloads) i) := by
      intro i
      rw [show after = before.run downloads from rfl, ← Database.run_append, attachment?_run]
    rw [hfailed, Holdings.isSome_failed?_quoted, hheld, pointer_state_iff]
    simp only [hfound, Except.ok.injEq]

/-- A message whose picture has failed to be fetched, and is fetched in a second attempt. -/
theorem quote_after_downloads_picture :
    let p : AttachmentPointer := ⟨⟨⟨.replicate 16 5⟩⟩, "image/png", some "", 7, "key", .failed⟩
    let m : Message := { leapMessage with isViewOnce := false, attachments := [p.id] }
    let ops : List Operation := [.insertAttachment (.pointer p) m.receivedAt, .insertMessage m]
    let downloads : List Operation := [.setDownloadState p.id .downloading,
      .completeDownload p.id "/tmp/picture" (.ok [])]
    let s : Snapshot := ⟨m.timestamp, m.author, false,
      .attachment none none ⟨some "image/png", some "", .failedThumbnail p⟩⟩
    Snapshot.ofMessage (Database.fresh.run ops).lookup m.id = .ok s ∧
    ∃ t, Snapshot.ofMessage ((Database.fresh.run ops).run downloads).lookup m.id = .ok t ∧
      s.SameButState t ∧ t.stream?.isSome = true ∧ t.wire.attachment.isSome = true := by
  intro p m ops downloads s
  have hdownloads : ∀ op ∈ downloads, op.IsDownload := by
    simp [downloads, Operation.IsDownload]
  have hm : (Database.fresh.run ops).message? m.id = .ok (some m) := by
    rw [Contents.run_fresh, Contents.message?_eq_answer]
    exact answer_of_dated (by decide)
  have hs : Snapshot.ofMessage (Database.fresh.run ops).lookup m.id = .ok s := by
    have hlook : (Database.fresh.run ops).lookup.message m.id = .ok (some m) := hm
    have hfirst : (Contents.run {} ops).held.FirstMedia m.item.attachments p.id := by
      refine ⟨[], [], rfl, by simp, ?_⟩
      rw [Holdings.isRestOfText_iff]
      decide
    have hshows : m.item.Shows (Contents.run {} ops).held s.content :=
      .uncaptioned ⟨⟨rfl, by decide⟩, rfl, rfl⟩ hfirst (by decide)
    rw [Snapshot.ofMessage, hlook, Contents.run_fresh]
    exact Snapshot.ofItem_of_shows (Contents.answers_held _) hshows
  obtain ⟨m', a, t, hm', ⟨held, -, hrefers⟩, ht, hsame, -, hsends, hstream, -⟩ :=
    quote_after_downloads ops downloads hdownloads m.id s hs (.inl rfl)
  cases hm.symm.trans hm'
  -- there is no other attachment that the quote could refer to
  obtain rfl : a = p.id := by
    cases hrefers with
    | sticker hsticker => cases hsticker
    | first _ hfirst =>
      obtain ⟨before, after, hsplit, -, -⟩ := hfirst
      have hmem : a ∈ m.item.attachments := by
        rw [hsplit]
        exact List.mem_append_right _ List.mem_cons_self
      exact List.mem_singleton.mp hmem
  have hcompleted : Completed (Database.fresh.run ops) downloads p.id := by
    rw [Contents.run_fresh, Contents.completed_iff hdownloads]
    exact ⟨⟨.pointer p, by rfl⟩, _, List.mem_cons_of_mem _ List.mem_cons_self, rfl⟩
  have hthere := hstream.mpr (.inr hcompleted)
  exact ⟨hs, t, ht, hsame, hthere, (hsends.attachment hsame.shape).mpr hthere⟩

end Store

end Quotation
