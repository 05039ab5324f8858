import Quotation.CommandLine.Run
import Quotation.Proofs.Quote.Reads
import Quotation.Proofs.Store.Arrival

/-!
# What a deletion takes away

When a message is marked as deleted by its author, its text, ranges, attachments, sticker and
contact are taken away, and nothing else in the database changes. The quote that the message carries
stays, and the command that shows the quote in a reply shows what it showed before.

* `Message.LeftOf`: what is left of the message, and `Message.sent`;
* `Deletion`: what becomes of the lookups and of the rows;
* `Contents.deletion`, `Snapshot.ofRecord_congr`;
* `deletion_of_mark`.
-/

namespace Quotation

/-! ### What a quote by a record depends on -/

theorem Snapshot.ofRecord_congr {look look' : Lookup}
    (hattachment : look'.attachment = look.attachment) (hsticker : look'.sticker = look.sticker)
    {r : QuoteRecord}
    (hfound : look'.messageAt r.timestamp r.author = look.messageAt r.timestamp r.author)
    (config : Config) : ofRecord config look' r = ofRecord config look r := by
  have hitem : ∀ i, ofItem look' i = ofItem look i := fun i =>
    ofItem_congr (Lookup.agreeFor_of_eq hattachment hsticker i)
  have hbuild : build look' = build look := by
    funext timestamp author isRemotelySourced source
    rw [build, build, contentOf_congr (fun id _ => congrFun hattachment id) fun info _ =>
      congrFun hsticker info]
  simp only [ofRecord, hfound, hitem, hbuild]

namespace Message

/-- Whether a message is what is left of another one that was deleted. -/
structure LeftOf (n m : Message) : Prop where
  deleted : n.wasRemotelyDeleted = true
  body : n.body = none
  ranges : n.ranges = none
  attachments : n.attachments = []
  sticker : n.sticker = none
  contact : n.contact = none
  quoted : n.quoted = m.quoted
  id : n.id = m.id
  thread : n.thread = m.thread
  timestamp : n.timestamp = m.timestamp
  author : n.author = m.author
  direction : n.direction = m.direction
  isViewOnce : n.isViewOnce = m.isViewOnce
  isViewOnceComplete : n.isViewOnceComplete = m.isViewOnceComplete
  receivedAt : n.receivedAt = m.receivedAt

/-- What is sent of the content of a message, with a given quote in the place of the one that it
carries. -/
def sent (m : Message) (quote : Option WireQuote) : OutgoingMessage where
  thread := m.thread
  timestamp := m.timestamp
  body := m.body
  ranges := m.ranges
  attachments := m.attachments
  sticker := m.sticker
  contact := m.contact
  quote := quote

/-- In what is left there is nothing to see exactly if no quote was carried. -/
theorem LeftOf.hasNoContent {n m : Message} (h : n.LeftOf m) {quote : Option WireQuote}
    (hquote : quote.isNone = n.quoted.isNone) :
    (n.sent quote).hasNoContent = m.quoted.isNone := by
  simp only [OutgoingMessage.hasNoContent, sent, h.body, h.ranges, h.attachments, h.sticker,
    h.contact, hquote, h.quoted, Option.isNone_none, List.isEmpty_nil, Bool.true_and]

theorem leftOf_tombstone (m : Message) : m.tombstone.LeftOf m := by
  constructor <;> rfl

/-- A message after those of a name have been deleted. -/
def afterDeletion (id : MessageId) (m : Message) : Message :=
  if m.id == id then m.tombstone else m

variable (id : MessageId) (m : Message)

theorem afterDeletion_of_ne {id : MessageId} {m : Message} (h : m.id ≠ id) :
    m.afterDeletion id = m := by
  rw [afterDeletion, beq_false_of_ne h]
  rfl

theorem afterDeletion_self : m.afterDeletion m.id = m.tombstone := by
  rw [afterDeletion, beq_self_eq_true]
  rfl

/-- What lookups go by stays. -/
theorem identity_afterDeletion : (m.afterDeletion id).id = m.id ∧
    (m.afterDeletion id).timestamp = m.timestamp ∧ (m.afterDeletion id).author = m.author ∧
      (m.afterDeletion id).receivedAt = m.receivedAt := by
  rw [afterDeletion]
  split <;> exact ⟨rfl, rfl, rfl, rfl⟩

theorem id_afterDeletion : (m.afterDeletion id).id = m.id :=
  (m.identity_afterDeletion id).1

theorem receivedAt_afterDeletion : (m.afterDeletion id).receivedAt = m.receivedAt :=
  (m.identity_afterDeletion id).2.2.2

theorem reread_afterDeletion : (m.afterDeletion id).reread = m.reread.afterDeletion id := by
  have hname : m.reread.id = m.id := rfl
  rw [afterDeletion, afterDeletion, hname]
  split <;> rfl

theorem afterDeletion_afterDeletion :
    (m.afterDeletion id).afterDeletion id = m.afterDeletion id := by
  by_cases h : m.id = id
  · rw [← h, afterDeletion_self]
    exact m.tombstone.afterDeletion_self
  · rw [afterDeletion_of_ne h, afterDeletion_of_ne h]

end Message

namespace Store

/-- Whether a row of the table of messages is that of another name. -/
def isOtherRow (id : MessageId) (r : Row) : Bool :=
  r.cell 0 != .text id.text

/-- What a database is after the message of a name has been deleted: the lookups of messages find
what is left of it, and of its row only the values change; all other lookups and rows are as before,
and so they stay if it is deleted again. -/
structure Deletion (before : Database) (id : MessageId) (after : Database) : Prop where
  message : after.message? id = (before.message? id).map (Option.map .tombstone)
  other : ∀ i, i ≠ id → after.message? i = before.message? i
  messageAt : ∀ timestamp author, after.messageAt? timestamp author =
    (before.messageAt? timestamp author).map (Option.map (.afterDeletion id))
  attachment : ∀ i, after.attachment? i = before.attachment? i
  sticker : ∀ info, after.sticker? info = before.sticker? info
  outgoing : ∀ i, after.outgoing? i = before.outgoing? i
  outgoingOf : ∀ thread, after.outgoingOf thread = before.outgoingOf thread
  table : ∀ name, name ≠ "messages" → after.table name = before.table name
  rows : ∃ rows rows', before.table "messages" = .ok { Layout.messages with rows := rows } ∧
    after.table "messages" = .ok { Layout.messages with rows := rows' } ∧
    rows'.filter (isOtherRow id) = rows.filter (isOtherRow id)
  again : after.markRemotelyDeleted id = .ok (after, true)

theorem answer_map_afterDeletion (id : MessageId) (o : Option Message) :
    answer (o.map (.afterDeletion id)) = (answer o).map (Option.map (.afterDeletion id)) := by
  cases o with
  | none => rfl
  | some m =>
    rw [Option.map_some, answer, answer, m.receivedAt_afterDeletion, m.reread_afterDeletion]
    split <;> rfl

namespace Contents

variable (c : Contents) (id : MessageId)

theorem messages_tombstone :
    (c.changeMessage id .tombstone).messages = c.messages.map (.afterDeletion id) :=
  rfl

theorem message?_tombstone (i : MessageId) :
    (c.changeMessage id .tombstone).database.message? i =
      (c.database.message? i).map (Option.map (.afterDeletion id)) := by
  have hname : (fun m : Message => m.id == i) ∘ .afterDeletion id = fun m => m.id == i := by
    funext m
    rw [Function.comp_apply, Message.id_afterDeletion]
  rw [message?_eq_answer, message?_eq_answer, messages_tombstone, List.find?_map, hname,
    answer_map_afterDeletion]

theorem messageAt?_tombstone (timestamp : UInt64) (author : Address) :
    (c.changeMessage id .tombstone).database.messageAt? timestamp author =
      (c.database.messageAt? timestamp author).map (Option.map (.afterDeletion id)) := by
  have hsent : sentAt timestamp author ∘ .afterDeletion id = sentAt timestamp author := by
    funext m
    obtain ⟨-, htimestamp, hauthor, -⟩ := m.identity_afterDeletion id
    rw [Function.comp_apply, sentAt, sentAt, htimestamp, hauthor]
  have hsorted : ∀ ms : List Message, (ms.map (.afterDeletion id)).mergeSort storedBefore =
      (ms.mergeSort storedBefore).map (.afterDeletion id) := by
    intro ms
    refine (List.map_mergeSort fun m _ n _ => ?_).symm
    simp only [storedBefore, Message.receivedAt_afterDeletion]
  rw [messageAt?_eq_answer, messageAt?_eq_answer, messages_tombstone, List.filter_map, hsent,
    hsorted, List.head?_map, answer_map_afterDeletion]

variable {c} {id}

/-- The lookup of a name finds a message of that name. -/
theorem id_of_message? {i : MessageId} {m : Message}
    (h : c.database.message? i = .ok (some m)) : m.id = i := by
  rw [message?_eq_answer] at h
  cases hfind : c.messages.find? (·.id == i) with
  | none =>
    rw [hfind] at h
    cases h
  | some n =>
    rw [hfind, answer] at h
    split at h
    · cases h
      have hname := List.find?_some hfind
      exact beq_iff_eq.mp hname
    · cases h

/-- The lookup of the name of a message finds it, or fails. -/
theorem message?_ne_none (h : c.hasMessage id = true) : c.database.message? id ≠ .ok none := by
  rw [hasMessage_eq] at h
  obtain ⟨m, hm⟩ := Option.isSome_iff_exists.mp h
  rw [message?_eq_answer, ← ledger, hm, answer]
  split <;> simp

theorem message?_tombstone_of_ne {i : MessageId} (h : i ≠ id) :
    (c.changeMessage id .tombstone).database.message? i = c.database.message? i := by
  rw [message?_tombstone]
  rcases hfound : c.database.message? i with e | _ | m
  · rfl
  · rfl
  · have hne : m.id ≠ id := by
      rw [id_of_message? hfound]
      exact h
    simp only [Except.map, Option.map_some, Message.afterDeletion_of_ne hne]

theorem message?_tombstone_self :
    (c.changeMessage id .tombstone).database.message? id =
      (c.database.message? id).map (Option.map .tombstone) := by
  rw [message?_tombstone]
  rcases hfound : c.database.message? id with e | _ | m
  · rfl
  · rfl
  · obtain rfl : m.id = id := id_of_message? hfound
    simp only [Except.map, Option.map_some, Message.afterDeletion_self]

/-- The rows of the messages of other names are those they were. -/
theorem filter_messageCells_tombstone (ms : List Message) :
    ((ms.map (.afterDeletion id)).map messageCells).filter (isOtherRow id) =
      (ms.map messageCells).filter (isOtherRow id) := by
  induction ms with
  | nil => rfl
  | cons m ms ih =>
    have hother : ∀ n : Message, isOtherRow id (messageCells n) = !(n.id == id) := by
      intro n
      rw [Bool.eq_iff_iff, isOtherRow, bne_iff_ne, Bool.not_eq_true', beq_eq_false_iff_ne,
        ne_eq, ne_eq, ← MessageId.text_inj]
      exact not_congr ⟨fun h => Cell.text.inj h, fun h => congrArg Cell.text h⟩
    simp only [List.map_cons, List.filter_cons, hother, Message.id_afterDeletion, ih]
    by_cases h : m.id = id
    · simp [h]
    · rw [Message.afterDeletion_of_ne h]

theorem table_of_ne {name : String} (h : name ≠ "messages") (change : Message → Message) :
    (c.changeMessage id change).database.table name = c.database.table name := by
  refine Database.table_congr ?_ rfl
  simp only [table?_database, if_neg h]
  rfl

theorem deletion (h : c.hasMessage id = true) :
    Deletion c.database id (c.changeMessage id .tombstone).database where
  message := message?_tombstone_self
  other _ := message?_tombstone_of_ne
  messageAt := c.messageAt?_tombstone id
  attachment i := by rw [attachment?_eq, attachment?_eq]; rfl
  sticker info := by rw [sticker?_eq, sticker?_eq]; rfl
  outgoing i := by rw [outgoing?_eq, outgoing?_eq]; rfl
  outgoingOf thread := rfl
  table _ hname := table_of_ne hname _
  rows := ⟨_, _, rfl, rfl, filter_messageCells_tombstone c.messages⟩
  again := by
    have htwice : (c.changeMessage id .tombstone).changeMessage id .tombstone =
        c.changeMessage id .tombstone := by
      have hmap : (c.messages.map (Message.afterDeletion id)).map (Message.afterDeletion id) =
          c.messages.map (Message.afterDeletion id) := by
        rw [List.map_map]
        exact List.map_congr_left fun m _ => m.afterDeletion_afterDeletion id
      exact congrArg (fun ms => { c with messages := ms }) hmap
    have hthere : (c.changeMessage id .tombstone).hasMessage id = true := by
      simpa [hasMessage, messages_tombstone, List.any_map, Function.comp_def,
        Message.id_afterDeletion] using h
    rw [markRemotelyDeleted_eq, htwice, hthere]

end Contents

/-! ### What the commands show -/

namespace Deletion

open CommandLine

variable {before after : Database} {id : MessageId} {m : Message} (h : Deletion before id after)

include h

theorem message_eq (hm : before.message? id = .ok (some m)) :
    after.message? id = .ok (some m.tombstone) := by
  rw [h.message, hm]
  rfl

theorem attachment_eq : after.lookup.attachment = before.lookup.attachment :=
  funext h.attachment

theorem sticker_eq : after.lookup.sticker = before.lookup.sticker :=
  funext h.sticker

/-- A record that does not lead to the deleted message leads where it led before. -/
theorem messageAt_eq {timestamp : UInt64} {author : Address}
    (hother : ∀ k, before.messageAt? timestamp author = .ok (some k) → k.id ≠ id) :
    after.messageAt? timestamp author = before.messageAt? timestamp author := by
  rw [h.messageAt]
  rcases hfound : before.messageAt? timestamp author with e | _ | k
  · rfl
  · rfl
  · simp only [Except.map, Option.map_some, Message.afterDeletion_of_ne (hother k hfound)]

theorem ofMessage_eq (hm : before.message? id = .ok (some m)) :
    Snapshot.ofMessage after.lookup id = .ok ⟨m.timestamp, m.author, false, .remotelyDeleted⟩ := by
  have hfound : after.lookup.message id = .ok (some m.tombstone) := h.message_eq hm
  have hdeleted : Source.ofItem after.lookup m.tombstone.item = .ok .remotelyDeleted :=
    Source.ofItem_of_deleted _ rfl
  rw [Snapshot.ofMessage, hfound]
  simp only [Snapshot.ofItem, hdeleted]
  rfl

theorem quoteOfReply_of_none (hm : before.message? id = .ok (some m)) (hquoted : m.quoted = none)
    (config : Config) :
    quoteOfReply config after.lookup id = .error ["message " ++ id.text ++ " is not a reply"] := by
  have hfound : after.lookup.message id = .ok (some m.tombstone) := h.message_eq hm
  have hnone : m.tombstone.quoted = none := hquoted
  rw [quoteOfReply, hfound]
  simp only [hnone]

/-- The quote in a deleted reply is the one that was in it before. -/
theorem quoteOfReply_of_some (hm : before.message? id = .ok (some m)) {r : QuoteRecord}
    (hquoted : m.quoted = some r)
    (hother : ∀ k, before.messageAt? r.timestamp r.author = .ok (some k) → k.id ≠ id)
    (config : Config) :
    quoteOfReply config after.lookup id = quoteOfReply config before.lookup id := by
  have hbefore : before.lookup.message id = .ok (some m) := hm
  have hafter : after.lookup.message id = .ok (some m.tombstone) := h.message_eq hm
  have hkept : m.tombstone.quoted = some r := hquoted
  have hrecord := Snapshot.ofRecord_congr h.attachment_eq h.sticker_eq (h.messageAt_eq hother)
    config
  rw [quoteOfReply, quoteOfReply, hbefore, hafter]
  simp only [hkept, hquoted, hrecord]

end Deletion

open CommandLine in
/-- When a message that is there is marked as deleted, its own content is taken away, and what the
commands show of it is that it was deleted. The quote that it carries stays: there is none left
exactly if there was none, and the command that shows it shows what it showed before, provided that
it is not a quote of the message itself. Nothing else in the database changes, and marking the
message again changes nothing. -/
theorem deletion_of_mark (ops : List Operation) (id : MessageId) (after : Database)
    (hmark : (Database.fresh.run ops).markRemotelyDeleted id = .ok (after, true)) :
    let before := Database.fresh.run ops
    Deletion before id after ∧ before.message? id ≠ .ok none ∧
    ∀ m, before.message? id = .ok (some m) →
      (∃ n, after.message? id = .ok (some n) ∧ n.LeftOf m ∧
        ∀ quote : Option WireQuote, quote.isNone = n.quoted.isNone →
          (n.sent quote).hasNoContent = m.quoted.isNone) ∧
      ∀ config moment,
        (Command.quote id).run config moment after =
          .ok (after, shown (Snapshot.json ⟨m.timestamp, m.author, false, .remotelyDeleted⟩)) ∧
        (Command.serialize id).run config moment after =
          .ok (after, shown (WireQuote.json.encode
            { author := m.author, timestamp := m.timestamp })) ∧
        (m.quoted = none → (Command.quoteReply id).run config moment after =
          .error ["message " ++ id.text ++ " is not a reply"]) ∧
        ∀ r, m.quoted = some r →
          (∀ k, before.messageAt? r.timestamp r.author = .ok (some k) → k.id ≠ id) →
          (Command.quoteReply id).run config moment after =
            ((Command.quoteReply id).run config moment before).map fun p => (after, p.2) := by
  intro before
  obtain ⟨hdeletion, hthere⟩ :
      Deletion before id after ∧ before.message? id ≠ .ok none := by
    simp only [before, Contents.run_fresh] at hmark ⊢
    rw [Contents.markRemotelyDeleted_eq] at hmark
    obtain ⟨hafter, hthere⟩ := Prod.mk.inj (Except.ok.inj hmark)
    rw [← hafter]
    exact ⟨Contents.deletion hthere, Contents.message?_ne_none hthere⟩
  refine ⟨hdeletion, hthere, fun m hm => ⟨⟨_, hdeletion.message_eq hm, m.leftOf_tombstone,
      fun quote => m.leftOf_tombstone.hasNoContent⟩,
    fun config moment => ⟨?_, ?_, fun hquoted => ?_, fun r hquoted hother => ?_⟩⟩⟩
  · rw [Command.run, hdeletion.ofMessage_eq hm]
    rfl
  · rw [Command.run, hdeletion.ofMessage_eq hm]
    rfl
  · rw [Command.run, hdeletion.quoteOfReply_of_none hm hquoted]
    rfl
  · rw [Command.run, Command.run, hdeletion.quoteOfReply_of_some hm hquoted hother]
    cases quoteOfReply config before.lookup id <;> rfl

/-- A reply to a message that is not there. -/
def leapReply : Message :=
  { leapMessage with
    id := ⟨⟨.replicate 16 4⟩⟩
    body := some "I agree"
    isViewOnce := false
    quoted := some { timestamp := 900, author := leapMessage.author, body := some "secret" } }

/-- The reply is deleted, after which its text is gone and its quote is not. -/
theorem deletion_of_mark_leapReply :
    let before := Database.fresh.run [.insertMessage leapReply]
    let after := before.after (.markRemotelyDeleted leapReply.id)
    before.markRemotelyDeleted leapReply.id = .ok (after, true) ∧
    Deletion before leapReply.id after ∧
    ∃ n, after.message? leapReply.id = .ok (some n) ∧ n.LeftOf leapReply ∧
      ∀ quote : WireQuote, (n.sent (some quote)).hasNoContent = false := by
  intro before after
  have hmark : before.markRemotelyDeleted leapReply.id = .ok (after, true) := by
    rfl
  have hm : before.message? leapReply.id = .ok (some leapReply) := by
    rw [show before = _ from Contents.run_fresh _, Contents.message?_eq_answer]
    exact answer_of_dated (by decide)
  obtain ⟨hdeletion, -, hleft⟩ :=
    deletion_of_mark [.insertMessage leapReply] leapReply.id after hmark
  obtain ⟨⟨n, hn, hleft, hcontent⟩, -⟩ := hleft leapReply hm
  refine ⟨hmark, hdeletion, n, hn, hleft, fun quote => hcontent (some quote) ?_⟩
  rw [hleft.quoted]
  rfl

/-- After the reply has been deleted its quote is found and shown. -/
theorem quoteOfReply_deleted_leapReply :
    ∃ db, (Database.fresh.run [.insertMessage leapReply]).markRemotelyDeleted leapReply.id =
        .ok (db, true) ∧
      (∃ n, db.message? leapReply.id = .ok (some n) ∧ n.quoted ≠ none) ∧
      ∃ s, CommandLine.quoteOfReply {} db.lookup leapReply.id = .ok s ∧ s.body = some "secret" := by
  let db := Contents.database { messages := [leapReply.tombstone] }
  have hm : db.lookup.message leapReply.id = .ok (some leapReply.tombstone) := by
    change db.message? leapReply.id = _
    rw [Contents.message?_eq_answer]
    exact answer_of_dated (by decide)
  have hnone : db.lookup.messageAt 900 leapMessage.author = .ok none :=
    Contents.messageAt?_eq_none _ (by decide)
  have hquote : CommandLine.quoteOfReply {} db.lookup leapReply.id =
      .ok ⟨900, leapMessage.author, true, .text "secret" none⟩ := by
    have hquoted : leapReply.tombstone.quoted =
        some { timestamp := 900, author := leapMessage.author, body := some "secret" } := rfl
    rw [CommandLine.quoteOfReply, hm]
    simp only [hquoted, Snapshot.ofRecord, hnone]
    rfl
  exact ⟨db, by rfl, ⟨_, hm, by decide⟩, _, hquote, rfl⟩

end Store

end Quotation
