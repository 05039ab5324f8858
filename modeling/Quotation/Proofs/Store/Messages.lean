import Quotation.Proofs.Store.Contents

/-!
# Messages as records

The operations and lookups of the table of messages, in terms of the list of messages.

* `Message.viewed`, `Message.tombstone`: what the two marks make of a message;
* `insertMessage_eq`, `markViewOnceComplete_eq`, `markRemotelyDeleted_eq`;
* `answer`, `message?_eq_answer`, `messageAt?_eq_answer`: the lookups;
* `message?_eq`, `messageAt?_eq`: the same of messages received in years of four digits, and
  `message?_eq_of_kept` of messages that are read back as they are.
-/

namespace Quotation

namespace Message

/-- A message that has been viewed. -/
def viewed (m : Message) : Message :=
  { m with isViewOnceComplete := true }

/-- What is left of a message that its author has deleted. -/
def tombstone (m : Message) : Message :=
  { m with
    wasRemotelyDeleted := true, body := none, ranges := none, attachments := [], sticker := none,
    contact := none }

end Message

/-- What a lookup answers that selects a message: it is read if the year in which it was received
has four digits, with the instant that the time of receipt is taken for. -/
def Store.answer : Option Message → Except Store.StoreError (Option Message)
  | none => .ok none
  | some m =>
    if m.receivedAt.Dated then .ok (some m.reread) else .error (.column (.unreadable 15 .date))

theorem Store.answer_of_dated {o : Option Message} (h : ∀ m ∈ o, m.receivedAt.Dated) :
    answer o = .ok (o.map .reread) := by
  cases o with
  | none => rfl
  | some m => rw [answer, if_pos (h m rfl), Option.map_some]

/-- A message that was received at an instant that is read back is read as it is. -/
theorem Store.answer_of_kept {o : Option Message} (h : ∀ m ∈ o, m.receivedAt.Kept) :
    answer o = .ok o := by
  cases o with
  | none => rfl
  | some m =>
    obtain ⟨hdated, hregular⟩ := h m rfl
    rw [answer, if_pos hdated, Message.reread_of_regular hregular]

namespace Store.Contents

variable (c : Contents)

theorem table_messages :
    c.database.table "messages" = .ok (Layout.messages.holding messageCells c.messages) := by
  rfl

theorem insertMessage_eq (m : Message) :
    c.database.insertMessage m =
      if c.messages.any (·.id == m.id) then
        .error (.statement (.duplicateKey "messages" ["id"]))
      else .ok { c with messages := c.messages ++ [m] }.database := by
  have hsame : ∀ x y : Message, (Layout.messages.keyOf (messageCells x) ==
      Layout.messages.keyOf (messageCells y)) = (x.id == y.id) := by
    intro x y
    rw [Bool.eq_iff_iff, beq_iff_eq, beq_iff_eq, ← MessageId.text_inj]
    exact ⟨fun h => Cell.text.inj (List.cons.inj h).1, fun h => congrArg (fun s => [Cell.text s]) h⟩
  have hinsert := Table.insert_holding (by decide) admits_messageCells hsame c.messages m
  have hnames : Layout.messages.names = messageColumns := by rfl
  rw [hnames] at hinsert
  simp only [Database.insertMessage, Database.insert, table_messages, bind, Except.bind, hinsert]
  cases c.messages.any (·.id == m.id) with
  | true => rfl
  | false => rfl

/-- Whether there is a message of a name. -/
def hasMessage (id : MessageId) : Bool :=
  c.messages.any (·.id == id)

/-- The contents with a change to the messages of a name. -/
def changeMessage (id : MessageId) (change : Message → Message) : Contents :=
  { c with messages := c.messages.map fun m : Message => if m.id == id then change m else m }

theorem changeMessage_of_not_hasMessage {c : Contents} {id : MessageId}
    (h : c.hasMessage id = false) (change : Message → Message) : c.changeMessage id change = c :=
  congrArg (fun ms => { c with messages := ms }) (map_of_any_eq_false h change)

theorem satisfies_id (id : MessageId) (m : Message) :
    Table.satisfies [(0, .equals "id" (.text id.text))] (messageCells m) = (m.id == id) := by
  rw [Bool.eq_iff_iff, beq_iff_eq, ← MessageId.text_inj]
  simp [Table.satisfies, Condition.holds, Cell.equals, Row.cell, messageCells, Cell.kind]

theorem update_messages_eq {sets : List (String × Cell)} {places : List (Nat × Cell)}
    (hsets : sets.mapM Layout.messages.place = .ok places)
    (hkey : places.any (fun (i, _) => Layout.messages.key.contains i) = false)
    {change : Message → Message}
    (hchange : ∀ m, Table.assign places (messageCells m) = messageCells (change m))
    (id : MessageId) :
    c.database.update "messages" sets [.equals "id" (.text id.text)] =
      .ok ((c.changeMessage id change).database, (c.messages.filter (·.id == id)).length) := by
  have hlocated : [Condition.equals "id" (.text id.text)].mapM Layout.messages.locate =
      .ok [(0, .equals "id" (.text id.text))] := by
    rfl
  have hupdate := Table.update_holding hsets hlocated hkey (satisfies_id id) (fun m _ => hchange m)
    admits_messageCells c.messages
  simp only [Database.update, table_messages, bind, Except.bind, hupdate]
  rfl

theorem markViewOnceComplete_eq (id : MessageId) :
    c.database.markViewOnceComplete id =
      .ok ((c.changeMessage id .viewed).database, c.hasMessage id) := by
  have hchange : ∀ m : Message,
      Table.assign [(12, .integer 1)] (messageCells m) = messageCells m.viewed := by
    intro m
    rfl
  rw [Database.markViewOnceComplete, c.update_messages_eq (by rfl) (by rfl) hchange id]
  simp only [Except.map, mapError_ok, decide_length_filter_pos]
  rfl

theorem markRemotelyDeleted_eq (id : MessageId) :
    c.database.markRemotelyDeleted id =
      .ok ((c.changeMessage id .tombstone).database, c.hasMessage id) := by
  have hchange : ∀ m : Message,
      Table.assign [(13, .integer 1), (6, .null), (7, .null), (8, .text "[]"), (9, .null),
        (10, .null)] (messageCells m) = messageCells m.tombstone := by
    intro m
    have hnone : AttachmentId.json.list.print [] = "[]" := by rfl
    rw [← hnone]
    rfl
  rw [Database.markRemotelyDeleted, c.update_messages_eq (by rfl) (by rfl) hchange id]
  simp only [Except.map, mapError_ok, decide_length_filter_pos]
  rfl

/-- The first of some messages is selected. -/
theorem firstMessage_map (ms : List Message) :
    Database.firstMessage (.ok (ms.map messageCells)) = answer ms.head? := by
  cases ms with
  | nil => rfl
  | cons m ms =>
    simp only [Database.firstMessage, mapError_ok, List.map_cons, ok_bind, List.head?_cons, answer]
    by_cases h : m.receivedAt.Dated
    · rw [messageOfRow_messageCells h, if_pos h]
      rfl
    · rw [messageOfRow_messageCells_of_not_dated h, if_neg h]
      rfl

/-- The cells of all columns are the row. -/
theorem map_cell_messageCells (m : Message) :
    (List.range 16).map (Row.cell (messageCells m)) = messageCells m := by
  rfl

theorem position_messageColumns :
    messageColumns.mapM Layout.messages.position = .ok (List.range 16) := by
  rfl

theorem message?_eq_answer (id : MessageId) :
    c.database.message? id = answer (c.messages.find? (·.id == id)) := by
  have hlocated : [Condition.equals "id" (.text id.text)].mapM Layout.messages.locate =
      .ok [(0, .equals "id" (.text id.text))] := by
    rfl
  have hselect := Table.select_holding position_messageColumns hlocated
    (satisfies_id id) map_cell_messageCells c.messages
  rw [Database.message?, Database.select_of_table c.table_messages, hselect, firstMessage_map,
    List.head?_filter]

theorem message?_eq (h : ∀ m ∈ c.messages, m.receivedAt.Dated) (id : MessageId) :
    c.database.message? id = .ok ((c.messages.find? (·.id == id)).map .reread) := by
  rw [message?_eq_answer]
  exact answer_of_dated fun m hm => h m (List.mem_of_find?_eq_some hm)

theorem message?_eq_of_kept (h : ∀ m ∈ c.messages, m.receivedAt.Kept) (id : MessageId) :
    c.database.message? id = .ok (c.messages.find? (·.id == id)) := by
  rw [message?_eq_answer]
  exact answer_of_kept fun m hm => h m (List.mem_of_find?_eq_some hm)

theorem toInt64_inj {m n : UInt64} : m.toInt64 = n.toInt64 ↔ m = n := by
  constructor
  · intro h
    exact congrArg Int64.toUInt64 h
  · rintro rfl
    rfl

/-- Whether a message was sent at a time by the account of an address. -/
def sentAt (timestamp : UInt64) (author : Address) (m : Message) : Bool :=
  m.timestamp == timestamp && m.author.sameAccount author

/-- Whether the text of the time of receipt of a message does not come after that of another. -/
def storedBefore (m n : Message) : Bool :=
  !decide (n.receivedAt.stored < m.receivedAt.stored)

theorem messageAt?_eq_answer (timestamp : UInt64) (author : Address) :
    c.database.messageAt? timestamp author =
      answer ((c.messages.filter (sentAt timestamp author)).mergeSort storedBefore).head? := by
  have hlocated : [Condition.equals "timestamp" (.ofWord timestamp),
      .equals "author_uuid" (.text author.uuid.text)].mapM Layout.messages.locate =
      .ok [(2, .equals "timestamp" (.ofWord timestamp)),
        (3, .equals "author_uuid" (.text author.uuid.text))] := by
    rfl
  have hchosen : ∀ m : Message, Table.satisfies [(2, .equals "timestamp" (.ofWord timestamp)),
      (3, .equals "author_uuid" (.text author.uuid.text))] (messageCells m) =
      sentAt timestamp author m := by
    intro m
    rw [Bool.eq_iff_iff]
    simp [Table.satisfies, Condition.holds, Cell.equals, Row.cell, messageCells, Cell.kind,
      Cell.ofWord, sentAt, Address.sameAccount, Uuid.text_inj, toInt64_inj]
  have horder : Layout.messages.position "received_at" = .ok 15 := by
    rfl
  have hbefore : ∀ m n : Message,
      (Row.cell (messageCells m) 15).le (Row.cell (messageCells n) 15) = storedBefore m n := by
    intro m n
    rfl
  have hselect := Table.selectOrdered_holding position_messageColumns hlocated hchosen
    map_cell_messageCells horder hbefore c.messages
  rw [Database.messageAt?, Database.selectOrdered_of_table c.table_messages, hselect]
  exact firstMessage_map _

/-- The first of the messages of the time and the account is one that is there. -/
theorem mem_of_head?_sorted {timestamp : UInt64} {author : Address} {m : Message}
    (hm : m ∈ ((c.messages.filter (sentAt timestamp author)).mergeSort storedBefore).head?) :
    m ∈ c.messages :=
  (List.mem_filter.mp (List.mem_mergeSort.mp (List.mem_of_mem_head? hm))).1

theorem messageAt?_eq (h : ∀ m ∈ c.messages, m.receivedAt.Dated) (timestamp : UInt64)
    (author : Address) :
    c.database.messageAt? timestamp author =
      .ok (((c.messages.filter (sentAt timestamp author)).mergeSort storedBefore).head?.map
        .reread) := by
  rw [messageAt?_eq_answer]
  exact answer_of_dated fun m hm => h m (c.mem_of_head?_sorted hm)

/-- Nothing is read where no message is from the time and the account. -/
theorem messageAt?_eq_none {timestamp : UInt64} {author : Address}
    (h : ∀ m ∈ c.messages, sentAt timestamp author m = false) :
    c.database.messageAt? timestamp author = .ok none := by
  have hnone : c.messages.filter (sentAt timestamp author) = [] := by
    refine List.filter_eq_nil_iff.mpr fun m hm => ?_
    simp [h m hm]
  rw [messageAt?_eq_answer, hnone, List.mergeSort_nil]
  rfl

end Store.Contents

end Quotation
