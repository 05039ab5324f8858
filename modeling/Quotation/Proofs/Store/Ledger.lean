import Quotation.Proofs.Store.Operation

/-!
# The table of messages is a map

Of a database that is only changed by the operations of the store, a map from names to messages
tells what the lookup of a name answers and what inserting and marking do. A message received in a
leap second in the middle of a minute is the exception: its time is read back as another one.

* `Ledger`, `Ledger.after`, `Ledger.run`: the map, and what the operations do to it;
* `Contents.ledger_after`, `Contents.ledger_run`: the records are that map;
* `Contents.Distinct`, `Contents.receivedAt_run`: what every run preserves;
* `message?_run_eq_ledger`: so does the database;
* `message?_run_ne_ledger`: but for such a leap second, and in a database without the tables.
-/

namespace Quotation.Store

/-- The messages by their names. -/
def Ledger := MessageId → Option Message

namespace Ledger

/-- No messages. -/
def empty : Ledger := fun _ => none

/-- A message is added under its name. -/
def put (l : Ledger) (m : Message) : Ledger :=
  fun id => if id = m.id then some m else l id

/-- The message of a name, if there is one, is changed. -/
def change (l : Ledger) (id : MessageId) (f : Message → Message) : Ledger :=
  fun i => if i = id then (l i).map f else l i

/-- What an operation does to the messages. -/
def after (l : Ledger) : Operation → Ledger
  | .insertMessage m => if (l m.id).isSome then l else l.put m
  | .markViewOnceComplete id => l.change id fun m => { m with isViewOnceComplete := true }
  | .markRemotelyDeleted id => l.change id fun m =>
    { m with
      wasRemotelyDeleted := true, body := none, ranges := none, attachments := [], sticker := none,
      contact := none }
  | _ => l

/-- The messages after some operations. -/
def run (l : Ledger) (ops : List Operation) : Ledger :=
  ops.foldl after l

theorem run_append (l : Ledger) (ops ops' : List Operation) :
    l.run (ops ++ ops') = (l.run ops).run ops' :=
  List.foldl_append

/-- What holds of a message of a name and is preserved by the marks still holds after an operation:
nothing takes the message away or puts another one in its place. -/
theorem after_preserves {P : Message → Prop} (hviewed : ∀ m, P m → P m.viewed)
    (htombstone : ∀ m, P m → P m.tombstone) {l : Ledger} {id : MessageId} {m : Message}
    (hm : l id = some m) (hP : P m) (op : Operation) : ∃ n, l.after op id = some n ∧ P n := by
  cases op with
  | insertMessage n =>
    rw [after]
    split
    · exact ⟨m, hm, hP⟩
    · rename_i hnew
      -- the name of a message that is there is not new
      have hne : id ≠ n.id := by
        rintro rfl
        exact hnew (by rw [hm]; rfl)
      exact ⟨m, (if_neg hne).trans hm, hP⟩
  | markViewOnceComplete i =>
    by_cases hi : id = i
    · refine ⟨m.viewed, (if_pos hi).trans ?_, hviewed m hP⟩
      rw [hm]
      rfl
    · exact ⟨m, (if_neg hi).trans hm, hP⟩
  | markRemotelyDeleted i =>
    by_cases hi : id = i
    · refine ⟨m.tombstone, (if_pos hi).trans ?_, htombstone m hP⟩
      rw [hm]
      rfl
    · exact ⟨m, (if_neg hi).trans hm, hP⟩
  | insertAttachment a now => exact ⟨m, hm, hP⟩
  | setDownloadState a state => exact ⟨m, hm, hP⟩
  | completeDownload a localPath contents => exact ⟨m, hm, hP⟩
  | installSticker s => exact ⟨m, hm, hP⟩
  | write os commits => exact ⟨m, hm, hP⟩

theorem run_preserves {P : Message → Prop} (hviewed : ∀ m, P m → P m.viewed)
    (htombstone : ∀ m, P m → P m.tombstone) {l : Ledger} {id : MessageId} {m : Message}
    (hm : l id = some m) (hP : P m) (ops : List Operation) : ∃ n, l.run ops id = some n ∧ P n := by
  induction ops generalizing l m with
  | nil => exact ⟨m, hm, hP⟩
  | cons op ops ih =>
    obtain ⟨n, hn, hPn⟩ := after_preserves hviewed htombstone hm hP op
    exact ih hn hPn

/-- Only inserting adds a message. -/
theorem after_eq_some {l : Ledger} {id : MessageId} (hnone : l id = none) {op : Operation}
    {m : Message} (hm : l.after op id = some m) : op = .insertMessage m ∧ m.id = id := by
  cases op with
  | insertMessage n =>
    rw [after] at hm
    split at hm
    · rw [hnone] at hm
      cases hm
    · rw [put] at hm
      split at hm
      · rename_i hid
        cases hm
        exact ⟨rfl, hid.symm⟩
      · rw [hnone] at hm
        cases hm
  | markViewOnceComplete i =>
    rw [after, change, hnone, Option.map_none, ite_self] at hm
    cases hm
  | markRemotelyDeleted i =>
    rw [after, change, hnone, Option.map_none, ite_self] at hm
    cases hm
  | insertAttachment a now => exact absurd (hnone.symm.trans hm) (by simp)
  | setDownloadState a state => exact absurd (hnone.symm.trans hm) (by simp)
  | completeDownload a localPath contents => exact absurd (hnone.symm.trans hm) (by simp)
  | installSticker s => exact absurd (hnone.symm.trans hm) (by simp)
  | write os commits => exact absurd (hnone.symm.trans hm) (by simp)

/-- A message that is there after a run was inserted in it. -/
theorem run_eq_some {l : Ledger} {id : MessageId} (hnone : l id = none) {ops : List Operation}
    {n : Message} (hn : l.run ops id = some n) :
    ∃ before m after, ops = before ++ .insertMessage m :: after ∧ m.id = id ∧
      l.run before id = none := by
  induction ops generalizing l with
  | nil => exact absurd (hnone.symm.trans hn) (by simp)
  | cons op ops ih =>
    cases hop : l.after op id with
    | none =>
      obtain ⟨before, m, after, rfl, hid, hbefore⟩ := ih hop hn
      exact ⟨op :: before, m, after, rfl, hid, hbefore⟩
    | some m =>
      obtain ⟨rfl, hid⟩ := after_eq_some hnone hop
      exact ⟨[], m, ops, rfl, hid, hnone⟩

end Ledger

namespace Contents

/-- The messages by their names. -/
def ledger (c : Contents) : Ledger :=
  fun id => c.messages.find? (·.id == id)

theorem hasMessage_eq (c : Contents) (id : MessageId) : c.hasMessage id = (c.ledger id).isSome := by
  rw [hasMessage, ledger, List.isSome_find?]

theorem insertMessage_eq_ok_iff (c : Contents) (m : Message) :
    (∃ db, c.database.insertMessage m = .ok db) ↔ c.ledger m.id = none := by
  rw [insertMessage_eq, ← hasMessage, hasMessage_eq]
  cases c.ledger m.id with
  | none => simp
  | some n => simp

theorem ledger_addMessage {c : Contents} {m : Message} (h : c.hasMessage m.id = false) :
    { c with messages := c.messages ++ [m] }.ledger = c.ledger.put m := by
  funext id
  exact find?_append_of_new Message.id h id

theorem ledger_changeMessage (c : Contents) (id : MessageId) {f : Message → Message}
    (hf : ∀ m, (f m).id = m.id) : (c.changeMessage id f).ledger = c.ledger.change id f := by
  funext i
  exact find?_map_named Message.id hf c.messages id i

theorem messages_foldl_addOutgoing (c : Contents) (os : List StoredOutgoing) :
    (os.foldl addOutgoing c).messages = c.messages :=
  congrArg (·.messages) (c.received_foldl_addOutgoing os)

/-- The operations on the other tables leave the messages alone. -/
theorem messages_after_write (c : Contents) (os : List StoredOutgoing) (commits : Bool) :
    (c.after (.write os commits)).messages = c.messages := by
  cases commits
  · rfl
  · exact messages_foldl_addOutgoing c os

theorem messages_after_insertAttachment (c : Contents) (a : Attachment) (now : Instant) :
    (c.after (.insertAttachment a now)).messages = c.messages := by
  rw [after]
  split <;> rfl

theorem messages_after_completeDownload (c : Contents) (id : AttachmentId) (localPath : RawPath)
    (contents : Except FileError (List UInt8)) :
    (c.after (.completeDownload id localPath contents)).messages = c.messages := by
  rcases contents with e | bytes
  · rfl
  · rw [after]
    split <;> rfl

theorem ledger_eq_of_messages_eq {c d : Contents} (h : c.messages = d.messages) :
    c.ledger = d.ledger := by
  funext id
  rw [ledger, ledger, h]

/-- An operation does to the map what it does to the records. -/
theorem ledger_after (c : Contents) (op : Operation) : (c.after op).ledger = c.ledger.after op := by
  cases op with
  | insertMessage m =>
    rw [after, Ledger.after, ← hasMessage_eq]
    cases h : c.hasMessage m.id with
    | true => rfl
    | false => exact ledger_addMessage h
  | markViewOnceComplete id =>
    exact c.ledger_changeMessage id (f := .viewed) fun _ => rfl
  | markRemotelyDeleted id =>
    exact c.ledger_changeMessage id (f := .tombstone) fun _ => rfl
  | insertAttachment a now =>
    exact ledger_eq_of_messages_eq (c.messages_after_insertAttachment a now)
  | setDownloadState id state => rfl
  | completeDownload id localPath contents =>
    exact ledger_eq_of_messages_eq (c.messages_after_completeDownload id localPath contents)
  | installSticker s => rfl
  | write os commits => exact ledger_eq_of_messages_eq (c.messages_after_write os commits)

theorem ledger_run (c : Contents) (ops : List Operation) :
    (c.run ops).ledger = c.ledger.run ops := by
  induction ops generalizing c with
  | nil => rfl
  | cons op ops ih =>
    rw [run, List.foldl_cons, Ledger.run, List.foldl_cons, ← ledger_after]
    exact ih (c.after op)

/-- An operation leaves the messages alone, adds one under a new name, or changes those of a name
but neither their name nor the time at which they were received. -/
theorem messages_after (c : Contents) (op : Operation) :
    (c.after op).messages = c.messages ∨
    (∃ m, op = .insertMessage m ∧ c.hasMessage m.id = false ∧
      (c.after op).messages = c.messages ++ [m]) ∨
    ∃ id f, (∀ m, (f m).id = m.id ∧ (f m).receivedAt = m.receivedAt) ∧
      (c.after op).messages = (c.changeMessage id f).messages := by
  cases op with
  | insertMessage m =>
    rw [after]
    cases h : c.hasMessage m.id with
    | true => exact .inl rfl
    | false => exact .inr (.inl ⟨m, rfl, h, rfl⟩)
  | markViewOnceComplete id => exact .inr (.inr ⟨id, .viewed, fun _ => ⟨rfl, rfl⟩, rfl⟩)
  | markRemotelyDeleted id => exact .inr (.inr ⟨id, .tombstone, fun _ => ⟨rfl, rfl⟩, rfl⟩)
  | insertAttachment a now => exact .inl (c.messages_after_insertAttachment a now)
  | setDownloadState id state => exact .inl rfl
  | completeDownload id localPath contents =>
    exact .inl (c.messages_after_completeDownload id localPath contents)
  | installSticker s => exact .inl rfl
  | write os commits => exact .inl (c.messages_after_write os commits)

/-- The names of the messages, in the order in which these were added. -/
def ids (c : Contents) : List MessageId :=
  c.messages.map (·.id)

theorem ids_changeMessage (c : Contents) (id : MessageId) {f : Message → Message}
    (hf : ∀ m, (f m).id = m.id) : (c.changeMessage id f).ids = c.ids :=
  map_name_map Message.id hf (·.id == id) c.messages

/-- The messages have distinct names. -/
def Distinct (c : Contents) : Prop :=
  (c.messages.map (·.id)).Nodup

namespace Distinct

variable {c : Contents}

theorem of_messages_eq {d : Contents} (hc : c.Distinct) (h : d.messages = c.messages) :
    d.Distinct := by
  rw [Distinct, h]
  exact hc

theorem addMessage (hc : c.Distinct) {m : Message} (hnew : c.hasMessage m.id = false) :
    { c with messages := c.messages ++ [m] }.Distinct :=
  nodup_append_of_new Message.id hc hnew

theorem changeMessage (hc : c.Distinct) (id : MessageId) {f : Message → Message}
    (hf : ∀ m, (f m).id = m.id) : (c.changeMessage id f).Distinct := by
  have hids := c.ids_changeMessage id hf
  rw [ids, ids] at hids
  rw [Distinct, hids]
  exact hc

theorem after (hc : c.Distinct) (op : Operation) : (c.after op).Distinct := by
  rcases c.messages_after op with h | ⟨m, -, hnew, h⟩ | ⟨id, f, hf, h⟩
  · exact hc.of_messages_eq h
  · exact (hc.addMessage hnew).of_messages_eq h
  · exact (hc.changeMessage id fun m => (hf m).1).of_messages_eq h

theorem run (hc : c.Distinct) (ops : List Operation) : (c.run ops).Distinct := by
  induction ops generalizing c with
  | nil => exact hc
  | cons op ops ih => exact ih (hc.after op)

theorem empty : Distinct {} :=
  List.nodup_nil

theorem ledger_id (hc : c.Distinct) {m : Message} (hm : m ∈ c.messages) :
    c.ledger m.id = some m :=
  find?_of_nodup Message.id hc hm

end Distinct

/-! ### Times of receipt -/

section ReceivedAt

variable {c : Contents} {P : Instant → Prop}

theorem receivedAt_changeMessage (hc : ∀ m ∈ c.messages, P m.receivedAt) (id : MessageId)
    {f : Message → Message} (hf : ∀ m, (f m).receivedAt = m.receivedAt) :
    ∀ m ∈ (c.changeMessage id f).messages, P m.receivedAt := by
  intro n hn
  obtain ⟨m, hm, rfl⟩ := List.mem_map.mp hn
  split
  · rw [hf]
    exact hc m hm
  · exact hc m hm

theorem receivedAt_after (hc : ∀ m ∈ c.messages, P m.receivedAt) {op : Operation}
    (hop : ∀ m, op = .insertMessage m → P m.receivedAt) :
    ∀ m ∈ (c.after op).messages, P m.receivedAt := by
  rcases c.messages_after op with h | ⟨m, rfl, -, h⟩ | ⟨id, f, hf, h⟩
  · rwa [h]
  · rw [h]
    exact List.forall_mem_append.mpr ⟨hc, List.forall_mem_singleton.mpr (hop m rfl)⟩
  · rw [h]
    exact receivedAt_changeMessage hc id fun m => (hf m).2

/-- What holds of the times of receipt of all messages that are inserted holds of those of all that
are there. -/
theorem receivedAt_run (hc : ∀ m ∈ c.messages, P m.receivedAt) {ops : List Operation}
    (hops : ∀ m, .insertMessage m ∈ ops → P m.receivedAt) :
    ∀ m ∈ (c.run ops).messages, P m.receivedAt := by
  induction ops generalizing c with
  | nil => exact hc
  | cons op ops ih =>
    refine ih (receivedAt_after hc ?_) fun m hm => hops m (List.mem_cons_of_mem op hm)
    rintro m rfl
    exact hops m List.mem_cons_self

end ReceivedAt

/-- The messages were received in years of four digits, so that they are found. -/
def Dated (c : Contents) : Prop :=
  ∀ m ∈ c.messages, m.receivedAt.Dated

/-- The messages were received at instants that are read back, so that they are found as they are.
-/
def Kept (c : Contents) : Prop :=
  ∀ m ∈ c.messages, m.receivedAt.Kept

theorem dated_run {ops : List Operation} (hops : ∀ op ∈ ops, op.Dated) : (run {} ops).Dated :=
  receivedAt_run (List.forall_mem_nil _) fun m hm => hops (.insertMessage m) hm

theorem kept_run {ops : List Operation} (hops : ∀ op ∈ ops, op.Kept) : (run {} ops).Kept :=
  receivedAt_run (List.forall_mem_nil _) fun m hm => hops (.insertMessage m) hm

variable {c : Contents}

/-- The lookup of a name answers what the map says. -/
theorem Dated.message?_eq (hc : c.Dated) (id : MessageId) :
    c.database.message? id = .ok ((c.ledger id).map .reread) :=
  c.message?_eq hc id

theorem Kept.message?_eq (hc : c.Kept) (id : MessageId) :
    c.database.message? id = .ok (c.ledger id) :=
  c.message?_eq_of_kept hc id

/-- The lookup of a time and an account answers with a message that is there. -/
theorem ledger_of_messageAt? (hdistinct : c.Distinct) (hdated : c.Dated) {timestamp : UInt64}
    {author : Address} {m : Message}
    (hm : c.database.messageAt? timestamp author = .ok (some m)) :
    ∃ n, c.ledger m.id = some n ∧ n.reread = m ∧ sentAt timestamp author m = true := by
  rw [c.messageAt?_eq hdated, Except.ok.injEq, Option.map_eq_some_iff] at hm
  obtain ⟨n, hhead, rfl⟩ := hm
  have hmem := List.mem_mergeSort.mp (List.mem_of_mem_head? (Option.mem_def.mpr hhead))
  obtain ⟨hmem, hsent⟩ := List.mem_filter.mp hmem
  exact ⟨n, hdistinct.ledger_id hmem, rfl, hsent⟩

end Contents

theorem ledger_run_fresh (ops : List Operation) :
    (Contents.run {} ops).ledger = Ledger.empty.run ops :=
  Contents.ledger_run {} ops

theorem mem_messages_run_iff {ops : List Operation} {m : Message} :
    m ∈ (Contents.run {} ops).messages ↔ Ledger.empty.run ops m.id = some m := by
  rw [← ledger_run_fresh]
  exact ⟨(Contents.Distinct.empty.run ops).ledger_id, List.mem_of_find?_eq_some⟩

/-- After any run, the lookup of a name answers what the map says, with all fields of the message as
they are in the map but for a time of receipt in a leap second that does not end a minute, which is
answered as one in the second behind, so that the answer is that of the map exactly if there is no
such time; a message is inserted exactly if its name is new, and a mark answers whether there is a
message of the name. -/
theorem message?_run_eq_ledger (ops : List Operation) (hops : ∀ op ∈ ops, op.Dated) :
    let db := Database.fresh.run ops
    let ledger := Ledger.empty.run ops
    (∀ id, db.message? id = .ok ((ledger id).map .reread)) ∧
    (∀ id, db.message? id = .ok (ledger id) ↔ ∀ m, ledger id = some m → m.receivedAt.Regular) ∧
    (∀ m, (∃ db', db.insertMessage m = .ok db') ↔ ledger m.id = none) ∧
    (∀ id, ∃ db', db.markViewOnceComplete id = .ok (db', (ledger id).isSome)) ∧
    ∀ id, ∃ db', db.markRemotelyDeleted id = .ok (db', (ledger id).isSome) := by
  have hdated : (Contents.run {} ops).Dated := Contents.dated_run hops
  simp only [Contents.run_fresh, ← ledger_run_fresh]
  refine ⟨hdated.message?_eq, fun id => ?_, Contents.insertMessage_eq_ok_iff _, fun id => ?_,
    fun id => ?_⟩
  · rw [hdated.message?_eq, Except.ok.injEq]
    cases (Contents.run {} ops).ledger id with
    | none => simp
    | some m => simp [Message.reread_eq_self_iff]
  · rw [Contents.markViewOnceComplete_eq, Contents.hasMessage_eq]
    exact ⟨_, rfl⟩
  · rw [Contents.markRemotelyDeleted_eq, Contents.hasMessage_eq]
    exact ⟨_, rfl⟩

/-- A message of the greatest time, with an empty text, received in a leap second. -/
def leapMessage : Message where
  id := ⟨⟨.replicate 16 1⟩⟩
  thread := ⟨⟨.replicate 16 2⟩⟩
  timestamp := 18446744073709551615
  author := ⟨⟨.replicate 16 3⟩, none⟩
  direction := .incoming
  body := some ""
  ranges := some ⟨[]⟩
  attachments := []
  sticker := none
  contact := none
  isViewOnce := true
  isViewOnceComplete := false
  wasRemotelyDeleted := false
  quoted := none
  receivedAt := ⟨1483228799, 1500000000, by decide⟩

theorem message?_run_leapMessage :
    let ops : List Operation := [.insertMessage leapMessage,
      .insertMessage { leapMessage with body := none }, .markViewOnceComplete leapMessage.id]
    let db := Database.fresh.run ops
    (∀ op ∈ ops, op.Dated) ∧
    db.message? leapMessage.id = .ok (some { leapMessage with isViewOnceComplete := true }) ∧
    ¬∃ db', db.insertMessage leapMessage = .ok db' := by
  intro ops db
  have hops : ∀ op ∈ ops, op.Dated := by decide
  obtain ⟨-, hmessage, hinsert, -⟩ := message?_run_eq_ledger ops hops
  have hledger : Ledger.empty.run ops leapMessage.id =
      some { leapMessage with isViewOnceComplete := true } := by
    rfl
  have hregular : ∀ m, Ledger.empty.run ops leapMessage.id = some m → m.receivedAt.Regular := by
    intro m hm
    obtain rfl := Option.some.inj (hledger.symm.trans hm)
    decide
  refine ⟨hops, ((hmessage leapMessage.id).mpr hregular).trans (congrArg _ hledger), fun h => ?_⟩
  have hnew := (hinsert leapMessage).mp h
  revert hnew
  decide

/-- A message received 333333333 nanoseconds after the beginning of a leap second behind the fourth
second of a minute. -/
def oddMessage : Message :=
  { leapMessage with receivedAt := ⟨1704067204, 1333333333, by decide⟩ }

/-- The message is received in a year of four digits, inserted, and then read back with a time of
receipt in the second behind. A database that is open without tables takes no message. -/
theorem message?_run_ne_ledger :
    let ops : List Operation := [.insertMessage oddMessage]
    (∀ op ∈ ops, op.Dated) ∧
    Ledger.empty.run ops oddMessage.id = some oddMessage ∧
    (Database.fresh.run ops).message? oddMessage.id =
      .ok (some { oddMessage with receivedAt := ⟨1704067205, 333333333, by decide⟩ }) ∧
    Database.setUp .bare = .ok () .bare ∧
    Database.bare.insertMessage leapMessage = .error (.statement (.noSuchTable "messages")) ∧
    Database.bare.message? leapMessage.id = .error (.statement (.noSuchTable "messages")) := by
  intro ops
  have hops : ∀ op ∈ ops, op.Dated := by decide
  refine ⟨hops, by rfl, ?_, Database.setUp_bare, by rfl, by rfl⟩
  rw [Contents.run_fresh, (Contents.dated_run hops).message?_eq, ledger_run_fresh]
  rfl

end Quotation.Store
