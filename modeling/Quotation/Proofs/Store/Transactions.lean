import Quotation.Proofs.Store.Readable

/-!
# Write transactions

A write transaction happens as a whole or not at all. One that is given up leaves the database as it
was; after one that is committed, its messages are there as they were given, each once and each in
its own thread, and nothing else has changed. The same holds of a run with any number of both.

* `WriteTransaction.insertAll`: the messages of one transaction; `committed`: those of a run;
* `Sent`, `SameButOutgoing`: what is added, and what stays;
* `Contents.sent_sending`, `Contents.sameButOutgoing_of_received`: both of the records;
* `Contents.outgoing_run`, `Contents.received_run`: runs;
* `write_all_or_nothing`.
-/

namespace Quotation.Store

open scoped List

/-- Adds messages one after the other; one that is refused ends this. -/
def WriteTransaction.insertAll (tx : WriteTransaction) (os : List StoredOutgoing) :
    Except StoreError WriteTransaction :=
  os.foldlM (fun tx o => tx.insertOutgoing o.id o.message o.createdAt) tx

/-- The outgoing messages of the transactions of a run that are committed. -/
def committed (ops : List Operation) : List StoredOutgoing :=
  ops.flatMap (·.committed)

/-- Whether an operation is a transaction that adds outgoing messages. -/
def Operation.isWrite : Operation → Bool
  | write _ _ => true
  | _ => false

/-- A database to which some outgoing messages have been added, as far as lookups tell. -/
structure Sent (before : Database) (os : List StoredOutgoing) (after : Database) : Prop where
  found : ∀ o ∈ os, after.outgoing? o.id = .ok (some o)
  other : ∀ id, (∀ o ∈ os, o.id ≠ id) → after.outgoing? id = before.outgoing? id
  /-- No message is lost, twice there, or in another thread. -/
  thread : ∀ t old, before.outgoingOf t = .ok old →
    ∃ new, after.outgoingOf t = .ok new ∧ new ~ old ++ os.filter (·.message.thread == t)

/-- Two databases that differ in their outgoing messages at most. -/
structure SameButOutgoing (before after : Database) : Prop where
  table : ∀ name, name ≠ "outgoing_messages" → after.table name = before.table name
  message : ∀ id, after.message? id = before.message? id
  messageAt : ∀ timestamp author, after.messageAt? timestamp author =
    before.messageAt? timestamp author
  attachment : ∀ id, after.attachment? id = before.attachment? id
  sticker : ∀ info, after.sticker? info = before.sticker? info

namespace Contents

variable {c d : Contents} {os : List StoredOutgoing}

/-! ### One transaction -/

theorem addOutgoing_of_new {o : StoredOutgoing} (h : c.outgoing.any (·.id == o.id) = false) :
    c.addOutgoing o = c.sending [o] := by
  rw [addOutgoing, h]
  rfl

theorem foldl_addOutgoing_of_new (h : New c.outgoing os) :
    os.foldl addOutgoing c = c.sending os := by
  induction os generalizing c with
  | nil => rw [List.foldl_nil, sending, List.append_nil]
  | cons o os ih =>
    obtain ⟨hfree, hrest⟩ := h.of_cons
    rw [List.foldl_cons, addOutgoing_of_new hfree, ih (c := c.sending [o]) hrest, sending_sending]
    rfl

/-- None of the messages is refused, and only the working copy changes. -/
theorem insertAll_eq (h : New c.outgoing os) (db : Database) :
    (WriteTransaction.mk db c.database).insertAll os = .ok ⟨db, (c.sending os).database⟩ := by
  induction os generalizing c with
  | nil =>
    rw [sending, List.append_nil]
    rfl
  | cons o os ih =>
    obtain ⟨hfree, hrest⟩ := h.of_cons
    have hall := ih (c := c.sending [o]) hrest
    rw [sending_sending] at hall
    rw [WriteTransaction.insertAll, List.foldlM_cons, insertOutgoing_of_new hfree, ok_bind]
    exact hall

/-! ### What is added -/

theorem sent_sending (h : New c.outgoing os) (hos : ∀ o ∈ os, o.Bounded) :
    Sent c.database os (c.sending os).database where
  found _ := outgoing?_sending_of_mem h hos
  other _ := outgoing?_sending_of_ne
  thread _ _ := outgoingOf_sending hos

/-! ### What stays -/

/-- Nothing waits to be sent in what is received. -/
theorem outgoingOf_received (c : Contents) (t : ThreadId) :
    c.received.database.outgoingOf t = .ok [] := by
  rw [outgoingOf_eq fun _ ho => absurd ho List.not_mem_nil]
  exact congrArg Except.ok List.mergeSort_nil

theorem table_received {name : String} (h : name ≠ "outgoing_messages") :
    c.received.database.table name = c.database.table name := by
  refine Database.table_congr ?_ rfl
  simp only [Contents.table?_database, if_neg h]
  rfl

/-- The lookups of what is received do not see outgoing messages. -/
theorem sameButOutgoing_of_received (h : d.received = c.received) :
    SameButOutgoing c.database d.database where
  table _ hname := by rw [← table_received hname, h, table_received hname]
  message id := by
    have hmessages : d.messages = c.messages := congrArg (·.messages) h
    rw [message?_eq_answer, message?_eq_answer, hmessages]
  messageAt timestamp author := by
    have hmessages : d.messages = c.messages := congrArg (·.messages) h
    rw [messageAt?_eq_answer, messageAt?_eq_answer, hmessages]
  attachment id := by
    have hattachments : d.attachments = c.attachments := congrArg (·.attachments) h
    rw [attachment?_eq, attachment?_eq, hattachments]
  sticker info := by
    have hstickers : d.stickers = c.stickers := congrArg (·.stickers) h
    rw [sticker?_eq, sticker?_eq, hstickers]

/-! ### Runs -/

/-- A transaction is not seen in what is received, and all else does not depend on outgoing
messages. -/
theorem received_after (c : Contents) (op : Operation) :
    (c.after op).received = if op.isWrite then c.received else c.received.after op := by
  cases op with
  | insertMessage m => exact apply_ite received _ _ _
  | markViewOnceComplete id => rfl
  | markRemotelyDeleted id => rfl
  | insertAttachment a now => exact apply_ite received _ _ _
  | setDownloadState id state => rfl
  | completeDownload id localPath contents =>
    rcases contents with e | bytes
    · rfl
    · exact apply_ite received _ _ _
  | installSticker s => rfl
  | write os commits =>
    cases commits with
    | true => exact c.received_foldl_addOutgoing os
    | false => rfl

theorem received_run (c : Contents) (ops : List Operation) :
    (c.run ops).received = c.received.run (ops.filter fun op => !op.isWrite) := by
  induction ops generalizing c with
  | nil => rfl
  | cons op ops ih =>
    rw [run, List.foldl_cons, ← run, ih, received_after]
    cases h : op.isWrite <;> simp [h, run]

/-- What is there after a run is what its committed transactions have added. -/
theorem outgoing_run {ops : List Operation} (h : New c.outgoing (committed ops)) :
    (c.run ops).outgoing = c.outgoing ++ committed ops := by
  induction ops generalizing c with
  | nil => exact (List.append_nil _).symm
  | cons op ops ih =>
    obtain ⟨hop, hops⟩ := h.of_append
    have hafter : (c.after op).outgoing = c.outgoing ++ op.committed := by
      rw [outgoing_after, foldl_addOutgoing_of_new hop, sending]
    rw [← hafter] at hops
    rw [run, List.foldl_cons, ← run, ih hops, hafter, List.append_assoc]
    rfl

end Contents

/-- Messages with distinct new names are all added by a transaction. If it is given up, the database
is as before; if it is committed, they are there, and nothing else changes. After any run, what is
received is as if there had been no transaction, and what waits to be sent is what the transactions
that were committed have added. -/
theorem write_all_or_nothing (ops : List Operation) :
    let db := Database.fresh.run ops
    let received := Database.fresh.run (ops.filter fun op => !op.isWrite)
    (∀ os : List StoredOutgoing, (os.map (·.id)).Nodup →
      (∀ o ∈ os, db.outgoing? o.id = .ok none) →
      ∃ tx, (WriteTransaction.begin db).insertAll os = .ok tx ∧ tx.rollback = db ∧
        ((∀ o ∈ os, o.Bounded) → Sent db os tx.commit) ∧ SameButOutgoing db tx.commit ∧
        ∀ commits, db.after (.write os commits) = if commits then tx.commit else tx.rollback) ∧
    SameButOutgoing received db ∧ (∀ id, received.outgoing? id = .ok none) ∧
    (∀ t, received.outgoingOf t = .ok []) ∧
    ((∀ op ∈ ops, op.Bounded) →
      (∀ t, ∃ os, db.outgoingOf t = .ok os) ∧
      (((committed ops).map (·.id)).Nodup → Sent received (committed ops) db)) := by
  have hreceived : Contents.run {} (ops.filter fun op => !op.isWrite) =
      (Contents.run {} ops).received := (Contents.received_run {} ops).symm
  simp only [Contents.run_fresh, hreceived]
  refine ⟨fun os hdistinct hfree => ?_, Contents.sameButOutgoing_of_received rfl,
    fun id => Contents.outgoing?_eq _ id, Contents.outgoingOf_received _,
    fun hops => ⟨fun t => ?_, fun hdistinct => ?_⟩⟩
  · have hnew : New (Contents.run {} ops).outgoing os :=
      ⟨hdistinct, fun o ho => Contents.any_outgoing_eq_false _ (hfree o ho)⟩
    refine ⟨_, Contents.insertAll_eq hnew _, rfl, Contents.sent_sending hnew,
      Contents.sameButOutgoing_of_received rfl, fun commits => ?_⟩
    rw [Contents.after_eq, Contents.after, Contents.foldl_addOutgoing_of_new hnew]
    cases commits <;> rfl
  · exact ⟨_, Contents.outgoingOf_eq (Contents.Bounded.empty.run hops) t⟩
  · -- nothing is there at first, so that no name is taken
    have hnew : New [] (committed ops) := ⟨hdistinct, fun _ _ => rfl⟩
    have hcommitted : ∀ o ∈ committed ops, o.Bounded := by
      intro o ho
      obtain ⟨op, hop, hmem⟩ := List.mem_flatMap.mp ho
      exact (hops op hop).committed o hmem
    have houtgoing : (Contents.run {} ops).outgoing = committed ops :=
      Contents.outgoing_run hnew
    rw [← houtgoing] at hnew hcommitted ⊢
    exact Contents.sent_sending (c := (Contents.run {} ops).received) hnew hcommitted

/-- Of a reply and a resend request in one thread, the reply is committed, and the request is first
given up and then added once more. -/
theorem write_all_or_nothing_reply_and_request :
    let thread : ThreadId := ⟨⟨.replicate 16 2⟩⟩
    let quote : WireQuote := { author := leapMessage.author, timestamp := 0, body := some "" }
    let resend : ResendRequest := ⟨[0], ⟨2⟩, 0, 1⟩
    let reply : StoredOutgoing :=
      ⟨⟨⟨.replicate 16 5⟩⟩, { thread, timestamp := 1, quote := some quote }, leapMessage.receivedAt⟩
    let request : StoredOutgoing :=
      ⟨⟨⟨.replicate 16 6⟩⟩, { thread, timestamp := 18446744073709551615, resend := some resend },
        leapMessage.receivedAt⟩
    let ops : List Operation :=
      [.write [reply] true, .insertMessage leapMessage, .write [request] false]
    let db := Database.fresh.run ops
    (∀ op ∈ ops, op.Bounded) ∧ ((committed ops).map (·.id)).Nodup ∧
    db.outgoing? reply.id = .ok (some reply) ∧ db.outgoing? request.id = .ok none ∧
    ∃ tx, (WriteTransaction.begin db).insertAll [request] = .ok tx ∧ tx.rollback = db ∧
      tx.commit.outgoing? request.id = .ok (some request) ∧
      (∃ os, tx.commit.outgoingOf thread = .ok os ∧ os ~ [reply, request]) ∧
      tx.commit.message? leapMessage.id = .ok (some leapMessage) := by
  intro thread quote resend reply request ops db
  have hreply : reply.Bounded :=
    ⟨by simp [reply, quote, leapMessage, OutgoingMessage.Sized, WireQuote.Sized, Address.Sized,
      Text.Sized], by decide⟩
  have hrequest : request.Bounded :=
    ⟨by simp [request, resend, OutgoingMessage.Sized, ResendRequest.Sized, UInt64.size], by decide⟩
  have hops : ∀ op ∈ ops, op.Bounded := by
    simpa [ops, Operation.Bounded] using ⟨hreply, hrequest⟩
  have hdistinct : ((committed ops).map (·.id)).Nodup := by decide
  obtain ⟨hone, -, hnone, hempty, hrun⟩ := write_all_or_nothing ops
  have hsent := (hrun hops).2 hdistinct
  have hreply_found : db.outgoing? reply.id = .ok (some reply) :=
    hsent.found reply (by decide)
  have hfree : db.outgoing? request.id = .ok none := by
    rw [hsent.other request.id (by decide)]
    exact hnone request.id
  obtain ⟨before, hbefore, hreply_thread⟩ := hsent.thread thread [] (hempty thread)
  obtain ⟨tx, htx, hback, hadded, hsame, -⟩ := hone [request] (by decide) (by simpa using hfree)
  have hadded : Sent db [request] tx.commit := hadded (by simpa using hrequest)
  obtain ⟨os, hos, hperm⟩ := hadded.thread thread before hbefore
  refine ⟨hops, hdistinct, hreply_found, hfree, tx, htx, hback,
    hadded.found request (by decide), ⟨os, hos, hperm.trans ?_⟩, ?_⟩
  · exact hreply_thread.append_right [request]
  · rw [hsame.message, Contents.run_fresh, Contents.message?_eq_answer]
    exact answer_of_dated (by decide)

end Quotation.Store
