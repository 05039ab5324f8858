import Quotation.Proofs.Store.Ledger
import Quotation.Proofs.Store.Lifecycle
import Quotation.Resend

/-!
# Operations that fail

An operation that fails, or that answers that there was nothing to change, leaves the database as it
was. To say so an operation is taken apart into its steps: what one step has changed stays when a
later one fails.

* `atomic`, `Operation.course`, `queue`: operations step by step;
* `Contents.course_eq`, `queue_eq`: they are single steps as far as can be told;
* `Database.HasRow`: whether a name is taken;
* `failure_leaves_store`.
-/

namespace Quotation.Store

/-- A change as one step. If it fails, nothing has changed. -/
def atomic {ε σ α : Type} (run : σ → Except ε (σ × α)) : EStateM ε σ α := fun s =>
  match run s with
  | .ok (s', a) => .ok a s'
  | .error e => .error e s

/-- Carries out an operation, and says whether there was anything to change. -/
def Operation.carryOut (db : Database) : Operation → Except StoreError (Database × Bool)
  | insertMessage m => (db.insertMessage m).map (·, true)
  | markViewOnceComplete id => db.markViewOnceComplete id
  | markRemotelyDeleted id => db.markRemotelyDeleted id
  | insertAttachment a now => (db.insertAttachment a now).map (·, true)
  | setDownloadState id state => db.setDownloadState id state
  | completeDownload id localPath contents =>
    (db.completeDownload id localPath contents).map (·, true)
  | installSticker s => (db.installSticker s).map (·, true)
  | write os commits => (db.perform (.write os commits)).map (·, true)

/-- The steps of an operation. All but one operation are a single statement. -/
def Operation.course : Operation → EStateM StoreError Database Bool
  | completeDownload id localPath contents => do
    let bytes ← MonadExcept.ofExcept (contents.mapError .file)
    let count ← atomic fun db =>
      (db.update "attachments" (Contents.downloadValues localPath bytes)
        [.equals "id" (.text id.text)]).mapError .statement
    if count = 0 then throw .notFound
    return true
  | op => atomic op.carryOut

/-- The steps in which a resend request is added in a transaction. -/
def queue (e : Envelope) (cipher : Cipher) (thread : ThreadId) (id : MessageId) (timestamp : UInt64)
    (now : Instant) : EStateM QuoteError WriteTransaction Unit := do
  let m ← MonadExcept.ofExcept (e.message cipher thread timestamp)
  atomic fun tx => ((tx.insertOutgoing id m now).mapError .store).map (·, ())

/-- Whether a table has a row of a name, which is the value of its first column. -/
def Database.HasRow (db : Database) (table name : String) : Prop :=
  ∃ t, db.table table = .ok t ∧ ∃ r ∈ t.rows, Row.cell r 0 = .text name

theorem Database.hasRow_iff {db : Database} {t : Table} {table name : String}
    (htable : db.table table = .ok t) :
    db.HasRow table name ↔ ∃ r ∈ t.rows, Row.cell r 0 = .text name := by
  constructor
  · rintro ⟨u, hu, hrow⟩
    cases htable.symm.trans hu
    exact hrow
  · intro hrow
    exact ⟨t, htable, hrow⟩

/-! ### Steps -/

section Atomic

variable {ε σ α : Type} {run : σ → Except ε (σ × α)} {s s' : σ} {a : α} {e : ε}

theorem atomic_eq_ok_iff : atomic run s = .ok a s' ↔ run s = .ok (s', a) := by
  unfold atomic
  cases run s with
  | ok p => simp [Prod.ext_iff, and_comm]
  | error e => simp

theorem atomic_eq_error_iff : atomic run s = .error e s' ↔ run s = .error e ∧ s' = s := by
  unfold atomic
  cases run s with
  | ok p => simp
  | error e => simp [eq_comm]

end Atomic

/-- What an operation does, without the answer. -/
theorem map_carryOut (db : Database) (op : Operation) :
    (op.carryOut db).map (·.1) = db.perform op := by
  have hmap : ∀ x : Except StoreError Database, (x.map (·, true)).map (·.1) = x := by
    rintro (e | db) <;> rfl
  cases op with
  | markViewOnceComplete id => rfl
  | markRemotelyDeleted id => rfl
  | setDownloadState id state => rfl
  | insertMessage m => exact hmap _
  | insertAttachment a now => exact hmap _
  | completeDownload id localPath contents => exact hmap _
  | installSticker s => exact hmap _
  | write os commits => exact hmap (db.perform (.write os commits))

namespace Contents

variable (c : Contents)

/-- That there is no such attachment is noticed after the change to its row, of which there is
none. -/
theorem course_completeDownload (id : AttachmentId) (localPath : RawPath) (bytes : List UInt8) :
    (Operation.completeDownload id localPath (.ok bytes)).course c.database =
      if c.attachments.any (·.1.id == id) then
        .ok true (c.changeAttachments (·.id == id) (.fetched localPath bytes)).database
      else .error .notFound
        (c.changeAttachments (·.id == id) (.fetched localPath bytes)).database := by
  have hupdate := c.update_downloadValues_eq id localPath bytes
  rw [← decide_length_filter_pos]
  simp only [Operation.course, mapError_ok, MonadExcept.ofExcept, bind, EStateM.bind, pure,
    EStateM.pure, atomic, hupdate]
  cases (c.attachments.filter (·.1.id == id)).length with
  | zero => rfl
  | succ n => rfl

/-- No operation is left in the middle. -/
theorem course_eq (op : Operation) :
    op.course c.database = atomic op.carryOut c.database := by
  cases op with
  | completeDownload id localPath contents =>
    rcases contents with e | bytes
    · rfl
    · rw [course_completeDownload, atomic, Operation.carryOut, completeDownload_eq]
      cases hany : c.attachments.any (·.1.id == id) with
      | true => rfl
      | false =>
        rw [changeAttachments_of_any hany]
        rfl
  | _ => rfl

/-- An answer that there was nothing to change is right. -/
theorem eq_of_carryOut_eq_false {op : Operation} {db : Database}
    (h : op.carryOut c.database = .ok (db, false)) : db = c.database := by
  have hmap : ∀ x : Except StoreError Database, x.map (·, true) ≠ .ok (db, false) := by
    rintro (e | db') hx
    · cases hx
    · cases (Prod.mk.inj (Except.ok.inj hx)).2
  cases op with
  | markViewOnceComplete id =>
    rw [Operation.carryOut, markViewOnceComplete_eq] at h
    obtain ⟨hdb, hnone⟩ := Prod.mk.inj (Except.ok.inj h)
    rw [← hdb, changeMessage_of_not_hasMessage hnone]
  | markRemotelyDeleted id =>
    rw [Operation.carryOut, markRemotelyDeleted_eq] at h
    obtain ⟨hdb, hnone⟩ := Prod.mk.inj (Except.ok.inj h)
    rw [← hdb, changeMessage_of_not_hasMessage hnone]
  | setDownloadState id state =>
    rw [Operation.carryOut, setDownloadState_eq] at h
    obtain ⟨hdb, hnone⟩ := Prod.mk.inj (Except.ok.inj h)
    rw [← hdb, changeAttachments_of_any hnone]
  | insertMessage m => exact absurd h (hmap _)
  | insertAttachment a now => exact absurd h (hmap _)
  | completeDownload id localPath contents => exact absurd h (hmap _)
  | installSticker s => exact absurd h (hmap (c.database.installSticker s))
  | write os commits => exact absurd h (hmap (c.database.perform (.write os commits)))

/-! ### Names that are taken -/

variable {c}

theorem hasRow_holding_iff {α : Type} {t : Table} {cells : α → Row} {xs : List α}
    {table name : String} (htable : c.database.table table = .ok (t.holding cells xs)) :
    c.database.HasRow table name ↔ ∃ x ∈ xs, (cells x).cell 0 = .text name := by
  rw [Database.hasRow_iff htable]
  simp [Table.holding]

theorem hasRow_messages_iff {id : MessageId} :
    c.database.HasRow "messages" id.text ↔ c.messages.any (·.id == id) = true := by
  rw [hasRow_holding_iff c.table_messages, List.any_eq_true]
  refine exists_congr fun m => and_congr_right fun _ => ?_
  rw [beq_iff_eq, ← MessageId.text_inj]
  exact ⟨Cell.text.inj, congrArg Cell.text⟩

theorem hasRow_attachments_iff {id : AttachmentId} :
    c.database.HasRow "attachments" id.text ↔ c.attachments.any (·.1.id == id) = true := by
  rw [hasRow_holding_iff c.table_attachments, List.any_eq_true]
  refine exists_congr fun p => and_congr_right fun _ => ?_
  rw [text_id_mem, beq_iff_eq, ← AttachmentId.text_inj]
  exact ⟨Cell.text.inj, congrArg Cell.text⟩

theorem insertMessage_eq_error_iff {m : Message} :
    (∃ e, c.database.insertMessage m = .error e) ↔ c.database.HasRow "messages" m.id.text := by
  rw [hasRow_messages_iff, insertMessage_eq]
  cases c.messages.any (·.id == m.id) <;> simp

theorem insertAttachment_eq_error_iff {a : Attachment} {now : Instant} :
    (∃ e, c.database.insertAttachment a now = .error e) ↔
      c.database.HasRow "attachments" a.id.text := by
  rw [hasRow_attachments_iff, insertAttachment_eq]
  cases c.attachments.any (·.1.id == a.id) <;> simp

theorem completeDownload_eq_error_iff {id : AttachmentId} {localPath : RawPath}
    {contents : Except FileError (List UInt8)} :
    (∃ e, c.database.completeDownload id localPath contents = .error e) ↔
      (∃ e, contents = .error e) ∨ ¬c.database.HasRow "attachments" id.text := by
  rcases contents with e | bytes
  · simp [completeDownload_error]
  · rw [hasRow_attachments_iff, completeDownload_eq]
    cases c.attachments.any (·.1.id == id) <;> simp

end Contents

/-- A resend request is refused before the change or by it. -/
theorem queue_eq (envelope : Envelope) (cipher : Cipher) (thread : ThreadId) (id : MessageId)
    (timestamp : UInt64) (now : Instant) (tx : WriteTransaction) :
    queue envelope cipher thread id timestamp now tx =
      atomic (fun tx => (envelope.enqueue cipher thread tx id timestamp now).map (·, ())) tx := by
  rw [atomic, Envelope.enqueue]
  cases hmessage : envelope.message cipher thread timestamp with
  | error e =>
    unfold queue
    rw [hmessage]
    rfl
  | ok m =>
    unfold queue
    rw [hmessage]
    rfl

/-- After any run, an operation that fails or answers that there was nothing to change leaves the
database as it was, whichever of its steps that happens in; so does a resend request with an open
transaction. A message and an attachment are refused exactly if there is a row of their name, and a
download is not completed exactly if its file is not read or there is no such row. -/
theorem failure_leaves_store (ops : List Operation) :
    let db := Database.fresh.run ops
    (∀ op : Operation, db.perform op = (op.carryOut db).map (·.1) ∧
      (∀ e db', op.course db = .error e db' → op.carryOut db = .error e ∧ db' = db) ∧
      ∀ answer db', op.course db = .ok answer db' →
        op.carryOut db = .ok (db', answer) ∧ (answer = false → db' = db)) ∧
    (∀ envelope cipher thread id timestamp now (tx tx' : WriteTransaction),
      let request := queue envelope cipher thread id timestamp now
      let outcome := envelope.enqueue cipher thread tx id timestamp now
      (∀ e, request tx = .error e tx' → outcome = .error e ∧ tx' = tx) ∧
        (request tx = .ok () tx' → outcome = .ok tx')) ∧
    (∀ m, (∃ e, db.insertMessage m = .error e) ↔ db.HasRow "messages" m.id.text) ∧
    (∀ a now, (∃ e, db.insertAttachment a now = .error e) ↔
      db.HasRow "attachments" a.id.text) ∧
    ∀ id localPath contents, (∃ e, db.completeDownload id localPath contents = .error e) ↔
      (∃ e, contents = .error e) ∨ ¬db.HasRow "attachments" id.text := by
  simp only [Contents.run_fresh]
  refine ⟨fun op => ⟨(map_carryOut _ op).symm, fun e db' h => ?_, fun answer db' h => ?_⟩,
    fun envelope cipher thread id timestamp now tx tx' => ⟨fun e h => ?_, fun h => ?_⟩,
    fun m => Contents.insertMessage_eq_error_iff,
    fun a now => Contents.insertAttachment_eq_error_iff,
    fun id localPath contents => Contents.completeDownload_eq_error_iff⟩
  · rw [Contents.course_eq] at h
    exact atomic_eq_error_iff.mp h
  · rw [Contents.course_eq, atomic_eq_ok_iff] at h
    refine ⟨h, fun hanswer => ?_⟩
    rw [hanswer] at h
    exact Contents.eq_of_carryOut_eq_false _ h
  · rw [queue_eq] at h
    obtain ⟨houtcome, hstate⟩ := atomic_eq_error_iff.mp h
    exact ⟨map_eq_error_iff.mp houtcome, hstate⟩
  · rw [queue_eq, atomic_eq_ok_iff] at h
    obtain ⟨tx'', houtcome, heq⟩ := map_eq_ok_iff.mp h
    cases heq
    exact houtcome

/-- A stream is no pointer, there is nothing under the name of a message, the name of the message is
taken, and an envelope without a device is refused. -/
theorem failure_leaves_store_stream :
    let s : AttachmentStream :=
      ⟨⟨⟨.replicate 16 5⟩⟩, "image/png", none, 0, "/tmp/picture", .replicate 32 0⟩
    let other : AttachmentId := ⟨leapMessage.id.uuid⟩
    let envelope : Envelope := ⟨leapMessage.author, 0, 0, [1]⟩
    let ops : List Operation :=
      [.insertMessage leapMessage, .insertAttachment (.stream s) leapMessage.receivedAt]
    let db := Database.fresh.run ops
    let tx := WriteTransaction.begin db
    (Operation.setDownloadState s.id .failed).course db = .ok false db ∧
    (Operation.completeDownload other "/tmp/picture" (.ok [])).course db = .error .notFound db ∧
    envelope.enqueue ⟨2⟩ leapMessage.thread tx leapMessage.id 0 leapMessage.receivedAt =
      .error (.envelope (.noDevice envelope.source)) ∧
    (∃ e, db.insertMessage leapMessage = .error e) := by
  intro s other envelope ops db tx
  obtain ⟨hop, hqueue, hmessage, -, -⟩ := failure_leaves_store ops
  have hdb : db = (Contents.run {} ops).database := Contents.run_fresh ops
  have hstream : ∃ db', (Operation.setDownloadState s.id .failed).course db = .ok false db' :=
    ⟨_, by rfl⟩
  have hdownload : ∃ db', (Operation.completeDownload other "/tmp/picture" (.ok [])).course db =
      .error .notFound db' := by
    have hnone : (Contents.run {} ops).attachments.any (·.1.id == other) = false := by decide
    rw [hdb, Contents.course_completeDownload, hnone]
    exact ⟨_, rfl⟩
  have hdevice : queue envelope ⟨2⟩ leapMessage.thread leapMessage.id 0 leapMessage.receivedAt tx =
      .error (.envelope (.noDevice envelope.source)) tx := by rfl
  obtain ⟨db₁, hdb₁⟩ := hstream
  obtain ⟨db₂, hdb₂⟩ := hdownload
  have hsame₁ : db₁ = db := ((hop _).2.2 _ _ hdb₁).2 rfl
  have hsame₂ : db₂ = db := ((hop _).2.1 _ _ hdb₂).2
  rw [hdb₁, hdb₂, hsame₁, hsame₂]
  refine ⟨rfl, rfl, ((hqueue _ _ _ _ _ _ tx tx).1 _ hdevice).1, (hmessage leapMessage).mpr ?_⟩
  exact ⟨_, rfl, _, List.mem_cons_self, rfl⟩

end Quotation.Store
