import Quotation.Proofs.Store.History
import Quotation.Quote.Sending

/-!
# Content that is gone

Once a message is marked as deleted by its author, or a view-once message as viewed, no quote of it
shows its content again, whatever is done to the database afterwards.

* `Source.ofItem_of_deleted`, `Source.ofItem_of_expired`: the marks come before all content, so that
  nothing is looked up (`Snapshot.ofItem_of_deleted`, `Snapshot.ofItem_of_expired`);
* `QuoteOf`: the two ways to a quote of a message that this device has;
* `withheld_after_mark`.
-/

namespace Quotation

theorem Source.ofItem_of_deleted (look : Lookup) {i : Item} (h : i.wasRemotelyDeleted = true) :
    ofItem look i = .ok .remotelyDeleted := by
  rw [ofItem, if_pos h]

theorem Source.ofItem_of_expired (look : Lookup) {i : Item} (h : i.wasRemotelyDeleted = false)
    (hexpired : i.isExpired = true) : ofItem look i = .ok .viewOnceExpired := by
  rw [ofItem, h, if_neg (by decide), if_pos hexpired]

namespace Snapshot

variable {look : Lookup} {i : Item}

theorem ofItem_of_deleted (h : i.wasRemotelyDeleted = true) :
    ofItem look i = .ok ⟨i.timestamp, i.author, false, .remotelyDeleted⟩ := by
  rw [ofItem, Source.ofItem_of_deleted look h]
  rfl

theorem ofItem_of_expired (h : i.wasRemotelyDeleted = false) (hexpired : i.isExpired = true) :
    ofItem look i = .ok ⟨i.timestamp, i.author, false, .viewOnceExpired⟩ := by
  rw [ofItem, Source.ofItem_of_expired look h hexpired]
  rfl

end Snapshot

/-- A snapshot that shows nothing of a message but who sent it and when, here and as it is sent. -/
structure Snapshot.Withholds (s : Snapshot) (m : Message) : Prop where
  timestamp : s.timestamp = m.timestamp
  author : s.author = m.author
  body : s.body = none
  ranges : s.ranges = none
  contentType : s.contentType = none
  sourceFilename : s.sourceFilename = none
  stream : s.stream? = none
  failedPointer : s.failedPointer? = none
  sticker : s.sticker? = none
  contactName : s.contactName? = none
  wire : s.wire = { author := m.author, timestamp := m.timestamp }

namespace Store

/-- What a database answers when a message that it has is to be quoted: by its name, or by a record
that leads to it. -/
inductive QuoteOf (db : Database) (id : MessageId) : Except QuoteError Snapshot → Prop
  | byName : QuoteOf db id (Snapshot.ofMessage db.lookup id)
  | byRecord (config : Config) (r : QuoteRecord) (m : Message)
      (hfound : db.messageAt? r.timestamp r.author = .ok (some m)) (hid : m.id = id) :
      QuoteOf db id (Snapshot.ofRecord config db.lookup r)

/-- Both ways lead to the quote of the message as it is now. -/
theorem QuoteOf.eq_ofItem {c : Contents} (hdistinct : c.Distinct) (hdated : c.Dated)
    {id : MessageId} {m : Message} (hm : c.ledger id = some m)
    {answer : Except QuoteError Snapshot} (h : QuoteOf c.database id answer) :
    answer = Snapshot.ofItem c.database.lookup m.item := by
  cases h with
  | byName =>
    have hfound : c.database.lookup.message id = .ok (some m.reread) := by
      rw [← Option.map_some, ← hm]
      exact hdated.message?_eq id
    rw [Snapshot.ofMessage, hfound]
    rfl
  | byRecord config r n hfound hid =>
    -- names are distinct, so that the message found is the one of the name
    obtain ⟨k, hk, rfl, -⟩ := Contents.ledger_of_messageAt? hdistinct hdated hfound
    obtain rfl : k = m := by
      rw [hid, hm] at hk
      exact (Option.some.inj hk).symm
    have hfound' : c.database.lookup.messageAt r.timestamp r.author = .ok (some k.reread) := hfound
    rw [Snapshot.ofRecord, hfound']
    rfl

/-- A snapshot without content. -/
theorem withholds_of_content {m n : Message} (h : SameOrigin m n) {content : Content}
    (hcontent : content = .remotelyDeleted ∨ content = .viewOnceExpired) :
    Snapshot.Withholds ⟨n.timestamp, n.author, false, content⟩ m := by
  obtain ⟨htimestamp, hauthor, -⟩ := h
  rw [htimestamp, hauthor]
  rcases hcontent with rfl | rfl <;> constructor <;> rfl

theorem forall_dated_append {ops more : List Operation} {op : Operation}
    (hops : ∀ o ∈ ops, o.Dated) (hop : op.Dated) (hmore : ∀ o ∈ more, o.Dated) :
    ∀ o ∈ ops ++ op :: more, o.Dated := by
  intro o ho
  rcases List.mem_append.mp ho with ho | ho
  · exact hops o ho
  · rcases List.mem_cons.mp ho with rfl | ho
    · exact hop
    · exact hmore o ho

/-- A quote of a message that was marked is the quote of one of the same origin that has what the
mark gives. -/
theorem Added.exists_ofItem {ops more : List Operation} {m : Message} (h : Added ops m)
    {op : Operation} {f : Message → Message} {P : Message → Prop} (hop : Marks op m.id f P)
    (hops : ∀ o ∈ ops, o.Dated) (hmore : ∀ o ∈ more, o.Dated) {db : Database}
    (hdb : (Database.fresh.run ops).perform op = .ok db) {answer : Except QuoteError Snapshot}
    (hanswer : QuoteOf (db.run more) m.id answer) :
    ∃ look n, answer = Snapshot.ofItem look n.item ∧ SameOrigin m n ∧ P n := by
  obtain ⟨n, hn, hsame, hP⟩ := h.ledger_mark hop more
  have hall := forall_dated_append hops hop.dated hmore
  rw [run_perform hdb] at hanswer
  rw [← ledger_run_fresh] at hn
  exact ⟨_, n, hanswer.eq_ofItem (.run .empty _) (Contents.dated_run hall) hn, hsame, hP⟩

/-- Once a message is marked as deleted by its author, each quote of it shows that and nothing else;
once a view-once message is marked as viewed, each quote of it shows that or that it was deleted.
This holds after any further operations, and both for quotes by name and for those by a record. -/
theorem withheld_after_mark (ops : List Operation) (hops : ∀ op ∈ ops, op.Dated) (id : MessageId)
    (db : Database) :
    ((Database.fresh.run ops).markRemotelyDeleted id = .ok (db, true) →
      (∃ m, Added ops m ∧ m.id = id) ∧
      ∀ m, Added ops m → m.id = id → ∀ more : List Operation, (∀ op ∈ more, op.Dated) →
        ∀ answer, QuoteOf (db.run more) id answer →
          ∃ s, answer = .ok s ∧ s.shape = .remotelyDeleted ∧ s.Withholds m) ∧
    ((Database.fresh.run ops).markViewOnceComplete id = .ok (db, true) →
      (∃ m, Added ops m ∧ m.id = id) ∧
      ∀ m, Added ops m → m.id = id → m.isViewOnce = true →
        ∀ more : List Operation, (∀ op ∈ more, op.Dated) →
          ∀ answer, QuoteOf (db.run more) id answer →
            ∃ s, answer = .ok s ∧ (s.shape = .viewOnceExpired ∨ s.shape = .remotelyDeleted) ∧
              s.Withholds m) := by
  constructor
  · intro hmark
    have hdb : (Database.fresh.run ops).perform (.markRemotelyDeleted id) = .ok db := by
      rw [Database.perform, hmark]
      rfl
    rw [Contents.run_fresh, Contents.markRemotelyDeleted_eq, Contents.hasMessage_eq,
      ledger_run_fresh] at hmark
    refine ⟨exists_added (congrArg (·.2) (Except.ok.inj hmark)), ?_⟩
    rintro m hadded rfl more hmore answer hanswer
    obtain ⟨look, n, rfl, hsame, hdeleted⟩ :=
      hadded.exists_ofItem (marks_remotelyDeleted m.id) hops hmore hdb hanswer
    refine ⟨_, ?_, rfl, withholds_of_content hsame (.inl rfl)⟩
    rw [Snapshot.ofItem, Source.ofItem_of_deleted look hdeleted]
    rfl
  · intro hmark
    have hdb : (Database.fresh.run ops).perform (.markViewOnceComplete id) = .ok db := by
      rw [Database.perform, hmark]
      rfl
    rw [Contents.run_fresh, Contents.markViewOnceComplete_eq, Contents.hasMessage_eq,
      ledger_run_fresh] at hmark
    refine ⟨exists_added (congrArg (·.2) (Except.ok.inj hmark)), ?_⟩
    rintro m hadded rfl honce more hmore answer hanswer
    obtain ⟨look, n, rfl, hsame, hviewed⟩ :=
      hadded.exists_ofItem (marks_viewOnceComplete m.id) hops hmore hdb hanswer
    have hexpired : n.item.isExpired = true := by
      unfold Item.isExpired
      rw [Bool.and_eq_true]
      exact ⟨hsame.2.2.trans honce, hviewed⟩
    -- the message may have been deleted since, or even before
    cases hdeleted : n.wasRemotelyDeleted with
    | true =>
      refine ⟨_, ?_, .inr rfl, withholds_of_content hsame (.inl rfl)⟩
      rw [Snapshot.ofItem, Source.ofItem_of_deleted look hdeleted]
      rfl
    | false =>
      refine ⟨_, ?_, .inl rfl, withholds_of_content hsame (.inr rfl)⟩
      rw [Snapshot.ofItem, Source.ofItem_of_expired look hdeleted hexpired]
      rfl

/-- A view-once message that is deleted, inserted again in vain and marked as viewed. -/
theorem withheld_after_mark_leapMessage :
    let ops : List Operation := [.insertMessage leapMessage]
    let more : List Operation := [.insertMessage { leapMessage with body := some "again" },
      .markViewOnceComplete leapMessage.id]
    let deleted := (Database.fresh.run ops).after (.markRemotelyDeleted leapMessage.id)
    let viewed := (Database.fresh.run ops).after (.markViewOnceComplete leapMessage.id)
    (∃ s, Snapshot.ofMessage (deleted.run more).lookup leapMessage.id = .ok s ∧
      s.shape = .remotelyDeleted ∧ s.Withholds leapMessage) ∧
    ∃ s, Snapshot.ofMessage (viewed.run more).lookup leapMessage.id = .ok s ∧
      (s.shape = .viewOnceExpired ∨ s.shape = .remotelyDeleted) ∧ s.Withholds leapMessage := by
  intro ops more deleted viewed
  have hops : ∀ op ∈ ops, op.Dated := by decide
  have hmore : ∀ op ∈ more, op.Dated := by decide
  have hadded : Added ops leapMessage := ⟨[], [], rfl, _, rfl⟩
  obtain ⟨hdeleted, -⟩ := withheld_after_mark ops hops leapMessage.id deleted
  obtain ⟨-, hviewed⟩ := withheld_after_mark ops hops leapMessage.id viewed
  constructor
  · exact (hdeleted (by rfl)).2 leapMessage hadded rfl more hmore _ .byName
  · exact (hviewed (by rfl)).2 leapMessage hadded rfl rfl more hmore _ .byName

end Store

end Quotation
