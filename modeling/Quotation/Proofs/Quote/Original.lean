import Quotation.Proofs.Quote.Tidy
import Quotation.Proofs.Quote.Withheld

/-!
# The original of a quote

A record of a quote refers to its original by the time at which it was sent and the account that
sent it. If the database keeps such a message, the record leads to the quote of that message as it
is now, and all else that the record says does not count.

* `Database.Keeps`, `QuoteRecord.RefersTo`;
* `Contents.keeps_iff`: what is kept;
* `Contents.exists_found`, `Contents.none_found`: the lookup of the original;
* `keeps_run_iff`: what is kept after a run;
* `ofRecord_run_eq_ofMessage`.
-/

namespace Quotation

/-- Whether a record refers to a message: phone numbers do not count. -/
def QuoteRecord.RefersTo (r : QuoteRecord) (m : Message) : Prop :=
  m.timestamp = r.timestamp ∧ m.author.uuid = r.author.uuid

/-- The quote of an item never comes from another device. -/
theorem Snapshot.isRemotelySourced_of_ofItem {look : Lookup} {i : Item} {s : Snapshot}
    (h : ofItem look i = .ok s) : s.isRemotelySourced = false := by
  obtain ⟨source, content, -, -, rfl⟩ := ofItem_eq_ok_iff.mp h
  rfl

/-- The quote of a record whose original is not there has the time and the author of the record, and
comes from another device unless the author is the local account. -/
theorem Snapshot.ofRecord_of_none {config : Config} {look : Lookup} {r : QuoteRecord}
    (hnone : look.messageAt r.timestamp r.author = .ok none) {s : Snapshot}
    (h : ofRecord config look r = .ok s) :
    s.timestamp = r.timestamp ∧ s.author = r.author ∧
      s.isRemotelySourced = !config.isLocal r.author := by
  rw [ofRecord, hnone] at h
  obtain ⟨source, -, h⟩ := bind_eq_ok_iff.mp h
  obtain ⟨content, -, rfl⟩ := map_eq_ok_iff.mp h
  exact ⟨rfl, rfl, rfl⟩

theorem Config.isLocal_eq_false_iff {config : Config} {a : Address} :
    config.isLocal a = false ↔
      config.localAddress = none ∨ ∃ b, config.localAddress = some b ∧ b.uuid ≠ a.uuid := by
  rw [isLocal]
  cases config.localAddress with
  | none => simp
  | some b => simp [Address.sameAccount]

namespace Store

@[simp] theorem Database.lookup_message (db : Database) (id : MessageId) :
    db.lookup.message id = db.message? id :=
  rfl

@[simp] theorem Database.lookup_messageAt (db : Database) (timestamp : UInt64) (author : Address) :
    db.lookup.messageAt timestamp author = db.messageAt? timestamp author :=
  rfl

/-- Whether a database keeps a message: the lookup of its name finds it. -/
def Database.Keeps (db : Database) (m : Message) : Prop :=
  db.message? m.id = .ok (some m)

/-- The lookup of a time and an account does not look at the phone number. -/
theorem Database.messageAt?_congr (db : Database) (timestamp : UInt64) {a b : Address}
    (h : a.uuid = b.uuid) : db.messageAt? timestamp a = db.messageAt? timestamp b := by
  rw [messageAt?, messageAt?, h]

/-- A record that leads to a message gives the quote of that message. -/
theorem ofRecord_of_found {db : Database} {r : QuoteRecord} {m : Message}
    (hfound : db.messageAt? r.timestamp r.author = .ok (some m)) (config : Config) :
    Snapshot.ofRecord config db.lookup r = Snapshot.ofItem db.lookup m.item := by
  rw [Snapshot.ofRecord, Database.lookup_messageAt, hfound]

theorem Database.Keeps.ofMessage_eq {db : Database} {m : Message} (h : db.Keeps m) :
    Snapshot.ofMessage db.lookup m.id = Snapshot.ofItem db.lookup m.item := by
  rw [Keeps] at h
  rw [Snapshot.ofMessage, lookup_message, h]

namespace Contents

variable {c : Contents}

/-- What is kept are the messages, each as it is read back. -/
theorem keeps_iff (hdistinct : c.Distinct) (hdated : c.Dated) {m : Message} :
    c.database.Keeps m ↔ ∃ n ∈ c.messages, n.reread = m := by
  rw [Database.Keeps, hdated.message?_eq, Except.ok.injEq, Option.map_eq_some_iff]
  constructor
  · rintro ⟨n, hn, rfl⟩
    exact ⟨n, List.mem_of_find?_eq_some hn, rfl⟩
  · rintro ⟨n, hn, rfl⟩
    exact ⟨n, hdistinct.ledger_id hn, rfl⟩

theorem sentAt_eq_true_iff {r : QuoteRecord} {m : Message} :
    sentAt r.timestamp r.author m = true ↔ r.RefersTo m := by
  rw [sentAt, Address.sameAccount, Bool.and_eq_true, beq_iff_eq, beq_iff_eq, QuoteRecord.RefersTo]

/-- A message that a record leads to is kept, and the record refers to it. -/
theorem keeps_of_found (hdistinct : c.Distinct) (hdated : c.Dated) {r : QuoteRecord} {m : Message}
    (hfound : c.database.messageAt? r.timestamp r.author = .ok (some m)) :
    c.database.Keeps m ∧ r.RefersTo m := by
  obtain ⟨n, hn, hread, hsent⟩ := ledger_of_messageAt? hdistinct hdated hfound
  refine ⟨(hdated.message?_eq m.id).trans ?_, sentAt_eq_true_iff.mp hsent⟩
  rw [hn, Option.map_some, hread]

/-- A record leads to a message if it refers to one that is kept. -/
theorem exists_found (hdistinct : c.Distinct) (hdated : c.Dated) {r : QuoteRecord} {m : Message}
    (hkept : c.database.Keeps m) (hrefers : r.RefersTo m) :
    ∃ n, c.database.messageAt? r.timestamp r.author = .ok (some n) := by
  obtain ⟨n, hn, rfl⟩ := (keeps_iff hdistinct hdated).mp hkept
  have hmem : n ∈ (c.messages.filter (sentAt r.timestamp r.author)).mergeSort storedBefore := by
    rw [List.mem_mergeSort, List.mem_filter]
    exact ⟨hn, sentAt_eq_true_iff.mpr hrefers⟩
  rw [c.messageAt?_eq hdated]
  obtain ⟨k, rest, hcons⟩ := List.exists_cons_of_ne_nil (List.ne_nil_of_mem hmem)
  exact ⟨k.reread, by rw [hcons, List.head?_cons, Option.map_some]⟩

/-- A record leads to no message if it refers to none that is kept. -/
theorem none_found (hdistinct : c.Distinct) (hdated : c.Dated) {r : QuoteRecord}
    (hnone : ¬∃ m, c.database.Keeps m ∧ r.RefersTo m) :
    c.database.messageAt? r.timestamp r.author = .ok none := by
  refine c.messageAt?_eq_none fun m hm => ?_
  rw [← Bool.not_eq_true, sentAt_eq_true_iff]
  exact fun hrefers =>
    hnone ⟨m.reread, (keeps_iff hdistinct hdated).mpr ⟨m, hm, rfl⟩, hrefers⟩

end Contents

/-- After any run, the messages that are kept are those of the map. -/
theorem keeps_run_iff {ops : List Operation} (hops : ∀ op ∈ ops, op.Kept) {m : Message} :
    (Database.fresh.run ops).Keeps m ↔ Ledger.empty.run ops m.id = some m := by
  rw [Database.Keeps, Contents.run_fresh, (Contents.kept_run hops).message?_eq, ledger_run_fresh,
    Except.ok.injEq]

/-- After any run, a record that refers to a message that is kept leads to such a message, and what
it gives is the quote of that message by name, be it a snapshot or an error. So nothing that the
record says counts but the time and the account, nor does the configuration, and the quote does not
come from another device. Of a record that refers to no message that is kept, the quote has the time
and the author of the record and comes from another device exactly if the local account is not known
or another one. -/
theorem ofRecord_run_eq_ofMessage (ops : List Operation) (hops : ∀ op ∈ ops, op.Dated)
    (config : Config) (r : QuoteRecord) :
    let db := Database.fresh.run ops
    ((∃ m, db.Keeps m ∧ r.RefersTo m) →
      ∃ m, db.messageAt? r.timestamp r.author = .ok (some m) ∧ db.Keeps m ∧ r.RefersTo m ∧
        Snapshot.ofRecord config db.lookup r = Snapshot.ofMessage db.lookup m.id ∧
        (∀ (config' : Config) (r' : QuoteRecord), r'.timestamp = r.timestamp →
          r'.author.uuid = r.author.uuid →
          Snapshot.ofRecord config' db.lookup r' = Snapshot.ofRecord config db.lookup r) ∧
        ∀ s, Snapshot.ofRecord config db.lookup r = .ok s → s.isRemotelySourced = false) ∧
    ((¬∃ m, db.Keeps m ∧ r.RefersTo m) →
      ∀ s, Snapshot.ofRecord config db.lookup r = .ok s →
        s.timestamp = r.timestamp ∧ s.author = r.author ∧
        (s.isRemotelySourced = true ↔ config.localAddress = none ∨
          ∃ a, config.localAddress = some a ∧ a.uuid ≠ r.author.uuid)) := by
  intro db
  have hdistinct := Contents.Distinct.empty.run ops
  have hdated := Contents.dated_run hops
  have hdb : db = (Contents.run {} ops).database := Contents.run_fresh ops
  rw [hdb]
  constructor
  · rintro ⟨n, hkept, hrefers⟩
    obtain ⟨m, hfound⟩ := Contents.exists_found hdistinct hdated hkept hrefers
    obtain ⟨hkept, hrefers⟩ := Contents.keeps_of_found hdistinct hdated hfound
    refine ⟨m, hfound, hkept, hrefers, ?_, ?_, ?_⟩
    · rw [ofRecord_of_found hfound, hkept.ofMessage_eq]
    · intro config' r' htimestamp hauthor
      have hfound' : (Contents.run {} ops).database.messageAt? r'.timestamp r'.author =
          .ok (some m) := by
        rw [htimestamp, Database.messageAt?_congr _ _ hauthor, hfound]
      rw [ofRecord_of_found hfound', ofRecord_of_found hfound]
    · intro s hs
      rw [ofRecord_of_found hfound] at hs
      exact Snapshot.isRemotelySourced_of_ofItem hs
  · intro hnone s hs
    obtain ⟨htimestamp, hauthor, hremote⟩ :=
      Snapshot.ofRecord_of_none (Contents.none_found hdistinct hdated hnone) hs
    refine ⟨htimestamp, hauthor, ?_⟩
    rw [hremote, Bool.not_eq_true', Config.isLocal_eq_false_iff]

/-- Of two records with the account of a message that is kept, one refers to it, by another phone
number and with another text; at the time of the other nothing was sent. -/
theorem ofRecord_run_eq_ofMessage_leapMessage :
    let m : Message := { leapMessage with body := some "Hi" }
    let db := Database.fresh.run [.insertMessage m]
    let r : QuoteRecord :=
      { timestamp := m.timestamp
        author := ⟨m.author.uuid, some "+15550100"⟩
        body := some "Hello" }
    let other : QuoteRecord := { r with timestamp := 1000 }
    (db.Keeps m ∧ r.RefersTo m) ∧
    Snapshot.ofRecord {} db.lookup r = Snapshot.ofMessage db.lookup m.id ∧
    (¬∃ m, db.Keeps m ∧ other.RefersTo m) ∧
    ∃ s, Snapshot.ofRecord {} db.lookup other = .ok s ∧ s.author = r.author ∧
      s.isRemotelySourced = true := by
  intro m db r other
  have hops : ∀ op ∈ [Operation.insertMessage m], op.Dated := by decide
  have hkeeps : ∀ n, db.Keeps n ↔ n = m := by
    intro n
    rw [keeps_run_iff (by decide), ← mem_messages_run_iff]
    exact List.mem_singleton
  have hkept : db.Keeps m ∧ r.RefersTo m := ⟨(hkeeps m).mpr rfl, rfl, rfl⟩
  have hnone : ¬∃ n, db.Keeps n ∧ other.RefersTo n := by
    rintro ⟨n, hn, htimestamp, -⟩
    rw [(hkeeps n).mp hn] at htimestamp
    exact absurd htimestamp (by decide)
  obtain ⟨hkeptQuote, -⟩ := ofRecord_run_eq_ofMessage [.insertMessage m] hops {} r
  obtain ⟨-, hotherQuote⟩ := ofRecord_run_eq_ofMessage [.insertMessage m] hops {} other
  have hshown : Snapshot.ofRecord {} db.lookup other =
      .ok ⟨1000, r.author, true, .text "Hello" none⟩ := by
    have hnotFound : db.messageAt? other.timestamp other.author = .ok none :=
      Contents.messageAt?_eq_none (Contents.run {} [.insertMessage m]) (by decide)
    rw [Snapshot.ofRecord, Database.lookup_messageAt, hnotFound]
    rfl
  refine ⟨hkept, ?_, hnone, _, hshown, rfl, (hotherQuote hnone _ hshown).2.2.mpr (.inl rfl)⟩
  obtain ⟨n, -, hn, -, hquote, -⟩ := hkeptQuote ⟨m, hkept⟩
  rwa [(hkeeps n).mp hn] at hquote

end Store

end Quotation
