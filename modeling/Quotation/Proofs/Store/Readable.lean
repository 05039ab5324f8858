import Quotation.Proofs.Store.Arrival

/-!
# What is stored is read back

After any run, all lookups succeed but those that select a message received in a year outside 0 to
9999. Such a message is stored like any other, and the lookup of its name fails; the lookup of its
time and its account fails too, and hides other messages of that time and that account.

* `StoredOutgoing.Bounded`, `Operation.Bounded`: what is required of outgoing messages;
* `answer_eq_error_iff`, `Contents.exists_head?_copies_iff`: when a lookup of a message fails;
* `Operation.committed`, `Contents.outgoing_after`: what an operation does to outgoing messages;
* `Contents.Bounded`: what every run preserves;
* `lookup_eq_error_iff_added`.
-/

namespace Quotation.Store

/-- Whether the outgoing messages that a transaction adds have lengths below 2 ^ 64 and are added in
years of four digits. -/
def Operation.Bounded : Operation → Prop
  | write os _ => ∀ o ∈ os, o.Bounded
  | _ => True

/-- The outgoing messages that an operation adds, as far as their names are new. -/
def Operation.committed : Operation → List StoredOutgoing
  | write os true => os
  | _ => []

theorem Operation.Bounded.committed {op : Operation} (h : op.Bounded) :
    ∀ o ∈ op.committed, o.Bounded := by
  cases op with
  | write os commits =>
    cases commits with
    | true => exact h
    | false => exact fun _ ho => absurd ho List.not_mem_nil
  | _ => exact fun _ ho => absurd ho List.not_mem_nil

/-! ### Messages -/

theorem answer_eq_error_iff {o : Option Message} {e : StoreError} :
    answer o = .error e ↔
      e = .column (.unreadable 15 .date) ∧ ∃ m, o = some m ∧ ¬m.receivedAt.Dated := by
  cases o with
  | none => simp [answer]
  | some m =>
    rw [answer]
    by_cases h : m.receivedAt.Dated
    · simp [h]
    · simp [h, eq_comm]

theorem unmarked_not_dated : Unmarked fun m => ¬m.receivedAt.Dated :=
  ⟨fun _ => Iff.rfl, fun _ => Iff.rfl⟩

namespace Contents

variable {timestamp : UInt64} {author : Address}

/-- The first copy is not read as soon as any copy is not, since the text of a year with a sign
comes before all others. -/
theorem exists_head?_copies_iff {c : Contents} :
    (∃ m, (c.copies timestamp author).head? = some m ∧ ¬m.receivedAt.Dated) ↔
      ∃ m ∈ c.messages, sentAt timestamp author m = true ∧ ¬m.receivedAt.Dated := by
  constructor
  · rintro ⟨m, hm, hnot⟩
    obtain ⟨hmem, hsent⟩ := mem_copies.mp (List.mem_of_head? hm)
    exact ⟨m, hmem, hsent, hnot⟩
  · rintro ⟨m, hmem, hsent, hnot⟩
    have hm := mem_copies.mpr ⟨hmem, hsent⟩
    cases hcopies : c.copies timestamp author with
    | nil =>
      rw [hcopies] at hm
      cases hm
    | cons n rest =>
      refine ⟨n, rfl, fun hdated => ?_⟩
      have hle := storedBefore_iff.mp (storedBefore_head hcopies hm)
      exact String.not_lt.mpr hle (Instant.stored_lt_stored_of_not_dated hnot hdated)

/-! ### Outgoing messages -/

theorem outgoing_after (c : Contents) (op : Operation) :
    (c.after op).outgoing = (op.committed.foldl addOutgoing c).outgoing := by
  cases op with
  | insertMessage m =>
    rw [after]
    split <;> rfl
  | markViewOnceComplete id => rfl
  | markRemotelyDeleted id => rfl
  | insertAttachment a now =>
    rw [after]
    split <;> rfl
  | setDownloadState id state => rfl
  | completeDownload id localPath contents =>
    rcases contents with e | bytes
    · rfl
    · rw [after]
      split <;> rfl
  | installSticker s => rfl
  | write os commits => cases commits <;> rfl

/-- The lengths in the outgoing messages are below 2 ^ 64, and they were added in years of four
digits, so that they are read back. -/
def Bounded (c : Contents) : Prop :=
  ∀ o ∈ c.outgoing, o.Bounded

namespace Bounded

variable {c : Contents}

theorem of_outgoing_eq {d : Contents} (hc : c.Bounded) (h : d.outgoing = c.outgoing) :
    d.Bounded := by
  rw [Bounded, h]
  exact hc

theorem foldl_addOutgoing (hc : c.Bounded) {os : List StoredOutgoing} (hos : ∀ o ∈ os, o.Bounded) :
    (os.foldl addOutgoing c).Bounded := by
  induction os generalizing c with
  | nil => exact hc
  | cons o os ih =>
    rw [List.forall_mem_cons] at hos
    refine ih ?_ hos.2
    rw [addOutgoing]
    split
    · exact hc
    · exact List.forall_mem_append.mpr ⟨hc, List.forall_mem_singleton.mpr hos.1⟩

theorem after (hc : c.Bounded) {op : Operation} (hop : op.Bounded) : (c.after op).Bounded := by
  refine of_outgoing_eq (hc.foldl_addOutgoing ?_) (c.outgoing_after op)
  exact hop.committed

theorem run (hc : c.Bounded) {ops : List Operation} (hops : ∀ op ∈ ops, op.Bounded) :
    (c.run ops).Bounded := by
  induction ops generalizing c with
  | nil => exact hc
  | cons op ops ih =>
    rw [List.forall_mem_cons] at hops
    exact ih (hc.after hops.1) hops.2

theorem empty : Bounded {} :=
  fun _ ho => absurd ho List.not_mem_nil

end Bounded

end Contents

/-- After any run in which the clock shows years of four digits, a lookup of a message fails exactly
if a message that it may select was added with a time of receipt in another year, and then because
of that time. The other lookups do not fail. -/
theorem lookup_eq_error_iff_added (ops : List Operation) (hops : ∀ op ∈ ops, op.Bounded) :
    let db := Database.fresh.run ops
    (∀ id e, db.message? id = .error e ↔
      e = .column (.unreadable 15 .date) ∧
        ∃ m, Added ops m ∧ m.id = id ∧ ¬m.receivedAt.Dated) ∧
    (∀ timestamp author e, db.messageAt? timestamp author = .error e ↔
      e = .column (.unreadable 15 .date) ∧
        ∃ m, Added ops m ∧ (m.timestamp = timestamp ∧ m.author.uuid = author.uuid) ∧
          ¬m.receivedAt.Dated) ∧
    (∀ id, ∃ a, db.attachment? id = .ok a) ∧
    (∀ info, ∃ s, db.sticker? info = .ok s) ∧
    (∀ id, ∃ o, db.outgoing? id = .ok o) ∧
    ∀ thread, ∃ os, db.outgoingOf thread = .ok os := by
  have hbounded : (Contents.run {} ops).Bounded := Contents.Bounded.empty.run hops
  simp only [Contents.run_fresh]
  refine ⟨fun id e => ?_, fun timestamp author e => ?_, fun id => ?_, fun info => ?_, fun id => ?_,
    fun thread => ?_⟩
  · rw [Contents.message?_eq_answer, answer_eq_error_iff,
      ← exists_ledger_iff_added unmarked_not_dated, ← ledger_run_fresh]
    rfl
  · have hunmarked : Unmarked fun m =>
        Contents.sentAt timestamp author m = true ∧ ¬m.receivedAt.Dated :=
      ⟨fun _ => Iff.rfl, fun _ => Iff.rfl⟩
    rw [Contents.messageAt?_eq_answer, answer_eq_error_iff, ← Contents.copies,
      Contents.exists_head?_copies_iff, exists_mem_iff_added hunmarked]
    simp only [Contents.sentAt, Address.sameAccount, Bool.and_eq_true, beq_iff_eq]
  · exact ⟨_, Contents.attachment?_eq _ id⟩
  · exact ⟨_, Contents.sticker?_eq _ info⟩
  · exact ⟨_, Contents.outgoing?_eq_find? hbounded id⟩
  · exact ⟨_, Contents.outgoingOf_eq hbounded thread⟩

/-- A message received when the year 10000 began. -/
def lateMessage : Message :=
  { leapMessage with
    id := ⟨⟨.replicate 16 9⟩⟩, receivedAt := .ofMillisecond 253402300800000 }

/-- Of two messages of one time and one account the one received in the year 10000 is not read; by
its name the other one is. -/
theorem lookup_eq_error_lateMessage :
    let o : StoredOutgoing := ⟨lateMessage.id, ⟨lateMessage.thread, 18446744073709551615, some "",
      none, [], none, none, none, none⟩, leapMessage.receivedAt⟩
    let ops : List Operation :=
      [.insertMessage leapMessage, .insertMessage lateMessage, .write [o, o] true]
    let db := Database.fresh.run ops
    (∀ op ∈ ops, op.Bounded) ∧
    db.message? lateMessage.id = .error (.column (.unreadable 15 .date)) ∧
    db.messageAt? leapMessage.timestamp leapMessage.author =
      .error (.column (.unreadable 15 .date)) ∧
    (∀ e, db.message? leapMessage.id ≠ .error e) ∧
    ∃ os, db.outgoingOf o.message.thread = .ok os := by
  intro o ops db
  have hbounded : o.Bounded :=
    ⟨by simp [o, OutgoingMessage.Sized, Text.Sized], by decide⟩
  have hops : ∀ op ∈ ops, op.Bounded := by
    simpa [ops, Operation.Bounded] using hbounded
  have hadded : Added ops lateMessage := ⟨[.insertMessage leapMessage], _, rfl, _, rfl⟩
  have hnot : ¬lateMessage.receivedAt.Dated := by decide
  obtain ⟨hname, hcopy, -, -, -, houtgoing⟩ := lookup_eq_error_iff_added ops hops
  refine ⟨hops, (hname _ _).mpr ⟨rfl, lateMessage, hadded, rfl, hnot⟩,
    (hcopy _ _ _).mpr ⟨rfl, lateMessage, hadded, ⟨rfl, rfl⟩, hnot⟩, fun e he => ?_, houtgoing _⟩
  -- what is there under the name was received in the year 2016
  obtain ⟨n, hn, hlate⟩ := (exists_ledger_iff_added unmarked_not_dated).mpr ((hname _ _).mp he).2
  have hfound : Ledger.empty.run ops leapMessage.id = some leapMessage := by
    rfl
  rw [hfound] at hn
  cases hn
  exact hlate (by decide)

/-- The late message is stored, and then the lookup of its name fails. -/
theorem message?_insert_lateMessage :
    ∃ db, Database.fresh.insertMessage lateMessage = .ok db ∧
      db.message? lateMessage.id = .error (.column (.unreadable 15 .date)) := by
  refine ⟨{ messages := [lateMessage] : Contents }.database, by rfl, ?_⟩
  rw [Contents.message?_eq_answer]
  exact answer_eq_error_iff.mpr ⟨rfl, lateMessage, by rfl, by decide⟩

end Quotation.Store
