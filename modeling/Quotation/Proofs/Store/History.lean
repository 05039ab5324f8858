import Quotation.Proofs.Store.Ledger

/-!
# Where the messages come from

A message that is there after a run was added in it, and has kept what no operation changes.

* `Added`, `SameOrigin`;
* `Added.ledger`, `exists_added`, `exists_added_of_mem`, `messageAt?_of_not_added`;
* `Unmarked`, `exists_ledger_iff_added`, `exists_mem_iff_added`: what is there was so when it was
  added;
* `Marks`, `Added.ledger_mark`: what a mark gives to a message stays with it.
-/

namespace Quotation.Store

/-- Whether a run from an empty database adds a message. -/
def Added (ops : List Operation) (m : Message) : Prop :=
  ∃ before after, ops = before ++ .insertMessage m :: after ∧
    ∃ db, (Database.fresh.run before).insertMessage m = .ok db

/-- What a message has that no mark changes. -/
def SameOrigin (m n : Message) : Prop :=
  n.timestamp = m.timestamp ∧ n.author = m.author ∧ n.isViewOnce = m.isViewOnce

variable {ops : List Operation} {m : Message}

/-- A message that was added is there with whatever it was added with that the marks preserve. -/
theorem Added.exists_ledger (h : Added ops m) {P : Message → Prop}
    (hviewed : ∀ m, P m → P m.viewed) (htombstone : ∀ m, P m → P m.tombstone) (hP : P m) :
    ∃ n, Ledger.empty.run ops m.id = some n ∧ P n := by
  obtain ⟨before, after, rfl, hnew⟩ := h
  rw [Contents.run_fresh, Contents.insertMessage_eq_ok_iff, ledger_run_fresh] at hnew
  have hput : (Ledger.empty.run before).after (.insertMessage m) m.id = some m := by
    rw [Ledger.after, hnew]
    exact if_pos rfl
  rw [Ledger.run_append]
  exact Ledger.run_preserves hviewed htombstone hput hP after

/-- In particular it is there with the time, the author and the kind it was added with. -/
theorem Added.ledger (h : Added ops m) :
    ∃ n, Ledger.empty.run ops m.id = some n ∧ SameOrigin m n :=
  h.exists_ledger (fun _ h => h) (fun _ h => h) ⟨rfl, rfl, rfl⟩

/-- A message that is there was added. -/
theorem exists_added {id : MessageId} (h : (Ledger.empty.run ops id).isSome = true) :
    ∃ m, Added ops m ∧ m.id = id := by
  obtain ⟨n, hn⟩ := Option.isSome_iff_exists.mp h
  obtain ⟨before, m, after, rfl, hid, hbefore⟩ := Ledger.run_eq_some rfl hn
  refine ⟨m, ⟨before, after, rfl, ?_⟩, hid⟩
  rw [Contents.run_fresh, Contents.insertMessage_eq_ok_iff, ledger_run_fresh, hid]
  exact hbefore

/-- A property of messages that neither mark gives or takes away. -/
structure Unmarked (P : Message → Prop) : Prop where
  viewed : ∀ m, P m.viewed ↔ P m
  tombstone : ∀ m, P m.tombstone ↔ P m

/-- The message of a name has such a property exactly if it was added with it. -/
theorem exists_ledger_iff_added {P : Message → Prop} (hP : Unmarked P) {id : MessageId} :
    (∃ n, Ledger.empty.run ops id = some n ∧ P n) ↔ ∃ m, Added ops m ∧ m.id = id ∧ P m := by
  constructor
  · rintro ⟨n, hn, hPn⟩
    have hthere : (Ledger.empty.run ops id).isSome = true := by
      rw [hn]
      rfl
    obtain ⟨m, hadded, rfl⟩ := exists_added hthere
    refine ⟨m, hadded, rfl, Classical.not_not.mp fun hnot => ?_⟩
    obtain ⟨k, hk, hnotk⟩ := hadded.exists_ledger (P := fun m => ¬P m)
      (fun m => mt (hP.viewed m).mp) (fun m => mt (hP.tombstone m).mp) hnot
    rw [hn] at hk
    cases hk
    exact hnotk hPn
  · rintro ⟨m, hadded, rfl, hPm⟩
    exact hadded.exists_ledger (fun m => (hP.viewed m).mpr) (fun m => (hP.tombstone m).mpr) hPm

/-- Some message has such a property exactly if one was added with it. -/
theorem exists_mem_iff_added {P : Message → Prop} (hP : Unmarked P) :
    (∃ n ∈ (Contents.run {} ops).messages, P n) ↔ ∃ m, Added ops m ∧ P m := by
  constructor
  · rintro ⟨n, hn, hPn⟩
    obtain ⟨m, hadded, -, hPm⟩ :=
      (exists_ledger_iff_added hP).mp ⟨n, mem_messages_run_iff.mp hn, hPn⟩
    exact ⟨m, hadded, hPm⟩
  · rintro ⟨m, hadded, hPm⟩
    obtain ⟨n, hn, hPn⟩ := (exists_ledger_iff_added hP).mpr ⟨m, hadded, rfl, hPm⟩
    rw [← ledger_run_fresh] at hn
    exact ⟨n, List.mem_of_find?_eq_some hn, hPn⟩

theorem exists_added_of_mem (hm : m ∈ (Contents.run {} ops).messages) :
    ∃ n, Added ops n ∧ SameOrigin n m :=
  (exists_mem_iff_added ⟨fun _ => Iff.rfl, fun _ => Iff.rfl⟩).mp ⟨m, hm, rfl, rfl, rfl⟩

/-- A message that no run adds is not found. -/
theorem messageAt?_of_not_added {timestamp : UInt64} {author : Address}
    (h : ∀ m, Added ops m → ¬(m.timestamp = timestamp ∧ m.author.uuid = author.uuid)) :
    (Database.fresh.run ops).messageAt? timestamp author = .ok none := by
  rw [Contents.run_fresh]
  refine Contents.messageAt?_eq_none _ fun m hm => ?_
  -- a message keeps the time and the author that it was added with
  obtain ⟨n, hadded, htimestamp, hauthor, -⟩ := exists_added_of_mem hm
  have hother := h n hadded
  rw [← htimestamp, ← hauthor] at hother
  rw [Contents.sentAt, Address.sameAccount]
  simpa using hother

theorem not_added_nil : ¬Added [] m := by
  rintro ⟨before, after, hnil, -⟩
  simp at hnil

/-- An operation that changes the message of a name, and what holds of the message from then on,
since neither mark undoes it. -/
structure Marks (op : Operation) (id : MessageId) (f : Message → Message)
    (P : Message → Prop) : Prop where
  dated : op.Dated
  after_eq : ∀ l : Ledger, l.after op = l.change id f
  origin : ∀ m n, SameOrigin m n → SameOrigin m (f n)
  holds : ∀ n, P (f n)
  viewed : ∀ n, P n → P n.viewed
  tombstone : ∀ n, P n → P n.tombstone

theorem marks_remotelyDeleted (id : MessageId) :
    Marks (.markRemotelyDeleted id) id .tombstone (·.wasRemotelyDeleted = true) where
  dated := trivial
  after_eq _ := rfl
  origin _ _ h := h
  holds _ := rfl
  viewed _ h := h
  tombstone _ _ := rfl

theorem marks_viewOnceComplete (id : MessageId) :
    Marks (.markViewOnceComplete id) id .viewed (·.isViewOnceComplete = true) where
  dated := trivial
  after_eq _ := rfl
  origin _ _ h := h
  holds _ := rfl
  viewed _ _ := rfl
  tombstone _ h := h

/-- What a mark gives to a message holds of it ever after. -/
theorem Added.ledger_mark (h : Added ops m) {op : Operation} {f : Message → Message}
    {P : Message → Prop} (hop : Marks op m.id f P) (more : List Operation) :
    ∃ n, Ledger.empty.run (ops ++ op :: more) m.id = some n ∧ SameOrigin m n ∧ P n := by
  obtain ⟨n, hn, hsame⟩ := h.ledger
  have hmarked : (Ledger.empty.run ops).after op m.id = some (f n) := by
    rw [hop.after_eq, Ledger.change, if_pos rfl, hn]
    rfl
  rw [Ledger.run_append]
  exact Ledger.run_preserves (fun n hn => ⟨hn.1, hop.viewed n hn.2⟩)
    (fun n hn => ⟨hn.1, hop.tombstone n hn.2⟩) hmarked ⟨hop.origin m n hsame, hop.holds n⟩ more

/-- An operation that succeeds, and those after it, as one run with those before. -/
theorem run_perform {more : List Operation} {op : Operation} {db : Database}
    (h : (Database.fresh.run ops).perform op = .ok db) :
    db.run more = (Contents.run {} (ops ++ op :: more)).database := by
  rw [← Contents.run_fresh, Database.run_append]
  have hafter : (Database.fresh.run ops).after op = db := by
    rw [Database.after, h]
  rw [← hafter]
  rfl

end Quotation.Store
