import Mathlib.Data.List.Perm.Basic
import Quotation.Proofs.Store.Contents

/-!
# Outgoing messages as records

The operations and the lookups of the table of outgoing messages, in terms of the list of them.

* `Database.insertOutgoing_eq`, `Database.outgoing?_eq`: adding and finding, whatever the rows are;
* `Contents.insertOutgoing_eq`, `Contents.outgoing?_eq`: the same in terms of the messages;
* `New`: messages with distinct names that are not taken, and `Contents.sending`: their addition;
* `outgoing?_commit`: what a transaction adds is read back after it;
* `outgoingOf_eq_mapM`: the messages of a thread are read one by one;
* `StoredOutgoing.Bounded`, with `outgoing?_eq_find?` and `outgoingOf_eq`: the lookups where all
  messages are read back;
* `outgoing?_sending_of_mem`, `outgoing?_sending_of_ne`, `outgoingOf_sending`: the lookups after
  messages have been added.
-/

namespace Quotation

/-- Whether the lengths in an outgoing message are below 2 ^ 64 and it was added at an instant that
is read back. -/
def StoredOutgoing.Bounded (o : StoredOutgoing) : Prop :=
  o.message.Sized ∧ o.createdAt.Kept

namespace Store

open scoped List

theorem read_of_bounded {o : StoredOutgoing} (h : o.Bounded) :
    (outgoingOfRow ⟨outgoingColumns, outgoingShown o⟩).mapError StoreError.column = .ok o := by
  obtain ⟨hsized, hdated, hregular⟩ := h
  rw [outgoingOfRow_outgoingShown hsized hdated, mapError_ok,
    StoredOutgoing.reread_of_regular hregular]

/-- Messages with distinct names, none of which is taken by others. -/
structure New (old os : List StoredOutgoing) : Prop where
  distinct : (os.map (·.id)).Nodup
  free : ∀ o ∈ os, old.any (·.id == o.id) = false

namespace New

variable {old xs ys : List StoredOutgoing}

theorem of_append (h : New old (xs ++ ys)) : New old xs ∧ New (old ++ xs) ys := by
  have hdistinct := h.distinct
  rw [List.map_append, List.nodup_append] at hdistinct
  obtain ⟨hxs, hys, hapart⟩ := hdistinct
  refine ⟨⟨hxs, fun o ho => h.free o (List.mem_append_left ys ho)⟩, hys, fun o ho => ?_⟩
  rw [List.any_append, h.free o (List.mem_append_right xs ho), Bool.false_or, List.any_eq_false]
  intro p hp hid
  exact hapart p.id (List.mem_map_of_mem hp) o.id (List.mem_map_of_mem ho) (beq_iff_eq.mp hid)

theorem of_cons {o : StoredOutgoing} (h : New old (o :: ys)) :
    old.any (·.id == o.id) = false ∧ New (old ++ [o]) ys := by
  have hsplit : New old ([o] ++ ys) := h
  obtain ⟨hone, hrest⟩ := hsplit.of_append
  exact ⟨hone.free o List.mem_cons_self, hrest⟩

end New

theorem position_outgoingColumns :
    outgoingColumns.mapM Layout.outgoing.position = .ok [0, 3, 4] := by
  rfl

/-- The cells of the columns that lookups return. -/
theorem map_cell_outgoingCells (o : StoredOutgoing) :
    [0, 3, 4].map (Row.cell (outgoingCells o)) = outgoingShown o := by
  rfl

theorem cell_outgoingCells_eq_iff {o : StoredOutgoing} {id : MessageId} :
    Row.cell (outgoingCells o) 0 = .text id.text ↔ o.id = id := by
  rw [← MessageId.text_inj]
  exact ⟨Cell.text.inj, congrArg Cell.text⟩

namespace Database

/-! Here the table may have any rows, also such that no outgoing message has. -/

variable {db : Database} {rows : List Row}

/-- A message is added unless a row of its name is there. -/
theorem insertOutgoing_eq
    (htable : db.table "outgoing_messages" = .ok { Layout.outgoing with rows })
    (o : StoredOutgoing) :
    db.insertOutgoing o.id o.message o.createdAt =
      if rows.any (Row.cell · 0 == .text o.id.text) then
        .error (.statement (.duplicateKey "outgoing_messages" ["id"]))
      else .ok (db.withTable { Layout.outgoing with rows := rows ++ [outgoingCells o] }) := by
  have hnodup : Layout.outgoing.names.Nodup := by decide
  have hinsert := Table.insert_eq (t := { Layout.outgoing with rows }) hnodup
    (admits_outgoingCells o)
  have hvalues : Layout.outgoing.names.zip (outgoingCells o) = [("id", .text o.id.text),
      ("thread_id", .text o.message.thread.text), ("timestamp", .ofWord o.message.timestamp),
      ("payload", .blob (OutgoingMessage.binary.encode o.message)),
      ("created_at", .text o.createdAt.stored)] := by
    rfl
  have hkey : ∀ r : Row, (Table.keyOf { Layout.outgoing with rows } r ==
      Table.keyOf { Layout.outgoing with rows } (outgoingCells o)) =
      (Row.cell r 0 == .text o.id.text) := by
    intro r
    rw [Bool.eq_iff_iff, beq_iff_eq, beq_iff_eq]
    exact ⟨fun h => (List.cons.inj h).1, fun h => congrArg (fun c => [c]) h⟩
  have hnames : Table.names { Layout.outgoing with rows } = Layout.outgoing.names := rfl
  rw [hnames, hvalues] at hinsert
  simp only [hkey] at hinsert
  simp only [insertOutgoing, insert, htable, bind, Except.bind, hinsert]
  cases rows.any (Row.cell · 0 == .text o.id.text) with
  | true => rfl
  | false => rfl

/-- The first of the rows of a name is read. -/
theorem outgoing?_eq (htable : db.table "outgoing_messages" = .ok { Layout.outgoing with rows })
    (id : MessageId) :
    db.outgoing? id = match rows.find? (Row.cell · 0 == .text id.text) with
      | none => .ok none
      | some r =>
        ((outgoingOfRow ⟨outgoingColumns, [0, 3, 4].map r.cell⟩).mapError .column).map some := by
  have hlocated : [Condition.equals "id" (.text id.text)].mapM
      (Table.locate { Layout.outgoing with rows }) = .ok [(0, .equals "id" (.text id.text))] := by
    rfl
  have hchosen : Table.satisfies [(0, .equals "id" (.text id.text))] =
      (Row.cell · 0 == .text id.text) := by
    funext r
    rw [Bool.eq_iff_iff, beq_iff_eq]
    cases hr : Row.cell r 0 <;>
      simp [Table.satisfies, Condition.holds, Cell.equals, Cell.kind, hr]
  have hselect := Table.select_eq (t := { Layout.outgoing with rows }) position_outgoingColumns
    hlocated
  simp only [outgoing?, select_of_table htable, bind, Except.bind, hselect, mapError_ok, hchosen,
    ← List.head?_filter]
  cases rows.filter (Row.cell · 0 == .text id.text) with
  | nil => rfl
  | cons r rows =>
    simp only [List.map_cons, List.head?_cons]
    cases outgoingOfRow ⟨outgoingColumns, _⟩ with
    | error e => rfl
    | ok o => rfl

end Database

namespace Contents

variable (c : Contents)

theorem table_outgoing :
    c.database.table "outgoing_messages" =
      .ok (Layout.outgoing.holding outgoingCells c.outgoing) := by
  rfl

theorem cell_outgoingCells_beq (id : MessageId) :
    (fun o => Row.cell (outgoingCells o) 0 == .text id.text) = (·.id == id) := by
  funext o
  rw [Bool.eq_iff_iff, beq_iff_eq, beq_iff_eq]
  exact cell_outgoingCells_eq_iff

theorem insertOutgoing_eq (o : StoredOutgoing) :
    c.database.insertOutgoing o.id o.message o.createdAt =
      if c.outgoing.any (·.id == o.id) then
        .error (.statement (.duplicateKey "outgoing_messages" ["id"]))
      else .ok { c with outgoing := c.outgoing ++ [o] }.database := by
  rw [Database.insertOutgoing_eq c.table_outgoing, List.any_map, Function.comp_def,
    cell_outgoingCells_beq, ← List.map_singleton, ← List.map_append]
  rfl

/-- The first of the messages of a name is read. -/
theorem outgoing?_eq (id : MessageId) :
    c.database.outgoing? id = match c.outgoing.find? (·.id == id) with
      | none => .ok none
      | some o =>
        ((outgoingOfRow ⟨outgoingColumns, outgoingShown o⟩).mapError .column).map some := by
  rw [Database.outgoing?_eq c.table_outgoing, List.find?_map, Function.comp_def,
    cell_outgoingCells_beq]
  cases c.outgoing.find? (·.id == id) with
  | none => rfl
  | some o => rfl

/-- A name that nothing is found under is new. -/
theorem any_outgoing_eq_false {id : MessageId} (h : c.database.outgoing? id = .ok none) :
    c.outgoing.any (·.id == id) = false := by
  rw [outgoing?_eq] at h
  cases hfind : c.outgoing.find? (·.id == id) with
  | none => rw [← List.isSome_find?, hfind, Option.isSome_none]
  | some o =>
    rw [hfind] at h
    obtain ⟨o', -, hnone⟩ := map_eq_ok_iff.mp h
    cases hnone

/-- The contents with more outgoing messages. -/
def sending (c : Contents) (os : List StoredOutgoing) : Contents :=
  { c with outgoing := c.outgoing ++ os }

theorem sending_sending (c : Contents) (os os' : List StoredOutgoing) :
    (c.sending os).sending os' = c.sending (os ++ os') := by
  rw [sending, sending, sending, List.append_assoc]

variable {c} {os : List StoredOutgoing}

theorem insertOutgoing_of_new {o : StoredOutgoing} (h : c.outgoing.any (·.id == o.id) = false)
    (db : Database) :
    (WriteTransaction.mk db c.database).insertOutgoing o.id o.message o.createdAt =
      .ok ⟨db, (c.sending [o]).database⟩ := by
  rw [WriteTransaction.insertOutgoing, insertOutgoing_eq, h]
  rfl

/-- The row of a message that is added under a new name is the one that is read under it. -/
theorem outgoing?_sending (h : New c.outgoing os) {o : StoredOutgoing} (ho : o ∈ os) :
    (c.sending os).database.outgoing? o.id =
      ((outgoingOfRow ⟨outgoingColumns, outgoingShown o⟩).mapError .column).map some := by
  have hold : c.outgoing.find? (·.id == o.id) = none := by
    simpa using h.free o ho
  have hfind : (c.outgoing ++ os).find? (·.id == o.id) = some o := by
    rw [List.find?_append, hold, Option.none_or]
    exact find?_of_nodup (·.id) h.distinct ho
  rw [outgoing?_eq, sending, hfind]

theorem outgoing?_sending_of_mem (h : New c.outgoing os) (hos : ∀ o ∈ os, o.Bounded)
    {o : StoredOutgoing} (ho : o ∈ os) :
    (c.sending os).database.outgoing? o.id = .ok (some o) := by
  rw [outgoing?_sending h ho, read_of_bounded (hos o ho)]
  rfl

theorem outgoing?_sending_of_ne {id : MessageId} (h : ∀ o ∈ os, o.id ≠ id) :
    (c.sending os).database.outgoing? id = c.database.outgoing? id := by
  have hnone : os.find? (·.id == id) = none := by
    simpa using h
  rw [outgoing?_eq, outgoing?_eq, sending, List.find?_append, hnone, Option.or_none]

/-- A message that is added under a new name is found under it after the transaction. -/
theorem outgoing?_commit {o : StoredOutgoing} (hnew : c.database.outgoing? o.id = .ok none)
    (hsized : o.message.Sized) (hdated : o.createdAt.Dated) :
    ∃ tx, (WriteTransaction.begin c.database).insertOutgoing o.id o.message o.createdAt = .ok tx ∧
      tx.commit.outgoing? o.id = .ok (some o.reread) := by
  have hfree := c.any_outgoing_eq_false hnew
  have hnew : New c.outgoing [o] := ⟨by simp, by simpa using hfree⟩
  refine ⟨_, insertOutgoing_of_new hfree c.database, ?_⟩
  rw [WriteTransaction.commit, outgoing?_sending hnew List.mem_cons_self,
    outgoingOfRow_outgoingShown hsized hdated]
  rfl

theorem outgoing?_eq_find? (h : ∀ o ∈ c.outgoing, o.Bounded) (id : MessageId) :
    c.database.outgoing? id = .ok (c.outgoing.find? (·.id == id)) := by
  rw [outgoing?_eq]
  cases hfind : c.outgoing.find? (·.id == id) with
  | none => rfl
  | some o =>
    simp only [read_of_bounded (h o (List.mem_of_find?_eq_some hfind))]
    rfl

/-- Whether the integer that keeps the time of an outgoing message is not greater than that of
another. -/
def sentBefore (o p : StoredOutgoing) : Bool :=
  decide (o.message.timestamp.toInt64 ≤ p.message.timestamp.toInt64)

/-- The messages of a thread are put in their order, and then read one by one. -/
theorem outgoingOf_eq_mapM (c : Contents) (thread : ThreadId) :
    c.database.outgoingOf thread =
      (((c.outgoing.filter (·.message.thread == thread)).mergeSort sentBefore).map
        outgoingShown).mapM fun r => (outgoingOfRow ⟨outgoingColumns, r⟩).mapError .column := by
  have hlocated : [Condition.equals "thread_id" (.text thread.text)].mapM Layout.outgoing.locate =
      .ok [(1, .equals "thread_id" (.text thread.text))] := by
    rfl
  have hchosen : ∀ o : StoredOutgoing,
      Table.satisfies [(1, .equals "thread_id" (.text thread.text))] (outgoingCells o) =
        (o.message.thread == thread) := by
    intro o
    rw [Bool.eq_iff_iff, beq_iff_eq, ← ThreadId.text_inj]
    simp [Table.satisfies, Condition.holds, Cell.equals, Row.cell, outgoingCells, Cell.kind]
  have horder : Layout.outgoing.position "timestamp" = .ok 2 := by
    rfl
  have hbefore : ∀ o p : StoredOutgoing,
      (Row.cell (outgoingCells o) 2).le (Row.cell (outgoingCells p) 2) = sentBefore o p := by
    intro o p
    rfl
  have hselect := Table.selectOrdered_holding position_outgoingColumns hlocated hchosen
    map_cell_outgoingCells horder hbefore c.outgoing
  simp only [Database.outgoingOf, Database.selectOrdered_of_table c.table_outgoing, bind,
    Except.bind, hselect, mapError_ok]

theorem outgoingOf_eq (h : ∀ o ∈ c.outgoing, o.Bounded) (thread : ThreadId) :
    c.database.outgoingOf thread =
      .ok ((c.outgoing.filter (·.message.thread == thread)).mergeSort sentBefore) := by
  rw [outgoingOf_eq_mapM]
  refine mapM_map_ok fun o ho => read_of_bounded (h o ?_)
  exact (List.mem_filter.mp (List.mem_mergeSort.mp ho)).1

/-- What is read in a thread is what was read before and what is added to it, in some order. -/
theorem outgoingOf_sending (hos : ∀ o ∈ os, o.Bounded) {t : ThreadId} {old : List StoredOutgoing}
    (hold : c.database.outgoingOf t = .ok old) :
    ∃ new, (c.sending os).database.outgoingOf t = .ok new ∧
      new ~ old ++ os.filter (·.message.thread == t) := by
  rw [outgoingOf_eq_mapM, mapM_eq_ok_iff, List.forall₂_map_left_iff] at hold
  have hadded : ∀ o ∈ os.filter (·.message.thread == t),
      (outgoingOfRow ⟨outgoingColumns, outgoingShown o⟩).mapError StoreError.column = .ok o :=
    fun o ho => read_of_bounded (hos o (List.mem_filter.mp ho).1)
  have hall := List.rel_append hold (List.forall₂_same.mpr hadded)
  -- the messages are put in their order again, and reading does not depend on that
  have hperm : ((c.outgoing ++ os).filter (·.message.thread == t)).mergeSort sentBefore ~
      (c.outgoing.filter (·.message.thread == t)).mergeSort sentBefore ++
        os.filter (·.message.thread == t) := by
    rw [List.filter_append]
    exact (List.mergeSort_perm _ _).trans
      ((List.mergeSort_perm _ _).symm.append_right _)
  obtain ⟨new, hnew, hsame⟩ := List.perm_comp_forall₂ hperm hall
  refine ⟨new, ?_, hsame⟩
  rw [outgoingOf_eq_mapM, mapM_eq_ok_iff, List.forall₂_map_left_iff]
  exact hnew

end Contents

end Store

end Quotation
