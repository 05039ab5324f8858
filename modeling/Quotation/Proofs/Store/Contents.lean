import Quotation.Proofs.Store.Rows
import Quotation.Proofs.Store.Table
import Quotation.Store.Attachments
import Quotation.Store.Stickers

/-!
# The contents of a database

The records that the four tables of a database hold. Each operation of the store is a change to the
lists of them.

* `Contents`, `Contents.database`;
* `admits_messageCells` and its like: the tables keep the cells of records as they are given;
* `map_of_any_eq_false`, `find?_append_of_new`, `find?_map_named`, `find?_replace_named`: what is
  found under a name after a record is added, is changed, or takes the place of others;
* `find?_of_nodup`, `nodup_append_of_new`, `map_name_map`: records with distinct names.
-/

namespace Quotation.Store

/-- The cells of an attachment and of the time at which it was added. -/
def datedAttachmentCells (p : Attachment × Instant) : Row :=
  attachmentCells p.1 ++ [.text p.2.stored]

/-- The records of the four tables, each kind in the order of insertion; to an attachment belongs
the time at which it was added. -/
structure Contents where
  messages : List Message := []
  attachments : List (Attachment × Instant) := []
  stickers : List InstalledSticker := []
  outgoing : List StoredOutgoing := []

/-- The database that holds some records. -/
def Contents.database (c : Contents) : Database where
  version := 1
  schema :=
    { tables := [Layout.messages.holding messageCells c.messages,
        Layout.attachments.holding datedAttachmentCells c.attachments,
        Layout.stickers.holding stickerCells c.stickers,
        Layout.outgoing.holding outgoingCells c.outgoing]
      indexes := Layout.indexes }

theorem Contents.database_empty : database {} = .fresh := by
  rfl

/-- The tables of a database of records, by their names. -/
theorem Contents.table?_database (c : Contents) (name : String) : c.database.table? name =
    if name = "messages" then some (Layout.messages.holding messageCells c.messages)
    else if name = "attachments" then
      some (Layout.attachments.holding datedAttachmentCells c.attachments)
    else if name = "stickers" then some (Layout.stickers.holding stickerCells c.stickers)
    else if name = "outgoing_messages" then some (Layout.outgoing.holding outgoingCells c.outgoing)
    else none := by
  have hfind : ∀ (t : Table) (rest : List Table), (t :: rest).find? (·.name == name) =
      if name = t.name then some t else rest.find? (·.name == name) := by
    intro t rest
    rw [List.find?_cons]
    by_cases h : name = t.name
    · rw [if_pos h, h, beq_self_eq_true]
    · rw [if_neg h, beq_false_of_ne (Ne.symm h)]
  rw [Database.table?]
  change List.find? _ [_, _, _, _] = _
  rw [hfind, hfind, hfind, hfind, List.find?_nil]
  rfl

section Admits

variable {title : Identifier}

@[simp] theorem admits_text (s : String) : (Layout.full .text title).Admits (.text s) :=
  ⟨rfl, .inr (by simp [Cell.kind])⟩

@[simp] theorem admits_text? (s : Option String) :
    (Layout.sparse .text title).Admits (.ofText? s) := by
  cases s <;> exact ⟨rfl, .inl rfl⟩

@[simp] theorem admits_sparse_text (s : String) : (Layout.sparse .text title).Admits (.text s) :=
  ⟨rfl, .inl rfl⟩

@[simp] theorem admits_null : (Layout.sparse .text title).Admits .null :=
  ⟨rfl, .inl rfl⟩

@[simp] theorem admits_integer (n : Int64) : (Layout.full .integer title).Admits (.integer n) :=
  ⟨rfl, .inr (by simp [Cell.kind])⟩

@[simp] theorem admits_blob (bytes : List UInt8) : (Layout.full .blob title).Admits (.blob bytes) :=
  ⟨rfl, .inr (by simp [Cell.kind])⟩

theorem admits_messageCells (m : Message) : Layout.messages.Admits (messageCells m) := by
  refine ⟨rfl, ?_⟩
  simp [Layout.messages, messageCells, jsonCell, Cell.ofWord, Cell.ofBool]

theorem admits_datedAttachmentCells (p : Attachment × Instant) :
    Layout.attachments.Admits (datedAttachmentCells p) := by
  rcases p with ⟨s | p, now⟩
  all_goals
    refine ⟨rfl, ?_⟩
    simp [Layout.attachments, datedAttachmentCells, attachmentCells, Cell.ofWord]

theorem admits_stickerCells (s : InstalledSticker) : Layout.stickers.Admits (stickerCells s) := by
  refine ⟨rfl, ?_⟩
  simp [Layout.stickers, stickerCells, numberCell]

theorem admits_outgoingCells (o : StoredOutgoing) : Layout.outgoing.Admits (outgoingCells o) := by
  refine ⟨rfl, ?_⟩
  simp [Layout.outgoing, outgoingCells, Cell.ofWord]

end Admits

/-- Where nothing is chosen nothing changes. -/
theorem map_of_any_eq_false {α : Type} {chosen : α → Bool} {xs : List α}
    (h : xs.any chosen = false) (f : α → α) :
    (xs.map fun x => if chosen x then f x else x) = xs := by
  refine Eq.trans (List.map_congr_left fun x hx => ?_) (List.map_id xs)
  exact if_neg (List.any_eq_false.mp h x hx)

theorem decide_length_filter_pos {α : Type} (p : α → Bool) (xs : List α) :
    decide (0 < (xs.filter p).length) = xs.any p := by
  rw [Bool.eq_iff_iff, decide_eq_true_iff, List.length_pos_iff_exists_mem, List.any_eq_true]
  simp only [List.mem_filter]

section Named

variable {α κ : Type} (name : α → κ)

/-- A change to some records that keeps their names keeps the names of all. -/
theorem map_name_map {f : α → α} (hf : ∀ x, name (f x) = name x) (chosen : α → Bool)
    (xs : List α) : (xs.map fun x => if chosen x then f x else x).map name = xs.map name := by
  rw [List.map_map]
  refine List.map_congr_left fun x _ => ?_
  rw [Function.comp_apply]
  split
  · exact hf x
  · rfl

/-- A record that takes the place of those of its name is found under it, and all others as
before. -/
theorem find?_replace_named [BEq κ] [LawfulBEq κ] (xs : List α) (x : α) (k : κ) :
    (xs.filter (fun y => !(name y == name x)) ++ [x]).find? (fun y => name y == k) =
      if name x == k then some x else xs.find? fun y => name y == k := by
  rw [List.find?_append, List.find?_singleton]
  by_cases hk : name x = k
  · subst hk
    have hnone : (xs.filter fun y => !(name y == name x)).find?
        (fun y => name y == name x) = none := by
      refine List.find?_eq_none.mpr fun y hy => ?_
      simpa using (List.mem_filter.mp hy).2
    rw [hnone, Option.none_or, if_pos (beq_self_eq_true _), if_pos (beq_self_eq_true _)]
  · have hkept : (xs.filter fun y => !(name y == name x)).find? (fun y => name y == k) =
        xs.find? fun y => name y == k := by
      rw [List.find?_filter]
      congr 1
      funext y
      by_cases hy : name y = k
      · simp [hy, Ne.symm hk]
      · simp [hy]
    rw [hkept, if_neg (by simpa using hk), if_neg (by simpa using hk), Option.or_none]

variable [DecidableEq κ]

/-- A record that is added under a new name is found under it, and all others as before. -/
theorem find?_append_of_new {xs : List α} {x : α}
    (hnew : xs.any (fun y => name y == name x) = false) (k : κ) :
    (xs ++ [x]).find? (fun y => name y == k) =
      if k = name x then some x else xs.find? fun y => name y == k := by
  rw [List.find?_append]
  by_cases hk : k = name x
  · have hnone : xs.find? (fun y => name y == name x) = none := by
      rw [← Option.isNone_iff_eq_none, ← Option.not_isSome, List.isSome_find?, hnew]
      rfl
    rw [if_pos hk, hk, hnone]
    simp
  · have hne : (name x == k) = false := beq_false_of_ne fun h => hk h.symm
    rw [if_neg hk]
    simp [hne]

/-- A change to the records of a name that keeps the name changes what is found under it. -/
theorem find?_map_named {f : α → α} (hf : ∀ x, name (f x) = name x) (xs : List α) (k i : κ) :
    (xs.map fun x => if name x == k then f x else x).find? (fun y => name y == i) =
      if i = k then (xs.find? fun y => name y == i).map f else xs.find? fun y => name y == i := by
  -- changed or not, a record is found under the same name
  have hkept : ((fun y => name y == i) ∘ fun x => if name x == k then f x else x) =
      fun y => name y == i := by
    funext x
    rw [Function.comp_apply]
    split
    · rw [hf]
    · rfl
  rw [List.find?_map, hkept]
  cases hfind : xs.find? fun y => name y == i with
  | none => simp
  | some x =>
    obtain rfl : name x = i := beq_iff_eq.mp (List.find?_some (p := fun y => name y == i) hfind)
    by_cases hk : name x = k <;> simp [hk]

/-- Of distinct names, each finds its own record. -/
theorem find?_of_nodup {xs : List α} (h : (xs.map name).Nodup) {x : α} (hx : x ∈ xs) :
    xs.find? (fun y => name y == name x) = some x := by
  induction xs with
  | nil => cases hx
  | cons y xs ih =>
    rw [List.map_cons, List.nodup_cons] at h
    rcases List.mem_cons.mp hx with rfl | hx
    · exact List.find?_cons_of_pos (beq_self_eq_true (name x))
    · have hne : name y ≠ name x := by
        intro hname
        exact h.1 (List.mem_map.mpr ⟨x, hx, hname.symm⟩)
      rw [List.find?_cons, beq_false_of_ne hne]
      exact ih h.2 hx

/-- Distinct names stay distinct when a record is added under a new one. -/
theorem nodup_append_of_new {xs : List α} (h : (xs.map name).Nodup) {x : α}
    (hnew : xs.any (fun y => name y == name x) = false) : ((xs ++ [x]).map name).Nodup := by
  rw [List.map_append, List.nodup_append]
  refine ⟨h, by simp, fun i hi j hj => ?_⟩
  obtain ⟨y, hy, rfl⟩ := List.mem_map.mp hi
  obtain rfl : j = name x := List.mem_singleton.mp hj
  rw [List.any_eq_false] at hnew
  exact fun hname => hnew y hy (beq_iff_eq.mpr hname)

end Named

end Quotation.Store
