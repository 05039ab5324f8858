import Quotation.Proofs.Store.Operation

/-!
# The table of attachments is a map

Of a database that is only changed by the operations of the store, a map from names to attachments
tells what the lookup of a name answers.

* `Inventory`, `Inventory.after`, `Inventory.run`: the map, and what the operations do to it;
* `Contents.inventory_after`, `Contents.inventory_run`: the records are that map;
* `Inventory.run_stream`, `Inventory.run_pointer`: what becomes of a stream and of a pointer in a
  run;
* `AddedThen`, `Inventory.run_eq_some`: where an attachment comes from;
* `run_eq_none_iff`, `run_eq_stream_iff`, `run_eq_pointer_iff`: when there is nothing, a stream, or
  a pointer, and in which state.
-/

namespace Quotation

namespace Attachment

/-- Whether two attachments agree in all that neither notes nor downloads change. -/
structure SameDescription (a b : Attachment) : Prop where
  id : b.id = a.id
  contentType : b.contentType = a.contentType
  sourceFilename : b.sourceFilename = a.sourceFilename

@[simp] theorem id_withState (state : DownloadState) (a : Attachment) :
    (a.withState state).id = a.id := by
  cases a <;> rfl

@[simp] theorem id_fetched (localPath : RawPath) (bytes : List UInt8) (a : Attachment) :
    (a.fetched localPath bytes).id = a.id :=
  rfl

theorem SameDescription.rfl {a : Attachment} : a.SameDescription a :=
  ⟨.refl _, .refl _, .refl _⟩

theorem SameDescription.trans {a b c : Attachment} (hab : a.SameDescription b)
    (hbc : b.SameDescription c) : a.SameDescription c :=
  ⟨hbc.id.trans hab.id, hbc.contentType.trans hab.contentType,
    hbc.sourceFilename.trans hab.sourceFilename⟩

theorem sameDescription_withState (state : DownloadState) (a : Attachment) :
    a.SameDescription (a.withState state) := by
  cases a <;> exact ⟨rfl, rfl, rfl⟩

theorem sameDescription_fetched (localPath : RawPath) (bytes : List UInt8) (a : Attachment) :
    a.SameDescription (a.fetched localPath bytes) :=
  ⟨rfl, rfl, rfl⟩

end Attachment

namespace Store

/-- Whether an operation completes the download of an attachment. -/
def Operation.Completes (id : AttachmentId) : Operation → Prop
  | completeDownload i _ (.ok _) => i = id
  | _ => False

/-- How far the fetching of an attachment is after an operation, as far as operations note it. -/
def Operation.noted (id : AttachmentId) (state : DownloadState) : Operation → DownloadState
  | setDownloadState i new => if i = id then new else state
  | _ => state

/-- The state that was noted last, and the given one if none was. -/
def lastNoted (id : AttachmentId) (state : DownloadState) (ops : List Operation) : DownloadState :=
  ops.foldl (Operation.noted id) state

/-- The attachments by their names. -/
def Inventory := AttachmentId → Option Attachment

namespace Inventory

/-- No attachments. -/
def empty : Inventory := fun _ => none

/-- An attachment is added under its name. -/
def put (v : Inventory) (a : Attachment) : Inventory :=
  fun id => if id = a.id then some a else v id

/-- The attachment of a name, if there is one, is changed. -/
def change (v : Inventory) (id : AttachmentId) (f : Attachment → Attachment) : Inventory :=
  fun i => if i = id then (v i).map f else v i

/-- What an operation does to the attachments. -/
def after (v : Inventory) : Operation → Inventory
  | .insertAttachment a _ => if (v a.id).isSome then v else v.put a
  | .setDownloadState id state => v.change id (.withState state)
  | .completeDownload id localPath (.ok bytes) => v.change id (.fetched localPath bytes)
  | _ => v

/-- The attachments after some operations. -/
def run (v : Inventory) (ops : List Operation) : Inventory :=
  ops.foldl after v

theorem run_append (v : Inventory) (ops ops' : List Operation) :
    v.run (ops ++ ops') = (v.run ops).run ops' :=
  List.foldl_append

/-! ### What an operation does to one attachment -/

variable {v : Inventory} {id : AttachmentId}

theorem change_of_ne {f : Attachment → Attachment} {i : AttachmentId} (h : id ≠ i) :
    v.change i f id = v id :=
  if_neg h

theorem change_self {f : Attachment → Attachment} {a : Attachment} (ha : v id = some a) :
    v.change id f id = some (f a) := by
  rw [change, if_pos rfl, ha]
  rfl

/-- What an operation does to the attachment of a name: nothing, or it adds it under the new name,
notes a state of it, or completes its download. -/
theorem after_cases (v : Inventory) (id : AttachmentId) (op : Operation) :
    (¬op.Completes id ∧ (∀ state, op.noted id state = state) ∧ v.after op id = v id) ∨
    (∃ a now, op = .insertAttachment a now ∧ a.id = id ∧ v id = none ∧ v.after op id = some a) ∨
    (∃ state, op = .setDownloadState id state ∧ v.after op id = (v id).map (.withState state)) ∨
    ∃ localPath bytes, op = .completeDownload id localPath (.ok bytes) ∧
      v.after op id = (v id).map (.fetched localPath bytes) := by
  cases op with
  | insertAttachment a now =>
    by_cases hnew : (v a.id).isSome = true
    · exact .inl ⟨not_false, fun _ => rfl, congrFun (if_pos hnew) id⟩
    · have hput : v.after (.insertAttachment a now) = v.put a := if_neg hnew
      rw [Option.not_isSome_iff_eq_none] at hnew
      by_cases hid : id = a.id
      · subst hid
        exact .inr (.inl ⟨a, now, rfl, rfl, hnew, (congrFun hput _).trans (if_pos rfl)⟩)
      · exact .inl ⟨not_false, fun _ => rfl, (congrFun hput _).trans (if_neg hid)⟩
  | setDownloadState i state =>
    by_cases hi : id = i
    · subst hi
      exact .inr (.inr (.inl ⟨state, rfl, if_pos rfl⟩))
    · exact .inl ⟨not_false, fun _ => if_neg fun h => hi h.symm, if_neg hi⟩
  | completeDownload i localPath contents =>
    rcases contents with e | bytes
    · exact .inl ⟨not_false, fun _ => rfl, rfl⟩
    · by_cases hi : id = i
      · subst hi
        exact .inr (.inr (.inr ⟨localPath, bytes, rfl, if_pos rfl⟩))
      · exact .inl ⟨fun h => hi h.symm, fun _ => rfl, if_neg hi⟩
  | insertMessage m => exact .inl ⟨not_false, fun _ => rfl, rfl⟩
  | markViewOnceComplete i => exact .inl ⟨not_false, fun _ => rfl, rfl⟩
  | markRemotelyDeleted i => exact .inl ⟨not_false, fun _ => rfl, rfl⟩
  | installSticker s => exact .inl ⟨not_false, fun _ => rfl, rfl⟩
  | write os commits => exact .inl ⟨not_false, fun _ => rfl, rfl⟩

/-- An attachment that is there stays there, and keeps its description. -/
theorem after_of_some {a : Attachment} (ha : v id = some a) (op : Operation) :
    ∃ b, v.after op id = some b ∧ a.SameDescription b := by
  rcases v.after_cases id op with ⟨-, -, hsame⟩ | ⟨b, now, -, -, hnone, -⟩ | ⟨state, -, hnext⟩ |
    ⟨localPath, bytes, -, hnext⟩
  · exact ⟨a, hsame.trans ha, .rfl⟩
  · cases hnone.symm.trans ha
  · rw [ha] at hnext
    exact ⟨_, hnext, a.sameDescription_withState state⟩
  · rw [ha] at hnext
    exact ⟨_, hnext, a.sameDescription_fetched localPath bytes⟩

/-- A stream stays one. -/
theorem after_stream {s : AttachmentStream} (hs : v id = some (.stream s)) (op : Operation) :
    ∃ t, v.after op id = some (.stream t) := by
  rcases v.after_cases id op with ⟨-, -, hsame⟩ | ⟨b, now, -, -, hnone, -⟩ | ⟨state, -, hnext⟩ |
    ⟨localPath, bytes, -, hnext⟩
  · exact ⟨s, hsame.trans hs⟩
  · cases hnone.symm.trans hs
  · rw [hs] at hnext
    exact ⟨s, hnext⟩
  · rw [hs] at hnext
    exact ⟨_, hnext⟩

/-- What is there becomes a stream when its download is completed. -/
theorem after_of_completes {a : Attachment} (ha : v id = some a) {op : Operation}
    (hop : op.Completes id) : ∃ s, v.after op id = some (.stream s) := by
  rcases v.after_cases id op with ⟨hnot, -, -⟩ | ⟨b, now, rfl, -⟩ | ⟨state, rfl, -⟩ |
    ⟨localPath, bytes, rfl, hnext⟩
  · exact absurd hop hnot
  · exact hop.elim
  · exact hop.elim
  · rw [ha] at hnext
    exact ⟨_, hnext⟩

/-- Any other operation leaves a pointer one and may note a state. -/
theorem after_pointer {p : AttachmentPointer} (hp : v id = some (.pointer p)) {op : Operation}
    (hop : ¬op.Completes id) :
    v.after op id = some (.pointer { p with state := op.noted id p.state }) := by
  rcases v.after_cases id op with ⟨-, hnoted, hsame⟩ | ⟨b, now, -, -, hnone, -⟩ |
    ⟨state, rfl, hnext⟩ | ⟨localPath, bytes, rfl, -⟩
  · rw [hsame, hp, hnoted]
  · cases hnone.symm.trans hp
  · rw [hnext, hp, Operation.noted, if_pos rfl]
    rfl
  · exact absurd rfl hop

/-- Only inserting adds an attachment. -/
theorem after_of_none (hnone : v id = none) (op : Operation) :
    v.after op id = none ∨
      ∃ a now, op = .insertAttachment a now ∧ a.id = id ∧ v.after op id = some a := by
  rcases v.after_cases id op with ⟨-, -, hsame⟩ | ⟨a, now, hop, hid, -, hadded⟩ |
    ⟨state, -, hnext⟩ | ⟨localPath, bytes, -, hnext⟩
  · exact .inl (hsame.trans hnone)
  · exact .inr ⟨a, now, hop, hid, hadded⟩
  · rw [hnone] at hnext
    exact .inl hnext
  · rw [hnone] at hnext
    exact .inl hnext

/-! ### What a run does to one attachment -/

theorem run_of_some {a : Attachment} (ha : v id = some a) (ops : List Operation) :
    ∃ b, v.run ops id = some b ∧ a.SameDescription b := by
  induction ops generalizing v a with
  | nil => exact ⟨a, ha, .rfl⟩
  | cons op ops ih =>
    obtain ⟨b, hb, hsame⟩ := after_of_some ha op
    obtain ⟨c, hc, hsame'⟩ := ih hb
    exact ⟨c, hc, hsame.trans hsame'⟩

theorem run_stream {s : AttachmentStream} (hs : v id = some (.stream s)) (ops : List Operation) :
    ∃ t, v.run ops id = some (.stream t) := by
  induction ops generalizing v s with
  | nil => exact ⟨s, hs⟩
  | cons op ops ih =>
    obtain ⟨t, ht⟩ := after_stream hs op
    exact ih ht

/-- A pointer of which no download is completed stays one, in the state that was noted last. -/
theorem run_pointer {p : AttachmentPointer} (hp : v id = some (.pointer p)) {ops : List Operation}
    (hops : ∀ op ∈ ops, ¬op.Completes id) :
    v.run ops id = some (.pointer { p with state := lastNoted id p.state ops }) := by
  induction ops generalizing v p with
  | nil => exact hp
  | cons op ops ih =>
    rw [List.forall_mem_cons] at hops
    exact ih (after_pointer hp hops.1) hops.2

/-- An attachment whose download is completed is a stream from then on. -/
theorem run_of_completes {a : Attachment} (ha : v id = some a) {ops : List Operation}
    {op : Operation} (hmem : op ∈ ops) (hop : op.Completes id) :
    ∃ s, v.run ops id = some (.stream s) := by
  obtain ⟨before, after, rfl⟩ := List.append_of_mem hmem
  obtain ⟨b, hb, -⟩ := run_of_some ha before
  obtain ⟨s, hs⟩ := after_of_completes hb hop
  rw [run_append]
  exact run_stream hs after

/-- An attachment that is there after a run was inserted in it. -/
theorem run_eq_some (hnone : v id = none) {ops : List Operation} {b : Attachment}
    (hb : v.run ops id = some b) :
    ∃ before a now after, ops = before ++ .insertAttachment a now :: after ∧ a.id = id ∧
      v.run before id = none := by
  induction ops generalizing v with
  | nil => exact absurd (hnone.symm.trans hb) (by simp)
  | cons op ops ih =>
    rcases after_of_none hnone op with hnext | ⟨a, now, rfl, hid, -⟩
    · obtain ⟨before, a, now, after, rfl, hid, hbefore⟩ := ih hnext hb
      exact ⟨op :: before, a, now, after, rfl, hid, hbefore⟩
    · exact ⟨[], a, now, ops, rfl, hid, hnone⟩

end Inventory

/-! ### The records are the map -/

namespace Contents

/-- The attachments by their names. -/
def inventory (c : Contents) : Inventory :=
  fun id => (c.attachments.find? (·.1.id == id)).map (·.1)

theorem attachment?_eq_inventory (c : Contents) (id : AttachmentId) :
    c.database.attachment? id = .ok (c.inventory id) :=
  c.attachment?_eq id

theorem any_attachments_eq (c : Contents) (id : AttachmentId) :
    c.attachments.any (·.1.id == id) = (c.inventory id).isSome := by
  rw [inventory, Option.isSome_map, List.isSome_find?]

theorem id_of_inventory {c : Contents} {id : AttachmentId} {a : Attachment}
    (h : c.inventory id = some a) : a.id = id := by
  obtain ⟨p, hp, rfl⟩ := Option.map_eq_some_iff.mp h
  exact beq_iff_eq.mp (List.find?_some (p := fun p : Attachment × Instant => p.1.id == id) hp)

theorem insertAttachment_eq_ok_iff (c : Contents) (a : Attachment) (now : Instant) :
    (∃ db, c.database.insertAttachment a now = .ok db) ↔ c.inventory a.id = none := by
  rw [insertAttachment_eq, any_attachments_eq]
  cases c.inventory a.id with
  | none => simp
  | some b => simp

theorem inventory_addAttachment {c : Contents} {a : Attachment} {now : Instant}
    (h : c.attachments.any (·.1.id == a.id) = false) :
    { c with attachments := c.attachments ++ [(a, now)] }.inventory = c.inventory.put a := by
  funext id
  have hfind := find?_append_of_new (fun p : Attachment × Instant => p.1.id) (x := (a, now)) h id
  simp only [inventory, Inventory.put, hfind]
  split <;> rfl

theorem inventory_changeAttachments (c : Contents) (id : AttachmentId) {f : Attachment → Attachment}
    (hf : ∀ a, (f a).id = a.id) :
    (c.changeAttachments (·.id == id) f).inventory = c.inventory.change id f := by
  funext i
  have hfind := find?_map_named (fun p : Attachment × Instant => p.1.id)
    (f := fun p => (f p.1, p.2)) (fun p => hf p.1) c.attachments id i
  simp only [inventory, changeAttachments, Inventory.change, hfind]
  split
  · rw [Option.map_map, Option.map_map]
    rfl
  · rfl

/-- Noting a state changes all attachments of the name, as it leaves streams as they are. -/
theorem changeAttachments_withState (c : Contents) (id : AttachmentId) (state : DownloadState) :
    c.changeAttachments (isPointerOf id) (.withState state) =
      c.changeAttachments (·.id == id) (.withState state) := by
  refine congrArg (fun as => { c with attachments := as }) (List.map_congr_left ?_)
  rintro ⟨s | p, now⟩ _
  · simp [isPointerOf, Attachment.pointer?, Attachment.withState]
  · simp [isPointerOf, Attachment.pointer?, Attachment.withState]

theorem attachments_foldl_addOutgoing (c : Contents) (os : List StoredOutgoing) :
    (os.foldl addOutgoing c).attachments = c.attachments :=
  congrArg (·.attachments) (c.received_foldl_addOutgoing os)

/-- An operation leaves the attachments alone, adds one under a new name, or changes some of them
but not their names. -/
theorem attachments_after (c : Contents) (op : Operation) :
    (c.after op).attachments = c.attachments ∨
    (∃ a now, op = .insertAttachment a now ∧ c.attachments.any (·.1.id == a.id) = false ∧
      (c.after op).attachments = c.attachments ++ [(a, now)]) ∨
    ∃ chosen f, (∀ a : Attachment, (f a).id = a.id) ∧
      (c.after op).attachments = (c.changeAttachments chosen f).attachments := by
  cases op with
  | insertMessage m =>
    rw [after]
    split <;> exact .inl rfl
  | markViewOnceComplete id => exact .inl rfl
  | markRemotelyDeleted id => exact .inl rfl
  | insertAttachment a now =>
    rw [after]
    cases hnew : c.attachments.any (·.1.id == a.id) with
    | true => exact .inl rfl
    | false => exact .inr (.inl ⟨a, now, rfl, hnew, rfl⟩)
  | setDownloadState id state =>
    exact .inr (.inr ⟨_, _, Attachment.id_withState state, rfl⟩)
  | completeDownload id localPath contents =>
    rcases contents with e | bytes
    · exact .inl rfl
    · rw [after]
      split
      · exact .inr (.inr ⟨_, _, Attachment.id_fetched localPath bytes, rfl⟩)
      · exact .inl rfl
  | installSticker s => exact .inl rfl
  | write os commits =>
    cases commits with
    | true => exact .inl (c.attachments_foldl_addOutgoing os)
    | false => exact .inl rfl

theorem inventory_eq_of_attachments_eq {c d : Contents} (h : c.attachments = d.attachments) :
    c.inventory = d.inventory := by
  funext id
  rw [inventory, inventory, h]

/-- An operation does to the map what it does to the records. -/
theorem inventory_after (c : Contents) (op : Operation) :
    (c.after op).inventory = c.inventory.after op := by
  cases op with
  | insertMessage m =>
    refine inventory_eq_of_attachments_eq ?_
    rw [after]
    split <;> rfl
  | markViewOnceComplete id => rfl
  | markRemotelyDeleted id => rfl
  | insertAttachment a now =>
    rw [after, Inventory.after, ← any_attachments_eq]
    cases h : c.attachments.any (·.1.id == a.id) with
    | true => rfl
    | false => exact inventory_addAttachment h
  | setDownloadState id state =>
    rw [after, changeAttachments_withState]
    exact c.inventory_changeAttachments id (Attachment.id_withState state)
  | completeDownload id localPath contents =>
    rcases contents with e | bytes
    · rfl
    · rw [after, any_attachments_eq]
      split
      · exact c.inventory_changeAttachments id (Attachment.id_fetched localPath bytes)
      · rename_i hnone
        -- there is nothing under the name that could be changed
        have hnone : c.inventory id = none := by simpa using hnone
        funext i
        rw [Inventory.after, Inventory.change]
        split
        · rename_i hi
          rw [hi, hnone]
          rfl
        · rfl
  | installSticker s => rfl
  | write os commits =>
    cases commits with
    | true => exact inventory_eq_of_attachments_eq (c.attachments_foldl_addOutgoing os)
    | false => rfl

theorem inventory_run (c : Contents) (ops : List Operation) :
    (c.run ops).inventory = c.inventory.run ops := by
  induction ops generalizing c with
  | nil => rfl
  | cons op ops ih =>
    rw [run, List.foldl_cons, Inventory.run, List.foldl_cons, ← inventory_after]
    exact ih (c.after op)

end Contents

theorem inventory_run_fresh (ops : List Operation) :
    (Contents.run {} ops).inventory = Inventory.empty.run ops :=
  Contents.inventory_run {} ops

theorem attachment?_run (ops : List Operation) (id : AttachmentId) :
    (Database.fresh.run ops).attachment? id = .ok (Inventory.empty.run ops id) := by
  rw [Contents.run_fresh, Contents.attachment?_eq_inventory, inventory_run_fresh]

/-! ### Where the attachments come from -/

/-- Whether a run from an empty database adds an attachment, and what it does then. -/
def AddedThen (ops : List Operation) (a : Attachment) (after : List Operation) : Prop :=
  ∃ before now, ops = before ++ .insertAttachment a now :: after ∧
    ∃ db, (Database.fresh.run before).insertAttachment a now = .ok db

variable {ops after : List Operation} {id : AttachmentId}

theorem AddedThen.run_eq {a : Attachment} (h : AddedThen ops a after) :
    ∃ v : Inventory, v a.id = some a ∧ Inventory.empty.run ops = v.run after := by
  obtain ⟨before, now, rfl, hnew⟩ := h
  rw [Contents.run_fresh, Contents.insertAttachment_eq_ok_iff, inventory_run_fresh] at hnew
  refine ⟨(Inventory.empty.run before).after (.insertAttachment a now), ?_, ?_⟩
  · rw [Inventory.after, hnew]
    exact if_pos rfl
  · rw [Inventory.run_append]
    rfl

theorem exists_addedThen {b : Attachment} (hb : Inventory.empty.run ops id = some b) :
    ∃ a after, AddedThen ops a after ∧ a.id = id := by
  obtain ⟨before, a, now, after, rfl, rfl, hbefore⟩ := Inventory.run_eq_some rfl hb
  refine ⟨a, after, ⟨before, now, rfl, ?_⟩, rfl⟩
  rw [Contents.run_fresh, Contents.insertAttachment_eq_ok_iff, inventory_run_fresh]
  exact hbefore

/-- There is nothing under a name until an attachment is added under it. -/
theorem run_eq_none_iff :
    Inventory.empty.run ops id = none ↔ ∀ a after, AddedThen ops a after → a.id ≠ id := by
  constructor
  · rintro hnone a after hadded rfl
    obtain ⟨v, hv, hrun⟩ := hadded.run_eq
    obtain ⟨b, hb, -⟩ := Inventory.run_of_some hv after
    rw [hrun, hb] at hnone
    cases hnone
  · intro h
    cases hb : Inventory.empty.run ops id with
    | none => rfl
    | some b =>
      obtain ⟨a, after, hadded, hid⟩ := exists_addedThen hb
      exact absurd hid (h a after hadded)

/-- What is there under a name is a stream exactly if a stream was added under it or its download
has been completed since. -/
theorem run_eq_stream_iff :
    (∃ s, Inventory.empty.run ops id = some (.stream s)) ↔
      ∃ a after, AddedThen ops a after ∧ a.id = id ∧
        ((∃ s, a = .stream s) ∨ ∃ op ∈ after, op.Completes id) := by
  constructor
  · rintro ⟨s, hs⟩
    obtain ⟨a, after, hadded, rfl⟩ := exists_addedThen hs
    refine ⟨a, after, hadded, rfl, ?_⟩
    rcases a with t | p
    · exact .inl ⟨t, rfl⟩
    · refine .inr (Classical.byContradiction fun hnone => ?_)
      obtain ⟨v, hv, hrun⟩ := hadded.run_eq
      have hopen : ∀ op ∈ after, ¬op.Completes p.id := fun op hmem hop => hnone ⟨op, hmem, hop⟩
      have hpointer := Inventory.run_pointer hv hopen
      rw [hrun] at hs
      cases hpointer.symm.trans hs
  · rintro ⟨a, after, hadded, rfl, ⟨s, rfl⟩ | ⟨op, hmem, hop⟩⟩
    · obtain ⟨v, hv, hrun⟩ := hadded.run_eq
      rw [hrun]
      exact Inventory.run_stream hv after
    · obtain ⟨v, hv, hrun⟩ := hadded.run_eq
      rw [hrun]
      exact Inventory.run_of_completes hv hmem hop

/-- A pointer that is still there is the one that was added, in the state that was noted last. -/
theorem AddedThen.pointer_eq {p q : AttachmentPointer} (h : AddedThen ops (.pointer q) after)
    (hp : Inventory.empty.run ops q.id = some (.pointer p)) :
    (∀ op ∈ after, ¬op.Completes q.id) ∧ p = { q with state := lastNoted q.id q.state after } := by
  obtain ⟨v, hv, hrun⟩ := h.run_eq
  rw [hrun] at hp
  have hopen : ∀ op ∈ after, ¬op.Completes q.id := by
    intro op hmem hop
    obtain ⟨t, ht⟩ := Inventory.run_of_completes hv hmem hop
    cases ht.symm.trans hp
  have hpointer := Inventory.run_pointer hv hopen
  cases hpointer.symm.trans hp
  exact ⟨hopen, rfl⟩

/-- What is there under a name is a pointer exactly if one was added under it whose download has not
been completed since; its state is the last one that was noted. -/
theorem run_eq_pointer_iff {p : AttachmentPointer} :
    Inventory.empty.run ops id = some (.pointer p) ↔
      ∃ q after, AddedThen ops (.pointer q) after ∧ q.id = id ∧
        (∀ op ∈ after, ¬op.Completes id) ∧ p = { q with state := lastNoted id q.state after } := by
  constructor
  · intro hp
    obtain ⟨a, after, hadded, rfl⟩ := exists_addedThen hp
    rcases a with s | q
    · obtain ⟨v, hv, hrun⟩ := hadded.run_eq
      obtain ⟨t, ht⟩ := Inventory.run_stream hv after
      rw [hrun] at hp
      cases ht.symm.trans hp
    · exact ⟨q, after, hadded, rfl, hadded.pointer_eq hp⟩
  · rintro ⟨q, after, hadded, rfl, hopen, rfl⟩
    obtain ⟨v, hv, hrun⟩ := hadded.run_eq
    rw [hrun]
    exact Inventory.run_pointer hv hopen

/-- A pointer has a state exactly if it was added and that state was noted last. -/
theorem pointer_state_iff {state : DownloadState} :
    (∃ p, Inventory.empty.run ops id = some (.pointer p) ∧ p.state = state) ↔
      (∃ p, Inventory.empty.run ops id = some (.pointer p)) ∧
        ∃ q after, AddedThen ops (.pointer q) after ∧ q.id = id ∧
          lastNoted id q.state after = state := by
  constructor
  · rintro ⟨p, hp, rfl⟩
    obtain ⟨q, after, hadded, hid, -, rfl⟩ := run_eq_pointer_iff.mp hp
    exact ⟨⟨_, hp⟩, q, after, hadded, hid, rfl⟩
  · rintro ⟨⟨p, hp⟩, q, after, hadded, rfl, rfl⟩
    obtain ⟨-, rfl⟩ := hadded.pointer_eq hp
    exact ⟨_, hp, rfl⟩

end Store

end Quotation
