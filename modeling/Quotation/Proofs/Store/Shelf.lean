import Quotation.Proofs.Store.Operation

/-!
# The table of stickers is a map

What is installed in each place of each pack. The key of a pack does not count, and a sticker takes
the place of the one before it.

* `Shelf`, `Shelf.after`: the map, and what an operation does to it;
* `Contents.sticker?_eq_shelf`: the lookup reads the map;
* `Contents.shelf_after`, `sticker?_run`: the records are that map;
-/

namespace Quotation.Store

/-- The installed stickers by pack and number. -/
def Shelf := Vector UInt8 16 → UInt32 → Option InstalledSticker

namespace Shelf

/-- A sticker is put in its place. -/
def put (v : Shelf) (s : InstalledSticker) : Shelf := fun packId number =>
  if s.info.packId == packId && s.info.number == number then some s else v packId number

/-- What an operation does to the stickers. -/
def after (v : Shelf) : Operation → Shelf
  | .installSticker s => v.put s
  | _ => v

/-- No stickers. -/
def empty : Shelf := fun _ _ => none

/-- The stickers after some operations. -/
def run (v : Shelf) (ops : List Operation) : Shelf :=
  ops.foldl after v

end Shelf

namespace Contents

/-- The stickers by pack and number. -/
def shelf (c : Contents) : Shelf := fun packId number =>
  c.stickers.find? fun s => s.info.packId == packId && s.info.number == number

theorem sticker?_eq_shelf (c : Contents) (info : StickerRef) :
    c.database.sticker? info = .ok (c.shelf info.packId info.number) :=
  c.sticker?_eq info

theorem shelf_eq_of_stickers_eq {c d : Contents} (h : c.stickers = d.stickers) :
    c.shelf = d.shelf := by
  funext packId number
  rw [shelf, shelf, h]

theorem shelf_installSticker (c : Contents) (s : InstalledSticker) :
    (c.after (.installSticker s)).shelf = c.shelf.put s := by
  funext packId number
  exact find?_replace_named (fun t : InstalledSticker => (t.info.packId, t.info.number))
    c.stickers s (packId, number)

theorem stickers_foldl_addOutgoing (c : Contents) (os : List StoredOutgoing) :
    (os.foldl addOutgoing c).stickers = c.stickers :=
  congrArg (·.stickers) (c.received_foldl_addOutgoing os)

/-- An operation does to the map what it does to the records. -/
theorem shelf_after (c : Contents) (op : Operation) : (c.after op).shelf = c.shelf.after op := by
  cases op with
  | insertMessage m =>
    refine shelf_eq_of_stickers_eq ?_
    rw [after]
    split <;> rfl
  | markViewOnceComplete id => rfl
  | markRemotelyDeleted id => rfl
  | insertAttachment a now =>
    refine shelf_eq_of_stickers_eq ?_
    rw [after]
    split <;> rfl
  | setDownloadState id state => rfl
  | completeDownload id localPath contents =>
    rcases contents with e | bytes
    · rfl
    · refine shelf_eq_of_stickers_eq ?_
      rw [after]
      split <;> rfl
  | installSticker s => exact c.shelf_installSticker s
  | write os commits =>
    cases commits with
    | true => exact shelf_eq_of_stickers_eq (c.stickers_foldl_addOutgoing os)
    | false => rfl

theorem shelf_run (c : Contents) (ops : List Operation) :
    (c.run ops).shelf = c.shelf.run ops := by
  induction ops generalizing c with
  | nil => rfl
  | cons op ops ih =>
    rw [run, List.foldl_cons, Shelf.run, List.foldl_cons, ← shelf_after]
    exact ih (c.after op)

end Contents

theorem sticker?_run (ops : List Operation) (info : StickerRef) :
    (Database.fresh.run ops).sticker? info =
      .ok (Shelf.empty.run ops info.packId info.number) := by
  rw [Contents.run_fresh, Contents.sticker?_eq_shelf, Contents.shelf_run]
  rfl

end Quotation.Store
