import Quotation.Proofs.Store.Rows

/-!
# Columns of JSON lose nothing

Five columns of a message hold JSON: its ranges, its attachments, its sticker, its contact and its
quote. Whatever is put into such a column is read from there as it was.

* `Lossless`, `lossless_of_faithful`: a column of optional values, which is empty for none;
* `bind_ofJsonCell`, `readable?_parse_print`: reading such a column, and one that is never empty;
* `json_columns_lose_nothing`.
-/

namespace Quotation.Store

open Json

/-- An optional value is read from its JSON in a column as it was. -/
structure Lossless {α : Type} (c : Codec α) : Prop where
  /-- What is written of a value is read as the value, and nothing as none. -/
  read_written : ∀ (column : Nat) (o : Option α), ofJsonCell c column (o.map c.print) = .ok o
  /-- So is what a column of texts keeps of it, in any row and at any place there. -/
  read_kept : ∀ (names : List String) (before after : List Cell) (o : Option α),
    (Fetched.text? ⟨names, before ++ Affinity.text.convert (jsonCell c o) :: after⟩
      before.length).bind (ofJsonCell c before.length) = .ok o
  /-- Only none leaves the column empty. -/
  null_iff : ∀ o, jsonCell c o = .null ↔ o = none
  /-- Different values are kept differently. -/
  kept_inj : ∀ o p, jsonCell c o = jsonCell c p ↔ o = p

variable {α : Type} {c : Codec α}

/-- A column of texts keeps JSON as it is given. -/
theorem convert_jsonCell (c : Codec α) (o : Option α) :
    Affinity.text.convert (jsonCell c o) = jsonCell c o := by
  cases o <;> rfl

theorem cell_append_cons (before after : Row) (c : Cell) :
    Row.cell (before ++ c :: after) before.length = c := by
  simp [Row.cell]

theorem bind_ofJsonCell (hc : c.Faithful) {r : Fetched} {i : Nat} {o : Option α}
    (h : r.cell i = jsonCell c o) : (r.text? i).bind (ofJsonCell c i) = .ok o := by
  rw [Fetched.text?_eq h]
  exact ofJsonCell_map_print hc i o

theorem readable?_parse_print (hc : c.Faithful) (column : Nat) (a : α) :
    readable? column .json (c.parse (c.print a)) = .ok a := by
  rw [hc.parse_print, readable?_some]

theorem lossless_of_faithful (hc : c.Faithful) : Lossless c where
  read_written := ofJsonCell_map_print hc
  read_kept names before after o := by
    refine bind_ofJsonCell hc ?_
    rw [convert_jsonCell]
    exact cell_append_cons before after _
  null_iff o := by
    cases o with
    | none => exact iff_of_true rfl rfl
    | some a => simp [jsonCell, Cell.ofText?]
  kept_inj o p := by
    constructor
    · -- both are read from the same cell
      intro h
      have hread := bind_ofJsonCell hc (r := ⟨[], [jsonCell c o]⟩) (i := 0) rfl
      rw [bind_ofJsonCell hc (r := ⟨[], [jsonCell c o]⟩) (i := 0) h] at hread
      exact (Except.ok.inj hread).symm
    · rintro rfl
      rfl

/-- The row of a message as lookups return it. -/
def fetchedMessage (m : Message) : Fetched :=
  ⟨messageColumns, messageCells m⟩

/-- Ranges, stickers, contacts and quotes are read from their columns as they were, and so are lists
of attachments, in their order. In particular the columns of a message hold all of its own. -/
theorem json_columns_lose_nothing :
    Lossless TextRanges.json ∧ Lossless Sticker.json ∧ Lossless ContactCard.json ∧
    Lossless QuoteRecord.json ∧
    (∀ (column : Nat) (ids : List AttachmentId),
      readable? column .json (AttachmentId.json.list.parse (AttachmentId.json.list.print ids)) =
        .ok ids) ∧
    ∀ m : Message,
      ((fetchedMessage m).text? 7).bind (ofJsonCell TextRanges.json 7) = .ok m.ranges ∧
      ((fetchedMessage m).text 8).bind
        (fun s => readable? 8 .json (AttachmentId.json.list.parse s)) = .ok m.attachments ∧
      ((fetchedMessage m).text? 9).bind (ofJsonCell Sticker.json 9) = .ok m.sticker ∧
      ((fetchedMessage m).text? 10).bind (ofJsonCell ContactCard.json 10) = .ok m.contact ∧
      ((fetchedMessage m).text? 14).bind (ofJsonCell QuoteRecord.json 14) = .ok m.quoted := by
  refine ⟨?_, ?_, ?_, ?_, ?_, fun m => ⟨?_, ?_, ?_, ?_, ?_⟩⟩
  · exact lossless_of_faithful TextRanges.faithful
  · exact lossless_of_faithful Sticker.faithful
  · exact lossless_of_faithful ContactCard.faithful
  · exact lossless_of_faithful QuoteRecord.faithful
  · exact readable?_parse_print AttachmentId.faithful.list
  · exact bind_ofJsonCell TextRanges.faithful rfl
  · exact readable?_parse_print AttachmentId.faithful.list 8 m.attachments
  · exact bind_ofJsonCell Sticker.faithful rfl
  · exact bind_ofJsonCell ContactCard.faithful rfl
  · exact bind_ofJsonCell QuoteRecord.faithful rfl

/-- Quotes, backslashes and controls are escaped, everything else is raw. -/
example :
    jsonCell ContactCard.json (some ⟨"\"\\\n\x01😀", ["+1"], none⟩) =
      .text ("\x7b\"display_name\":\"\\\"\\\\\\n\\u0001😀\"," ++
        "\"phone_numbers\":[\"+1\"],\"avatar_attachment_id\":null\x7d") := by
  rfl

end Quotation.Store
