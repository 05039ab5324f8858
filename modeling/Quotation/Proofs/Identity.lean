import Quotation.Config
import Quotation.Proofs.Store.Contents
import Quotation.Proofs.Text.Trim

/-!
# Names and their texts

Messages, attachments, threads and accounts are named by identifiers. A text names one exactly if
it spells its identifier: in one of the four forms, in either case, between blanks. What is written
of a name spells it, and names are kept apart by what is written of them.

* `Uuid.Spells`, `Uuid.read_trim_eq_ok_iff`: the texts of an identifier between blanks;
* `Naming`, `naming_of_uuid`: the texts of a kind of names that are identifiers;
* `Address.read_eq_ok_iff`, `Address.read_eq_error_iff`: the texts of addresses;
* `Config.isLocal_ofVariables_iff`: the account of this device;
* `read_eq_ok_iff_spells`.
-/

namespace Quotation

/-- Whether a text spells an identifier: one of its forms, with letters in either case, between
blanks. -/
def Uuid.Spells (s : String) (u : Uuid) : Prop :=
  ∃ (before spelling after : String) (form : Uuid.Form), s = before ++ spelling ++ after ∧
    Text.IsBlankText before ∧ Text.IsBlankText after ∧ spelling.toLower = form.write u

/-- The texts of a kind of names that are identifiers: what is read of a text and what is written of
a name. -/
structure Naming {ι : Type} (read : String → Except ReferenceError ι) (text : ι → String)
    (uuid : ι → Uuid) : Prop where
  /-- The texts that spell the identifier name it, and no others do. -/
  read_iff : ∀ s i, read s = .ok i ↔ Uuid.Spells s (uuid i)
  /-- A text that spells no identifier is refused, and no others are. -/
  refused_iff : ∀ s, (∃ fault, read s = .error (.uuid fault)) ↔ ∀ u, ¬Uuid.Spells s u
  /-- The written form is the one in groups. -/
  written : ∀ i, text i = (uuid i).groups
  /-- It is in lower case. -/
  written_lower : ∀ i, (text i).toLower = text i
  /-- What is written is read. -/
  read_written : ∀ i, read (text i) = .ok i
  /-- What is written into a column is read from it. -/
  read_column : ∀ column i, Store.readable column .uuid (Uuid.read (text i)) = .ok (uuid i)
  /-- No two names are written alike. -/
  written_inj : ∀ i j, text i = text j ↔ i = j

namespace Uuid

theorem toLower_text (u : Uuid) : u.text.toLower = u.text := by
  rw [text_eq_groups]
  exact toLower_write .grouped u

/-- The written form is a spelling without any blanks. -/
theorem spells_text (u : Uuid) : Spells u.text u := by
  refine ⟨"", u.text, "", .grouped, by simp, ?_, ?_, ?_⟩
  · simp [Text.IsBlankText]
  · simp [Text.IsBlankText]
  · rw [toLower_text, text_eq_groups]
    rfl

/-- What is left of a text between its blanks is read if the text spells an identifier. -/
theorem read_trim_eq_ok_iff {s : String} {u : Uuid} :
    read (Text.trim s) = .ok u ↔ Spells s u := by
  constructor
  · intro h
    obtain ⟨form, hform⟩ := read_eq_ok_iff.mp h
    obtain ⟨before, after, hbefore, hafter, hs⟩ := Text.exists_blanks s
    exact ⟨before, Text.trim s, after, form, hs, hbefore, hafter, hform⟩
  · rintro ⟨before, spelling, after, form, rfl, hbefore, hafter, hform⟩
    have hfull : ∀ c ∈ spelling.toList, Text.isBlank c = false :=
      fun c hc => Text.isBlank_of_isVisible (isVisible_of_toLower hform c hc)
    rw [Text.trim_between hbefore hafter, Text.trim_of_no_blank hfull]
    exact read_of_toLower hform

/-- A text is refused if it spells nothing. -/
theorem read_trim_eq_error_iff {s : String} :
    (∃ fault, read (Text.trim s) = .error fault) ↔ ∀ u, ¬Spells s u := by
  simp only [← read_trim_eq_ok_iff]
  cases read (Text.trim s) <;> simp

end Uuid

/-- Names that are made of an identifier and have it are told by its texts. -/
theorem naming_of_uuid {ι : Type} {make : Uuid → ι} {uuid : ι → Uuid}
    (hmake : ∀ u, uuid (make u) = u) (huuid : ∀ i, make (uuid i) = i) :
    Naming (fun s => (Uuid.readTrimmed s).map make) (fun i => (uuid i).text) uuid := by
  have hread : ∀ s i, (Uuid.readTrimmed s).map make = .ok i ↔ Uuid.Spells s (uuid i) := by
    intro s i
    rw [Uuid.readTrimmed, map_eq_ok_iff, ← Uuid.read_trim_eq_ok_iff]
    simp only [mapError_eq_ok_iff]
    constructor
    · rintro ⟨u, hu, rfl⟩
      rw [hmake, hu]
    · intro h
      exact ⟨uuid i, h, huuid i⟩
  constructor
  case read_iff => exact hread
  case refused_iff =>
    intro s
    rw [← Uuid.read_trim_eq_error_iff, Uuid.readTrimmed]
    cases Uuid.read (Text.trim s) <;> simp [Except.map]
  case written => exact fun i => (uuid i).text_eq_groups
  case written_lower => exact fun i => (uuid i).toLower_text
  case read_written => exact fun i => (hread _ i).mpr (uuid i).spells_text
  case read_column =>
    intro column i
    rw [Uuid.read_text, Store.readable_ok]
  case written_inj => exact fun _ _ => Uuid.text_inj_of make uuid huuid

namespace Address

/-- An address that is read has no number. -/
theorem read_eq_ok_iff {s : String} {a : Address} :
    read s = .ok a ↔ Uuid.Spells s a.uuid ∧ a.e164 = none := by
  rw [read, ← Uuid.read_trim_eq_ok_iff]
  obtain ⟨uuid, e164⟩ := a
  cases Uuid.read (Text.trim s) with
  | ok u => simp [eq_comm]
  | error fault => simp

/-- The text that names no account is shown as it was given. -/
theorem read_eq_error_iff {s : String} :
    (∃ fault, read s = .error (.address s fault)) ↔ ∀ u, ¬Uuid.Spells s u := by
  rw [← Uuid.read_trim_eq_error_iff, read]
  cases Uuid.read (Text.trim s) <;> simp

theorem read_text (a : Address) : read a.text = .ok { uuid := a.uuid } :=
  read_eq_ok_iff.mpr ⟨a.uuid.spells_text, rfl⟩

theorem text_eq_iff {a b : Address} : a.text = b.text ↔ a.sameAccount b = true := by
  rw [text, text, Uuid.text_inj, sameAccount, beq_iff_eq]

end Address

/-- An address is that of this device if the variable for it spells its identifier. -/
theorem Config.isLocal_ofVariables_iff {value? : String → Option String} {a : Address} :
    (ofVariables value?).isLocal a = true ↔
      ∃ s, value? "PARLEY_LOCAL_UUID" = some s ∧ Uuid.Spells s a.uuid := by
  simp only [isLocal, ofVariables, Option.any_eq_true, Option.bind_eq_some_iff,
    toOption_eq_some_iff, Address.read_eq_ok_iff, Address.sameAccount, beq_iff_eq]
  constructor
  · rintro ⟨b, ⟨s, hs, hspells, -⟩, hb⟩
    exact ⟨s, hs, hb ▸ hspells⟩
  · rintro ⟨s, hs, hspells⟩
    exact ⟨{ uuid := a.uuid }, ⟨s, hs, hspells, rfl⟩, rfl⟩

namespace Store.Table

variable {α ι : Type} {t : Table} {cells : α → Row} {name : α → ι} {text : ι → String}

/-- The value of a row in the column that has a name. -/
def valueIn (t : Table) (column : String) (r : Row) : Except StatementError Cell :=
  (t.position column).map r.cell

/-- Rows have the same key exactly if what they are the rows of has the same name. -/
def KeyTells (t : Table) (cells : α → Row) (name : α → ι) : Prop :=
  ∀ x y, t.keyOf (cells x) = t.keyOf (cells y) ↔ name x = name y

/-- Rows agree in a column exactly if what they are the rows of has the same name. -/
def ColumnTells (t : Table) (column : String) (cells : α → Row) (name : α → ι) : Prop :=
  ∀ x y, t.valueIn column (cells x) = t.valueIn column (cells y) ↔ name x = name y

theorem keyTells_of_text (hkey : ∀ x, t.keyOf (cells x) = [.text (text (name x))])
    (hinj : ∀ i j, text i = text j ↔ i = j) : t.KeyTells cells name := by
  intro x y
  rw [hkey, hkey, ← hinj]
  simp

theorem columnTells_of_text {column : String}
    (hvalue : ∀ x, t.valueIn column (cells x) = .ok (.text (text (name x))))
    (hinj : ∀ i j, text i = text j ↔ i = j) : t.ColumnTells column cells name := by
  intro x y
  rw [hvalue, hvalue, ← hinj]
  simp

end Store.Table

open Store

/-- The texts of messages, attachments, threads and accounts, and what rests on them: the keys of
the tables, the columns that are searched for names, and whether an account is that of this
device. -/
theorem read_eq_ok_iff_spells :
    (Naming MessageId.read MessageId.text MessageId.uuid ∧
      Naming AttachmentId.read AttachmentId.text AttachmentId.uuid ∧
      Naming ThreadId.read ThreadId.text ThreadId.uuid) ∧
    (∀ s : String,
      (∀ a, Address.read s = .ok a ↔ Uuid.Spells s a.uuid ∧ a.e164 = none) ∧
      ((∃ fault, Address.read s = .error (.address s fault)) ↔ ∀ u, ¬Uuid.Spells s u)) ∧
    (∀ a b : Address, a.text = a.uuid.groups ∧ Address.read a.text = .ok { uuid := a.uuid } ∧
      (a.text = b.text ↔ a.sameAccount b = true)) ∧
    (Layout.messages.KeyTells messageCells (·.id) ∧
      Layout.messages.ColumnTells "thread_id" messageCells (·.thread) ∧
      Layout.messages.ColumnTells "author_uuid" messageCells (·.author.uuid)) ∧
    Layout.attachments.KeyTells datedAttachmentCells (·.1.id) ∧
    (Layout.outgoing.KeyTells outgoingCells (·.id) ∧
      Layout.outgoing.ColumnTells "thread_id" outgoingCells (·.message.thread)) ∧
    ∀ (value? : String → Option String) (a : Address),
      (Config.ofVariables value?).isLocal a = true ↔
        ∃ s, value? "PARLEY_LOCAL_UUID" = some s ∧ Uuid.Spells s a.uuid := by
  have hattachment : ∀ p, Layout.attachments.keyOf (datedAttachmentCells p) =
      [.text p.1.id.text] := by
    rintro ⟨a | a, now⟩ <;> rfl
  refine ⟨⟨?_, ?_, ?_⟩, ?_, ?_, ⟨?_, ?_, ?_⟩, ?_, ⟨?_, ?_⟩, ?_⟩
  · exact naming_of_uuid (fun _ => rfl) fun _ => rfl
  · exact naming_of_uuid (fun _ => rfl) fun _ => rfl
  · exact naming_of_uuid (fun _ => rfl) fun _ => rfl
  · exact fun s => ⟨fun a => Address.read_eq_ok_iff, Address.read_eq_error_iff⟩
  · exact fun a b => ⟨a.uuid.text_eq_groups, a.read_text, Address.text_eq_iff⟩
  · exact Table.keyTells_of_text (fun _ => rfl) fun _ _ => MessageId.text_inj
  · exact Table.columnTells_of_text (fun _ => rfl) fun _ _ => ThreadId.text_inj
  · exact Table.columnTells_of_text (fun _ => rfl) fun _ _ => Uuid.text_inj
  · exact Table.keyTells_of_text hattachment fun _ _ => AttachmentId.text_inj
  · exact Table.keyTells_of_text (fun _ => rfl) fun _ _ => MessageId.text_inj
  · exact Table.columnTells_of_text (fun _ => rfl) fun _ _ => ThreadId.text_inj
  · exact fun value? a => Config.isLocal_ofVariables_iff

/-- A name of the uuid scheme in letters of both cases, between blanks of which one is a no-break
space. -/
theorem read_eq_ok_iff_spells_urn :
    let s := "\u00a0 URN:uuid:67E55044-10b1-426F-9247-bb680e5fe0c8\n"
    let u : Uuid := ⟨#v[0x67, 0xe5, 0x50, 0x44, 0x10, 0xb1, 0x42, 0x6f, 0x92, 0x47, 0xbb, 0x68,
      0x0e, 0x5f, 0xe0, 0xc8]⟩
    MessageId.read s = .ok ⟨u⟩ ∧ Address.read s = .ok { uuid := u } ∧
      u.text = "67e55044-10b1-426f-9247-bb680e5fe0c8" ∧
      (Config.ofVariables fun _ => some s).isLocal { uuid := u, e164 := some "+15550100" } =
        true := by
  intro s u
  have hspells : Uuid.Spells s u := by
    refine ⟨"\u00a0 ", "URN:uuid:67E55044-10b1-426F-9247-bb680e5fe0c8", "\n", .urn, by decide,
      by decide, by decide, ?_⟩
    rw [← String.toList_inj, Text.toList_toLower]
    decide
  obtain ⟨⟨hmessage, -⟩, haddress, -, -, -, -, hlocal⟩ := read_eq_ok_iff_spells
  refine ⟨?_, ?_, by decide, ?_⟩
  · exact (hmessage.read_iff _ _).mpr hspells
  · exact ((haddress s).1 _).mpr ⟨hspells, rfl⟩
  · exact (hlocal _ _).mpr ⟨s, rfl, hspells⟩

end Quotation
