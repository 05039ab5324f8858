import Quotation.CommandLine.Run
import Quotation.Proofs.Except
import Quotation.Proofs.Json.Records
import Quotation.Quote.Thumbnail

/-!
# What is printed of a quote

The text that the program prints of a quote is that of no other quote.

* `AttachmentStream.faithful`, `AttachmentPointer.faithful`: the records of an attachment as JSON;
* `HeldState.json_inj`, `QuotedAttachment.json_inj`, `Content.members_inj`, `Snapshot.json_inj`, and
  `plain_json` and its like: what is shown tells what is shown of, with natural numbers only;
* `CommandLine.shown_inj`: a text over several lines tells the value;
* `printed_eq_iff_sameAs`.
-/

namespace Quotation

open Json

/-! ### Records of attachments -/

theorem DownloadState.faithful : json.Faithful := by
  refine Case.faithful_choice ?_ (by decide) ?_
  · simp only [List.forall_mem_cons]
    exact ⟨Case.faithful_plain _ _, Case.faithful_plain _ _, Case.faithful_plain _ _,
      Case.faithful_plain _ _, by simp⟩
  · intro s
    cases s <;> simp [Case.plain]

theorem AttachmentStream.faithful : json.Faithful :=
  (((Fields.faithful_required "id" AttachmentId.faithful).append
    ((Fields.faithful_required "content_type" Codec.faithful_text).append
      ((Fields.faithful_optional "source_filename" Codec.faithful_text).append
        ((Fields.faithful_required "byte_count" Codec.faithful_word64).append
          ((Fields.faithful_required "local_path" Codec.faithful_text).append
            (Fields.faithful_required "digest" (Codec.faithful_octets 32))))))).imap
    fun _ => rfl).record (by decide)

theorem AttachmentPointer.faithful : json.Faithful :=
  (((Fields.faithful_required "id" AttachmentId.faithful).append
    ((Fields.faithful_required "content_type" Codec.faithful_text).append
      ((Fields.faithful_optional "source_filename" Codec.faithful_text).append
        ((Fields.faithful_required "byte_count" Codec.faithful_word64).append
          ((Fields.faithful_required "cdn_key" Codec.faithful_text).append
            (Fields.faithful_required "state" DownloadState.faithful)))))).imap
    fun _ => rfl).record (by decide)

/-! ### The parts of a quote -/

namespace HeldState

theorem plain_json (h : HeldState) : Plain h.json := by
  cases h with
  | stream s => exact .object (by simpa using AttachmentStream.faithful.plain s)
  | failedThumbnail p => exact .object (by simpa using AttachmentPointer.faithful.plain p)
  | unavailable => exact .text _

theorem json_inj {h k : HeldState} : h.json = k.json ↔ h = k := by
  cases h <;> cases k <;>
    simp [json, AttachmentStream.faithful.encode_inj, AttachmentPointer.faithful.encode_inj]

end HeldState

namespace QuotedAttachment

theorem plain_json (a : QuotedAttachment) : Plain a.json := by
  refine .object ?_
  simp only [List.forall_mem_cons]
  exact ⟨Codec.faithful_text.plain_option _, Codec.faithful_text.plain_option _,
    a.state.plain_json, List.forall_mem_nil _⟩

theorem json_inj {a b : QuotedAttachment} : a.json = b.json ↔ a = b := by
  cases a
  cases b
  simp [json, Codec.faithful_text.encode_option_inj, HeldState.json_inj]

end QuotedAttachment

namespace Content

theorem plain_members (c : Content) : ∀ m ∈ c.members, Plain m.2 := by
  cases c with
  | text body ranges =>
    simp only [members, List.forall_mem_cons]
    exact ⟨.text _, .text _, TextRanges.faithful.plain_option _, List.forall_mem_nil _⟩
  | attachment caption ranges a =>
    simp only [members, List.forall_mem_cons]
    exact ⟨.text _, Codec.faithful_text.plain_option _, TextRanges.faithful.plain_option _,
      a.plain_json, List.forall_mem_nil _⟩
  | sticker info a =>
    simp only [members, List.forall_mem_cons]
    exact ⟨.text _, StickerRef.faithful.plain _, a.plain_json, List.forall_mem_nil _⟩
  | contactShare name =>
    simp only [members, List.forall_mem_cons]
    exact ⟨.text _, .text _, List.forall_mem_nil _⟩
  | remotelyDeleted =>
    simp only [members, List.forall_mem_cons]
    exact ⟨.text _, List.forall_mem_nil _⟩
  | viewOnceExpired =>
    simp only [members, List.forall_mem_cons]
    exact ⟨.text _, List.forall_mem_nil _⟩

/-- The kind comes first and tells the cases apart, each of which shows all its parts. -/
theorem members_inj {c d : Content} : c.members = d.members ↔ c = d := by
  cases c <;> cases d <;>
    simp [members, TextRanges.faithful.encode_option_inj, Codec.faithful_text.encode_option_inj,
      StickerRef.faithful.encode_inj, QuotedAttachment.json_inj]

end Content

namespace Snapshot

/-- The members of the object that shows a snapshot. -/
def members (s : Snapshot) : List (String × Json) :=
  [("timestamp", Codec.word64.encode s.timestamp), ("author", Address.json.encode s.author),
    ("is_remotely_sourced", .bool s.isRemotelySourced)] ++ s.content.members

theorem plain_json (s : Snapshot) : Plain s.json := by
  refine .object ?_
  rw [List.forall_mem_append]
  simp only [List.forall_mem_cons]
  exact ⟨⟨Codec.faithful_word64.plain _, Address.faithful.plain _, .bool _,
    List.forall_mem_nil _⟩, s.content.plain_members⟩

theorem json_inj {s t : Snapshot} : s.json = t.json ↔ s = t := by
  cases s
  cases t
  simp [json, Codec.faithful_word64.encode_inj, Address.faithful.encode_inj, Content.members_inj]

/-- No name occurs twice, neither among the parts of one kind nor among these and the common ones.
-/
theorem nodup_names (s : Snapshot) : (s.members.map (·.1)).Nodup := by
  obtain ⟨timestamp, author, isRemotelySourced, content⟩ := s
  cases content <;> simp [members, Content.members]

end Snapshot

namespace CommandLine

/-- The text of a value over several lines is read as the value, so that it is that of no other. -/
theorem shown_inj {j k : Json} (hj : Plain j) (hk : Plain k) : shown j = shown k ↔ j = k := by
  constructor
  · intro h
    have htext : j.pretty = k.pretty := (String.append_left_inj _).mp h
    have hread : read j.pretty = some j := hj.read_write .indented
    rw [htext] at hread
    exact Option.some.inj (hread.symm.trans (hk.read_write .indented))
  · rintro rfl
    rfl

theorem run_quote_eq_ok_iff {config : Config} {moment : Moment} {db after : Store.Database}
    {id : MessageId} {output : String} :
    (Command.quote id).run config moment db = .ok (after, output) ↔
      ∃ s, Snapshot.ofMessage db.lookup id = .ok s ∧ after = db ∧ output = shown s.json := by
  rw [Command.run, map_eq_ok_iff]
  refine exists_congr fun s => and_congr mapError_eq_ok_iff ?_
  rw [Prod.mk.injEq]
  exact and_congr eq_comm eq_comm

end CommandLine

/-- The text that is printed of a quote. -/
def Quote.printed {Image : Type} (q : Quote Image) : String :=
  CommandLine.shown q.snapshot.json

open CommandLine in
/-- Two quotes are printed as the same text exactly if they are the same; the thumbnail and its
longest edge have no part in it. The text is that of an object in which no name occurs twice, and it
is what the command that quotes a message prints. -/
theorem printed_eq_iff_sameAs {Image : Type} :
    (∀ q r : Quote Image, q.printed = r.printed ↔ q.sameAs r = true) ∧
    (∀ (q : Quote Image) (edge : UInt32) (drawn : Option (Option Image)),
      { q with thumbnailMax := edge, drawn }.printed = q.printed) ∧
    (∀ q : Quote Image, q.printed = (Json.object q.snapshot.members).pretty ++ "\n" ∧
      (q.snapshot.members.map (·.1)).Nodup) ∧
    ∀ (config : Config) (moment : Moment) (db after : Store.Database) (id : MessageId)
      (output : String), (Command.quote id).run config moment db = .ok (after, output) ↔
        ∃ s, Snapshot.ofMessage db.lookup id = .ok s ∧ after = db ∧
          output = (⟨s, config.thumbnailMax, none⟩ : Quote Image).printed := by
  refine ⟨fun q r => ?_, fun q edge drawn => rfl, fun q => ⟨rfl, q.snapshot.nodup_names⟩,
    fun config moment db after id output => run_quote_eq_ok_iff⟩
  rw [Quote.printed, Quote.printed, shown_inj q.snapshot.plain_json r.snapshot.plain_json,
    Snapshot.json_inj, Quote.sameAs, beq_iff_eq]

end Quotation
