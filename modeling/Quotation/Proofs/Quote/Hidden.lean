import Quotation.Proofs.Quote.Kinds

/-!
# Hidden fields

What a quote does not show has no influence on it. Of two items that agree in what is shown the
quotes are the same, whatever else is in the items; and where nothing is shown that is looked up,
whatever is held, even if no lookup succeeds.

* `Item.Expired`;
* `Snapshot.ofItem_of_sticker`, `Snapshot.ofItem_of_contact`: for the one the sticker alone is
  looked up, for the other nothing;
* `hidden_fields_unseen`.
-/

namespace Quotation

/-- A view-once message that has been viewed and that its author has not deleted. -/
structure Item.Expired (i : Item) : Prop where
  notDeleted : i.wasRemotelyDeleted = false
  once : i.isViewOnce = true
  viewed : i.isViewOnceComplete = true

theorem Item.Expired.isExpired {i : Item} (h : i.Expired) : i.isExpired = true := by
  rw [Item.isExpired, h.once, h.viewed]
  rfl

namespace Snapshot

variable {look : Lookup} {i : Item}

theorem ofItem_of_sticker (h : i.Visible) {s : Sticker} (hs : i.sticker = some s) :
    ofItem look i =
      build look i.timestamp i.author false (.sticker s.info (some s.attachment)) := by
  rw [ofItem, Source.ofItem_of_sticker h hs]
  rfl

theorem ofItem_of_contact (h : i.Visible) (hs : i.sticker = none) {c : ContactCard}
    (hc : i.contact = some c) :
    ofItem look i =
      .ok ⟨i.timestamp, i.author, false, .contactShare (Text.trim c.displayName)⟩ := by
  rw [ofItem, Source.ofItem_of_contact h hs hc]
  rfl

/-- Of two items of one time and one author whose content is gone in the same way the quotes are the
same, whatever is held. Of two stickers they are the same if the stickers and their pictures are,
where the same is held. Of two contacts they are sent as the same, whatever is held, and they are
the same if the names are, but for blanks around them. -/
theorem hidden_fields_unseen (a b : Item) (htimestamp : a.timestamp = b.timestamp)
    (hauthor : a.author = b.author) :
    ((a.wasRemotelyDeleted = true ∧ b.wasRemotelyDeleted = true) ∨ (a.Expired ∧ b.Expired) →
      ∃ s, ∀ look, ofItem look a = .ok s ∧ ofItem look b = .ok s) ∧
    (a.Visible → b.Visible → ∀ s t, a.sticker = some s → b.sticker = some t → s.info = t.info →
      s.attachment = t.attachment → ∀ look, ofItem look a = ofItem look b) ∧
    (a.Visible → b.Visible → a.sticker = none → b.sticker = none →
      ∀ c d, a.contact = some c → b.contact = some d →
        ∃ s t, (∀ look, ofItem look a = .ok s ∧ ofItem look b = .ok t) ∧ s.wire = t.wire ∧
          (Text.trim c.displayName = Text.trim d.displayName → s = t)) := by
  refine ⟨?_, fun ha hb s t hs ht hinfo hattachment look => ?_,
    fun ha hb hs ht c d hc hd => ?_⟩
  · rintro (⟨ha, hb⟩ | ⟨ha, hb⟩)
    · refine ⟨_, fun look => ⟨ofItem_of_deleted ha, ?_⟩⟩
      rw [htimestamp, hauthor]
      exact ofItem_of_deleted hb
    · refine ⟨_, fun look => ⟨ofItem_of_expired ha.notDeleted ha.isExpired, ?_⟩⟩
      rw [htimestamp, hauthor]
      exact ofItem_of_expired hb.notDeleted hb.isExpired
  · rw [ofItem_of_sticker ha hs, ofItem_of_sticker hb ht, htimestamp, hauthor, hinfo, hattachment]
  · refine ⟨_, _, fun look => ⟨ofItem_of_contact ha hs hc, ofItem_of_contact hb ht hd⟩, ?_,
      fun hname => ?_⟩
    · rw [wire, wire, htimestamp, hauthor]
    · rw [htimestamp, hauthor, hname]

/-- Items that have little in common but what is shown of them, also where no lookup succeeds. -/
theorem hidden_fields_unseen_notFound :
    let failing : Lookup := ⟨fun _ => .error .notFound, fun _ _ => .error .notFound,
      fun _ => .error .notFound, fun _ => .error .notFound⟩
    let picture : AttachmentId := ⟨⟨.replicate 16 2⟩⟩
    let info : StickerRef := ⟨.replicate 16 4, .replicate 32 5, 6⟩
    let bare : Item := { timestamp := 1000, author := ⟨⟨.replicate 16 3⟩, none⟩ }
    let full : Item :=
      { bare with
        body := some "secret", attachments := [picture], contact := some ⟨"\tAnn", ["1"], none⟩ }
    let deleted (i : Item) : Item := { i with wasRemotelyDeleted := true }
    let sticker (i : Item) (emoji : Option String) : Item :=
      { i with sticker := some ⟨info, picture, emoji⟩ }
    let contact : Item := { bare with contact := some ⟨"Ann ", [], some picture⟩ }
    (∃ s, ∀ look, ofItem look (deleted full) = .ok s ∧ ofItem look (deleted bare) = .ok s) ∧
    ofItem failing (sticker full (some "x")) = ofItem failing (sticker bare none) ∧
    ∃ s, ofItem failing full = .ok s ∧ ofItem failing contact = .ok s := by
  intro failing picture info bare full deleted sticker contact
  have hvisible : ∀ i : Item, i.wasRemotelyDeleted = false → i.isViewOnce = false → i.Visible :=
    fun i hkept honce => ⟨hkept, by simp [honce]⟩
  obtain ⟨hgone, -, -⟩ := hidden_fields_unseen (deleted full) (deleted bare) rfl rfl
  obtain ⟨-, hsticker, -⟩ := hidden_fields_unseen (sticker full (some "x")) (sticker bare none)
    rfl rfl
  obtain ⟨-, -, hcontact⟩ := hidden_fields_unseen full contact rfl rfl
  obtain ⟨s, t, hquotes, -, hsame⟩ := hcontact (hvisible _ rfl rfl) (hvisible _ rfl rfl) rfl rfl
    _ _ rfl rfl
  obtain rfl : s = t := hsame (by decide)
  exact ⟨hgone (.inl ⟨rfl, rfl⟩),
    hsticker (hvisible _ rfl rfl) (hvisible _ rfl rfl) _ _ rfl rfl rfl rfl failing, s,
    hquotes failing⟩

end Snapshot

end Quotation
