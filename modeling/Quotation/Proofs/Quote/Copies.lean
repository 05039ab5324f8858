import Quotation.Proofs.Quote.Original
import Quotation.Proofs.Store.Arrival

/-!
# Copies of a message

Nothing prevents a message from being stored several times under different names. A mark concerns
one of these copies. A record leads to the copy that arrived first, so that content which is gone
from this one is withheld, while a mark on a later one withholds nothing.

* `Message.IsGone`, `ofItem_of_gone`;
* `FirstCopy`, `exists_firstCopy`, `FirstCopy.messageAt?_eq`, `FirstCopy.ofRecord_eq`;
* `ofRecord_run_eq_first_copy`;
* `ofRecord_shows_first_copy`: a mark on a copy that did not arrive first.
-/

namespace Quotation

/-- Whether the content of a message is not to be shown any more. -/
def Message.IsGone (m : Message) : Prop :=
  m.wasRemotelyDeleted = true ∨ (m.isViewOnce = true ∧ m.isViewOnceComplete = true)

instance (m : Message) : Decidable m.IsGone :=
  inferInstanceAs (Decidable (_ ∨ _))

namespace Store

/-- The quote of a message whose content is gone shows none of it. -/
theorem ofItem_of_gone (look : Lookup) {m : Message} (h : m.IsGone) :
    ∃ s, Snapshot.ofItem look m.item = .ok s ∧ s.Withholds m := by
  have hsame : SameOrigin m m := ⟨rfl, rfl, rfl⟩
  cases hdeleted : m.wasRemotelyDeleted with
  | true =>
    exact ⟨_, Snapshot.ofItem_of_deleted hdeleted, withholds_of_content hsame (.inl rfl)⟩
  | false =>
    have hexpired : m.item.isExpired = true := by
      obtain ⟨honce, hviewed⟩ := h.resolve_left (by simp [hdeleted])
      rw [Item.isExpired, Bool.and_eq_true]
      exact ⟨honce, hviewed⟩
    exact ⟨_, Snapshot.ofItem_of_expired hdeleted hexpired, withholds_of_content hsame (.inr rfl)⟩

theorem mem_copies_iff {ops : List Operation} {r : QuoteRecord} {m : Message} :
    m ∈ (Contents.run {} ops).copies r.timestamp r.author ↔
      Ledger.empty.run ops m.id = some m ∧ r.RefersTo m := by
  rw [Contents.mem_copies, mem_messages_run_iff, Contents.sentAt_eq_true_iff]

/-- The copy that a record leads to: of the messages that the store holds after a run and that the
record refers to, it arrived before all others. -/
structure FirstCopy (ops : List Operation) (r : QuoteRecord) (m : Message) : Prop where
  held : Ledger.empty.run ops m.id = some m
  refers : r.RefersTo m
  first : ∀ n, Ledger.empty.run ops n.id = some n → r.RefersTo n → n ≠ m → ArrivedBefore ops m n

variable {ops : List Operation} {r : QuoteRecord} {m : Message}

theorem firstCopy_iff :
    FirstCopy ops r m ↔ ((Contents.run {} ops).copies r.timestamp r.author).head? = some m := by
  rw [Contents.head?_copies_eq_some_iff, mem_copies_iff]
  constructor
  · rintro ⟨hheld, hrefers, hfirst⟩
    refine ⟨⟨hheld, hrefers⟩, fun n hn => ?_⟩
    obtain ⟨hn_held, hn_refers⟩ := mem_copies_iff.mp hn
    exact hfirst n hn_held hn_refers
  · rintro ⟨⟨hheld, hrefers⟩, hfirst⟩
    exact ⟨hheld, hrefers, fun n hn hn_refers => hfirst n (mem_copies_iff.mpr ⟨hn, hn_refers⟩)⟩

/-- There is a first copy if there is one at all. -/
theorem exists_firstCopy (hm : Ledger.empty.run ops m.id = some m) (hrefers : r.RefersTo m) :
    ∃ n, FirstCopy ops r n := by
  obtain ⟨n, rest, hcopies⟩ :=
    List.exists_cons_of_ne_nil (List.ne_nil_of_mem (mem_copies_iff.mpr ⟨hm, hrefers⟩))
  exact ⟨n, firstCopy_iff.mpr (by rw [hcopies, List.head?_cons])⟩

/-- The lookup of what a record refers to reads the first copy. -/
theorem FirstCopy.messageAt?_eq (h : FirstCopy ops r m) :
    (Database.fresh.run ops).messageAt? r.timestamp r.author = answer (some m) := by
  rw [Contents.messageAt?_run_eq_answer, firstCopy_iff.mp h]

/-- The quote of the first copy is what a record gives whose original can be looked up. -/
theorem FirstCopy.ofRecord_eq (h : FirstCopy ops r m) (hdated : m.receivedAt.Dated)
    (config : Config) :
    Snapshot.ofRecord config (Database.fresh.run ops).lookup r =
      Snapshot.ofItem (Database.fresh.run ops).lookup m.item := by
  refine ofRecord_of_found (m := m.reread) ?_ config
  rw [h.messageAt?_eq]
  exact if_pos hdated

/-- A record gives no quote where the time of receipt of the first copy cannot be read. -/
theorem FirstCopy.ofRecord_ne_ok (h : FirstCopy ops r m) (hdated : ¬m.receivedAt.Dated)
    (config : Config) (s : Snapshot) :
    Snapshot.ofRecord config (Database.fresh.run ops).lookup r ≠ .ok s := by
  rw [Snapshot.ofRecord, Database.lookup_messageAt, h.messageAt?_eq, answer, if_neg hdated]
  intro hs
  cases hs

/-- After any run, a record that refers to messages of the store leads to one of them, the one that
arrived before all others. A quote that it gives is the quote of this message, and if its time of
receipt can be read back, the record gives what this message gives, be it a quote or an error. So if
the content of this message is gone, all content is withheld, and one is given; and if it is not
gone, it is shown, whatever the marks of the others are. -/
theorem ofRecord_run_eq_first_copy (ops : List Operation) (config : Config) (r : QuoteRecord) :
    let look := (Database.fresh.run ops).lookup
    let answer := Snapshot.ofRecord config look r
    ((∃ n, Ledger.empty.run ops n.id = some n ∧ r.RefersTo n) → ∃ m, FirstCopy ops r m) ∧
    ∀ m, FirstCopy ops r m →
      (∀ s, answer = .ok s → Snapshot.ofItem look m.item = .ok s) ∧
      (m.receivedAt.Dated → answer = Snapshot.ofItem look m.item) ∧
      (m.IsGone → (∀ s, answer = .ok s → s.Withholds m) ∧
        (m.receivedAt.Dated → ∃ s, answer = .ok s)) := by
  intro look answer
  refine ⟨fun ⟨n, hn, hrefers⟩ => exists_firstCopy hn hrefers, fun m hm => ?_⟩
  have heq : m.receivedAt.Dated → answer = Snapshot.ofItem look m.item :=
    fun hdated => hm.ofRecord_eq hdated config
  have hitem : ∀ s, answer = .ok s → Snapshot.ofItem look m.item = .ok s := by
    intro s hs
    have hdated : m.receivedAt.Dated :=
      Decidable.byContradiction fun hnot => hm.ofRecord_ne_ok hnot config s hs
    rw [← heq hdated, hs]
  refine ⟨hitem, heq, fun hgone => ?_⟩
  obtain ⟨shown, hshown, hwithholds⟩ := ofItem_of_gone look hgone
  constructor
  · intro s hs
    have hs' := hitem s hs
    rw [hshown] at hs'
    cases hs'
    exact hwithholds
  · intro hdated
    exact ⟨shown, (heq hdated).trans hshown⟩

/-- Another copy of the message received in a leap second, received later. -/
def laterCopy : Message :=
  { leapMessage with
    id := ⟨⟨.replicate 16 4⟩⟩, receivedAt := ⟨1483228800, 0, by decide⟩ }

/-- A text of which there are two copies. If the one that arrived first is deleted, the record that
refers to both shows nothing, though the other one was inserted before it. -/
theorem ofRecord_run_eq_first_copy_leapMessage :
    let m : Message := { leapMessage with body := some "Hi" }
    let ops : List Operation := [.insertMessage { laterCopy with body := some "Hi" },
      .insertMessage m, .markRemotelyDeleted m.id]
    let r : QuoteRecord := { timestamp := m.timestamp, author := m.author }
    FirstCopy ops r m.tombstone ∧
    ∃ s, Snapshot.ofRecord {} (Database.fresh.run ops).lookup r = .ok s ∧ s.body = none := by
  intro m ops r
  have hmessages : (Contents.run {} ops).messages =
      [{ laterCopy with body := some "Hi" }, m.tombstone] := by
    rfl
  have hfirst : FirstCopy ops r m.tombstone := by
    refine ⟨by rfl, ⟨rfl, rfl⟩, fun n hn _ hne => ?_⟩
    rw [← mem_messages_run_iff, hmessages] at hn
    rcases List.mem_cons.mp hn with rfl | hn
    · exact .inl (by decide)
    · exact absurd (List.mem_singleton.mp hn) hne
  obtain ⟨-, hcopy⟩ := ofRecord_run_eq_first_copy ops {} r
  obtain ⟨-, -, hgone⟩ := hcopy m.tombstone hfirst
  obtain ⟨hwithheld, hanswer⟩ := hgone (.inl rfl)
  obtain ⟨s, hs⟩ := hanswer (by decide)
  exact ⟨hfirst, s, hs, (hwithheld s hs).body⟩

/-- A text of which there are two copies, the second of which is deleted: the record leads to the
first one and shows the text. -/
theorem ofRecord_shows_first_copy :
    let m : Message := { leapMessage with body := some "Hi" }
    let copy : Message := { laterCopy with body := some "Hi" }
    let ops : List Operation :=
      [.insertMessage m, .insertMessage copy, .markRemotelyDeleted copy.id]
    let r : QuoteRecord := { timestamp := m.timestamp, author := m.author }
    (∀ op ∈ ops, op.Dated) ∧
    (∃ n, Ledger.empty.run ops n.id = some n ∧ r.RefersTo n ∧ n.wasRemotelyDeleted = true) ∧
    ∃ s, Snapshot.ofRecord {} (Database.fresh.run ops).lookup r = .ok s ∧ s.body = some "Hi" := by
  intro m copy ops r
  have hcopies : (Contents.run {} ops).copies r.timestamp r.author = [m, copy.tombstone] :=
    List.mergeSort_of_pairwise (by decide)
  have hfound : (Database.fresh.run ops).messageAt? r.timestamp r.author = .ok (some m) := by
    rw [Contents.messageAt?_run_eq_answer, hcopies]
    exact answer_of_kept (by decide)
  refine ⟨by decide, ⟨copy.tombstone, by rfl, ⟨rfl, rfl⟩, rfl⟩,
    ⟨m.timestamp, m.author, false, .text "Hi" none⟩, ?_, rfl⟩
  rw [ofRecord_of_found hfound]
  rfl

end Store

end Quotation
