import Mathlib.Data.List.Induction
import Quotation.Proofs.Store.History

/-!
# The order of arrival

Of several messages that an account sent at one time, the lookup of the time and the account finds
the one whose time of receipt is stored as the first text, and of those with the same text the one
that was added first.

* `AddedBefore`, `ArrivedBefore`;
* `addedBefore_total`, `arrivedBefore_total`: of two messages that are there, one was added, and one
  arrived, before the other;
* `Contents.ids_run`: messages are only added behind those that are there;
* `Contents.head?_copies_eq_some_iff`: the first of the copies arrived before all others;
* `Contents.messageAt?_run_eq_answer`: it is the one that is read, if its time of receipt can be.
-/

namespace Quotation.Store

open scoped List

/-- Whether a message was there before another: at some point of the run it was there, and the other
was not. -/
def AddedBefore (ops : List Operation) (m n : Message) : Prop :=
  ∃ before after, ops = before ++ after ∧ (Ledger.empty.run before m.id).isSome = true ∧
    Ledger.empty.run before n.id = none

/-- Whether a message arrived before another, as far as the database can tell. -/
def ArrivedBefore (ops : List Operation) (m n : Message) : Prop :=
  m.receivedAt.stored < n.receivedAt.stored ∨
    (m.receivedAt.stored = n.receivedAt.stored ∧ AddedBefore ops m n)

variable {ops : List Operation} {m n : Message}

theorem AddedBefore.append (h : AddedBefore ops m n) (ops' : List Operation) :
    AddedBefore (ops ++ ops') m n := by
  obtain ⟨before, after, rfl, hm, hn⟩ := h
  exact ⟨before, after ++ ops', List.append_assoc _ _ _, hm, hn⟩

/-- Of two messages that are there, one was added before the other. -/
theorem addedBefore_total (hne : m.id ≠ n.id) (hm : (Ledger.empty.run ops m.id).isSome = true)
    (hn : (Ledger.empty.run ops n.id).isSome = true) :
    AddedBefore ops m n ∨ AddedBefore ops n m := by
  -- the last operation adds at most one of the two
  induction ops using List.reverseRecOn with
  | nil => cases hm
  | append_singleton ops op ih =>
    cases hm' : Ledger.empty.run ops m.id with
    | some m' =>
      have hm_there : (Ledger.empty.run ops m.id).isSome = true := by rw [hm']; rfl
      cases hn' : Ledger.empty.run ops n.id with
      | some n' =>
        have hn_there : (Ledger.empty.run ops n.id).isSome = true := by rw [hn']; rfl
        exact (ih hm_there hn_there).imp (·.append [op]) (·.append [op])
      | none => exact .inl ⟨ops, [op], rfl, hm_there, hn'⟩
    | none =>
      cases hn' : Ledger.empty.run ops n.id with
      | some n' => exact .inr ⟨ops, [op], rfl, by rw [hn']; rfl, hm'⟩
      | none =>
        rw [Ledger.run_append] at hm hn
        obtain ⟨x, hx⟩ := Option.isSome_iff_exists.mp hm
        obtain ⟨y, hy⟩ := Option.isSome_iff_exists.mp hn
        obtain ⟨hop, hxid⟩ := Ledger.after_eq_some hm' hx
        obtain ⟨hop', hyid⟩ := Ledger.after_eq_some hn' hy
        rw [hop] at hop'
        cases hop'
        exact absurd (hxid.symm.trans hyid) hne

/-- Of two messages that are there, one arrived before the other. -/
theorem arrivedBefore_total (hne : m ≠ n) (hm : Ledger.empty.run ops m.id = some m)
    (hn : Ledger.empty.run ops n.id = some n) : ArrivedBefore ops m n ∨ ArrivedBefore ops n m := by
  have hid : m.id ≠ n.id := by
    intro hid
    rw [hid, hn] at hm
    exact hne (Option.some.inj hm).symm
  by_cases hlt : m.receivedAt.stored < n.receivedAt.stored
  · exact .inl (.inl hlt)
  by_cases hgt : n.receivedAt.stored < m.receivedAt.stored
  · exact .inr (.inl hgt)
  have heq : m.receivedAt.stored = n.receivedAt.stored :=
    String.le_antisymm (String.not_lt.mp hgt) (String.not_lt.mp hlt)
  have hadded := addedBefore_total hid (by rw [hm]; rfl) (by rw [hn]; rfl)
  exact hadded.imp (fun h => .inr ⟨heq, h⟩) fun h => .inr ⟨heq.symm, h⟩

namespace Contents

/-! ### The order in which messages were added -/

theorem ids_after (c : Contents) (op : Operation) : c.ids <+: (c.after op).ids := by
  rcases c.messages_after op with h | ⟨m, -, -, h⟩ | ⟨id, f, hf, h⟩
  · exact ⟨[], by rw [List.append_nil, ids, ids, h]⟩
  · exact ⟨[m.id], by rw [ids, ids, h, List.map_append, List.map_singleton]⟩
  · have hids : (c.after op).ids = c.ids := by
      rw [← c.ids_changeMessage id fun m => (hf m).1, ids, ids, h]
    exact ⟨[], by rw [List.append_nil, hids]⟩

/-- Messages are only added behind those that are there. -/
theorem ids_run (c : Contents) (ops : List Operation) : c.ids <+: (c.run ops).ids := by
  induction ops generalizing c with
  | nil => exact List.prefix_refl _
  | cons op ops ih => exact (c.ids_after op).trans (ih (c.after op))

theorem isSome_ledger_iff {c : Contents} {id : MessageId} :
    (c.ledger id).isSome = true ↔ id ∈ c.ids := by
  rw [← hasMessage_eq, hasMessage, List.any_eq_true, ids, List.mem_map]
  simp only [beq_iff_eq]

theorem Distinct.eq_of_id {c : Contents} (hc : c.Distinct) {m n : Message} (hm : m ∈ c.messages)
    (hn : n ∈ c.messages) (h : m.id = n.id) : m = n := by
  have hledger := hc.ledger_id hm
  rw [h, hc.ledger_id hn] at hledger
  exact (Option.some.inj hledger).symm

/-- A message that was there before another stands in front of it. -/
theorem pair_sublist_of_addedBefore {ops : List Operation} {m n : Message}
    (hm : m ∈ (run {} ops).messages) (hn : n ∈ (run {} ops).messages)
    (h : AddedBefore ops m n) : [m, n] <+ (run {} ops).messages := by
  have hdistinct := Distinct.empty.run ops
  obtain ⟨before, after, rfl, hthere, hnot⟩ := h
  rw [← ledger_run_fresh] at hthere hnot
  have hids : (run {} before).ids <+: (run {} (before ++ after)).ids := by
    rw [run, run, List.foldl_append]
    exact ids_run _ after
  obtain ⟨front, back, hsplit, hfront⟩ : ∃ front back,
      (run {} (before ++ after)).messages = front ++ back ∧
        front.map (·.id) = (run {} before).ids := by
    obtain ⟨rest, hrest⟩ := hids
    obtain ⟨front, back, hsplit, hfront, -⟩ := List.map_eq_append_iff.mp hrest.symm
    exact ⟨front, back, hsplit, hfront⟩
  have hm_front : m ∈ front := by
    rw [isSome_ledger_iff, ← hfront] at hthere
    obtain ⟨k, hk, hid⟩ := List.mem_map.mp hthere
    have hk_mem : k ∈ (run {} (before ++ after)).messages := by
      rw [hsplit]
      exact List.mem_append_left back hk
    rwa [← hdistinct.eq_of_id hk_mem hm hid]
  have hn_back : n ∈ back := by
    rw [hsplit, List.mem_append] at hn
    refine hn.resolve_left fun hn_front => ?_
    have hsome : ((run {} before).ledger n.id).isSome = true := by
      rw [isSome_ledger_iff, ← hfront]
      exact List.mem_map_of_mem hn_front
    rw [hnot] at hsome
    cases hsome
  rw [hsplit]
  exact (List.singleton_sublist.mpr hm_front).append (List.singleton_sublist.mpr hn_back)

/-! ### The message that is found -/

theorem storedBefore_iff {m n : Message} :
    storedBefore m n = true ↔ m.receivedAt.stored ≤ n.receivedAt.stored := by
  rw [storedBefore, Bool.not_eq_true', decide_eq_false_iff_not, String.not_lt]

theorem storedBefore_trans (a b c : Message) (hab : storedBefore a b = true)
    (hbc : storedBefore b c = true) : storedBefore a c = true := by
  rw [storedBefore_iff] at hab hbc ⊢
  exact String.le_trans hab hbc

theorem storedBefore_total (a b : Message) : (storedBefore a b || storedBefore b a) = true := by
  rw [Bool.or_eq_true, storedBefore_iff, storedBefore_iff]
  exact String.le_total _ _

/-- The messages that an account sent at a time, in the order of their arrival. -/
def copies (c : Contents) (timestamp : UInt64) (author : Address) : List Message :=
  (c.messages.filter (sentAt timestamp author)).mergeSort storedBefore

variable {timestamp : UInt64} {author : Address}

theorem mem_copies {c : Contents} {m : Message} :
    m ∈ c.copies timestamp author ↔ m ∈ c.messages ∧ sentAt timestamp author m = true := by
  rw [copies, List.mem_mergeSort, List.mem_filter]

theorem Distinct.nodup_copies {c : Contents} (hc : c.Distinct) :
    (c.copies timestamp author).Nodup := by
  have hmessages : c.messages.Nodup :=
    List.Pairwise.of_map (·.id) (fun _ _ hne heq => hne (congrArg _ heq)) hc
  exact (List.mergeSort_perm _ _).nodup_iff.mpr (hmessages.sublist List.filter_sublist)

theorem storedBefore_head {c : Contents} {m n : Message} {rest : List Message}
    (hhead : c.copies timestamp author = n :: rest) (hm : m ∈ c.copies timestamp author) :
    storedBefore n m = true := by
  have hsorted : (c.copies timestamp author).Pairwise (storedBefore · ·) :=
    List.pairwise_mergeSort storedBefore_trans storedBefore_total _
  rw [hhead] at hsorted hm
  rcases List.mem_cons.mp hm with rfl | hm
  · simpa using storedBefore_total m m
  · exact List.rel_of_pairwise_cons hsorted hm

/-- No copy arrived before the first. -/
theorem not_arrivedBefore_head {ops : List Operation} {m n : Message} {rest : List Message}
    (hhead : (run {} ops).copies timestamp author = n :: rest)
    (hm : m ∈ (run {} ops).copies timestamp author) : ¬ArrivedBefore ops m n := by
  have hn : n ∈ (run {} ops).copies timestamp author := by
    rw [hhead]
    exact List.mem_cons_self
  obtain ⟨hm_mem, hm_sent⟩ := mem_copies.mp hm
  obtain ⟨hn_mem, hn_sent⟩ := mem_copies.mp hn
  rintro (hlt | ⟨heq, hadded⟩)
  · have hle := storedBefore_iff.mp (storedBefore_head hhead hm)
    exact String.not_lt.mpr hle hlt
  · -- sorting keeps the order in which messages of one time were added
    have hpair : [m, n] <+ (run {} ops).copies timestamp author := by
      refine List.pair_sublist_mergeSort storedBefore_trans storedBefore_total ?_ ?_
      · rw [storedBefore_iff, ← String.not_lt, heq]
        exact String.lt_irrefl _
      · have hfilter := (pair_sublist_of_addedBefore hm_mem hn_mem hadded).filter
          (sentAt timestamp author)
        simpa [hm_sent, hn_sent] using hfilter
    have hnodup : ((run {} ops).copies timestamp author).Nodup :=
      (Distinct.empty.run ops).nodup_copies
    rw [hhead] at hpair hnodup
    have hrest : n ∈ rest := List.singleton_sublist.mp (List.Sublist.tail hpair)
    exact (List.nodup_cons.mp hnodup).1 hrest

/-- The first copy is the one that arrived before all others. -/
theorem head?_copies_eq_some_iff {ops : List Operation} {m : Message} :
    ((run {} ops).copies timestamp author).head? = some m ↔
      m ∈ (run {} ops).copies timestamp author ∧
        ∀ n ∈ (run {} ops).copies timestamp author, n ≠ m → ArrivedBefore ops m n := by
  have hheld : ∀ n ∈ (run {} ops).copies timestamp author, Ledger.empty.run ops n.id = some n :=
    fun n hn => mem_messages_run_iff.mp (mem_copies.mp hn).1
  cases hcopies : (run {} ops).copies timestamp author with
  | nil => simp
  | cons k rest =>
    rw [List.head?_cons, Option.some.injEq, ← hcopies]
    have hk : k ∈ (run {} ops).copies timestamp author := by
      rw [hcopies]
      exact List.mem_cons_self
    constructor
    · rintro rfl
      refine ⟨hk, fun n hn hne => ?_⟩
      exact (arrivedBefore_total hne.symm (hheld k hk) (hheld n hn)).resolve_right
        (not_arrivedBefore_head hcopies hn)
    · rintro ⟨hm, hfirst⟩
      -- were they two, each of them would have arrived before the other
      exact Decidable.byContradiction fun hne =>
        not_arrivedBefore_head hcopies hm (hfirst k hk hne)

/-- The lookup reads the first copy. -/
theorem messageAt?_run_eq_answer (ops : List Operation) (timestamp : UInt64) (author : Address) :
    (Database.fresh.run ops).messageAt? timestamp author =
      answer ((run {} ops).copies timestamp author).head? := by
  rw [run_fresh, messageAt?_eq_answer, ← copies]

end Contents

end Quotation.Store
