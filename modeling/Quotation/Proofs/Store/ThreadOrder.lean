import Mathlib.Algebra.Group.Nat.Defs
import Quotation.Proofs.Store.Transactions

/-!
# The order of the messages of a thread

The times of outgoing messages are kept as integers with a sign, and a thread is read in the order
of these. Times below 2 ^ 63 come in their order, and so do those from 2 ^ 63 on, but the latter
come before the former. Messages of one time come in the order in which they were added.

* `kept`: the messages that are there after some have been added;
* `toInt64_le_toInt64_iff`: the order of the integers, in terms of the times;
* `exists_late_append_early`, `filter_mergeSort_of_tied`: what sorting by them does;
* `outgoingOf_run_order`.
-/

namespace Quotation.Store

open scoped List

/-- Adds a message behind others, unless its name is taken. -/
def keep (old : List StoredOutgoing) (o : StoredOutgoing) : List StoredOutgoing :=
  if old.any (·.id == o.id) then old else old ++ [o]

/-- The messages that are there after some have been added one by one, in that order. -/
def kept (os : List StoredOutgoing) : List StoredOutgoing :=
  os.foldl keep []

/-- Whether a message has a time whose integer is negative. -/
def IsLate (o : StoredOutgoing) : Prop :=
  2 ^ 63 ≤ o.message.timestamp.toNat

instance (o : StoredOutgoing) : Decidable (IsLate o) :=
  inferInstanceAs (Decidable (_ ≤ _))

/-- Whether the times of some messages do not decrease. -/
def TimeOrdered (os : List StoredOutgoing) : Prop :=
  os.Pairwise fun o p => o.message.timestamp ≤ p.message.timestamp

instance (os : List StoredOutgoing) : Decidable (TimeOrdered os) :=
  inferInstanceAs (Decidable (List.Pairwise _ _))

/-! ### The messages that are there -/

namespace Contents

theorem outgoing_foldl_addOutgoing (c : Contents) (os : List StoredOutgoing) :
    (os.foldl addOutgoing c).outgoing = os.foldl keep c.outgoing := by
  induction os generalizing c with
  | nil => rfl
  | cons o os ih =>
    rw [List.foldl_cons, List.foldl_cons, ih, addOutgoing, keep]
    split <;> rfl

theorem outgoing_run_eq_foldl (c : Contents) (ops : List Operation) :
    (c.run ops).outgoing = (committed ops).foldl keep c.outgoing := by
  induction ops generalizing c with
  | nil => rfl
  | cons op ops ih =>
    rw [run, List.foldl_cons, ← run, ih, outgoing_after, outgoing_foldl_addOutgoing,
      ← List.foldl_append]
    rfl

end Contents

/-- Nothing is refused if the names are distinct. -/
theorem kept_of_nodup {os : List StoredOutgoing} (h : (os.map (·.id)).Nodup) : kept os = os := by
  have hall := Contents.foldl_addOutgoing_of_new (c := {}) ⟨h, fun _ _ => rfl⟩
  have houtgoing := congrArg Contents.outgoing hall
  rwa [Contents.outgoing_foldl_addOutgoing] at houtgoing

/-! ### The order of the integers -/

/-- Of two times the integer of the first is not greater if it alone is negative, or if both have
one sign and the time is not greater. -/
theorem toInt64_le_toInt64_iff {a b : UInt64} :
    a.toInt64 ≤ b.toInt64 ↔
      (2 ^ 63 ≤ a.toNat ∧ b.toNat < 2 ^ 63) ∨
        ((2 ^ 63 ≤ a.toNat ↔ 2 ^ 63 ≤ b.toNat) ∧ a ≤ b) := by
  have ha := a.toNat_lt
  have hb := b.toNat_lt
  have hint : ∀ c : UInt64, c.toInt64.toInt =
      if 2 * c.toNat < 2 ^ 64 then (c.toNat : Int) else c.toNat - 2 ^ 64 := fun c =>
    BitVec.toInt_eq_toNat_cond c.toBitVec
  rw [Int64.le_iff_toInt_le, UInt64.le_iff_toNat_le, hint, hint]
  split <;> split <;> omega

namespace Contents

theorem sentBefore_trans (a b c : StoredOutgoing) (hab : sentBefore a b = true)
    (hbc : sentBefore b c = true) : sentBefore a c = true := by
  rw [sentBefore, decide_eq_true_iff] at hab hbc ⊢
  exact Int64.le_trans hab hbc

theorem sentBefore_total (a b : StoredOutgoing) : (sentBefore a b || sentBefore b a) = true := by
  rw [Bool.or_eq_true, sentBefore, sentBefore, decide_eq_true_iff, decide_eq_true_iff]
  exact Int64.le_total _ _

theorem sentBefore_iff {o p : StoredOutgoing} :
    sentBefore o p = true ↔ (IsLate o ∧ ¬IsLate p) ∨
      ((IsLate o ↔ IsLate p) ∧ o.message.timestamp ≤ p.message.timestamp) := by
  rw [sentBefore, decide_eq_true_iff, toInt64_le_toInt64_iff, ← Nat.not_le]
  rfl

/-- In the order of the integers, the late messages come first; both they and the others are in the
order of their times. -/
theorem exists_late_append_early {os : List StoredOutgoing}
    (h : os.Pairwise (sentBefore · · = true)) :
    ∃ late early, os = late ++ early ∧ (∀ o ∈ late, IsLate o) ∧ (∀ o ∈ early, ¬IsLate o) ∧
      TimeOrdered late ∧ TimeOrdered early := by
  induction os with
  | nil => exact ⟨[], [], rfl, by simp, by simp, .nil, .nil⟩
  | cons o os ih =>
    obtain ⟨hfirst, hrest⟩ := List.pairwise_cons.mp h
    obtain ⟨late, early, rfl, hlate, hearly, hlate_order, hearly_order⟩ := ih hrest
    simp only [sentBefore_iff, List.mem_append] at hfirst
    by_cases ho : IsLate o
    · refine ⟨o :: late, early, rfl, List.forall_mem_cons.mpr ⟨ho, hlate⟩, hearly,
        List.pairwise_cons.mpr ⟨fun p hp => ?_, hlate_order⟩, hearly_order⟩
      rcases hfirst p (.inl hp) with ⟨-, hnot⟩ | ⟨-, hle⟩
      · exact absurd (hlate p hp) hnot
      · exact hle
    · -- behind a message that is not late there is none
      have hsame : ∀ p, p ∈ late ∨ p ∈ early →
          ¬IsLate p ∧ o.message.timestamp ≤ p.message.timestamp := by
        intro p hp
        rcases hfirst p hp with ⟨hnot, -⟩ | ⟨hsign, hle⟩
        · exact absurd hnot ho
        · exact ⟨fun hp => ho (hsign.mpr hp), hle⟩
      have hnone : late = [] := List.eq_nil_iff_forall_not_mem.mpr fun p hp =>
        (hsame p (.inl hp)).1 (hlate p hp)
      subst hnone
      exact ⟨[], o :: early, rfl, by simp, List.forall_mem_cons.mpr ⟨ho, hearly⟩, .nil,
        List.pairwise_cons.mpr ⟨fun p hp => (hsame p (.inr hp)).2, hearly_order⟩⟩

/-- Messages of which none has to come before another keep their order when all are sorted. -/
theorem filter_mergeSort_of_tied {chosen : StoredOutgoing → Bool}
    (h : ∀ o p, chosen o = true → chosen p = true → sentBefore o p = true)
    (os : List StoredOutgoing) :
    (os.mergeSort sentBefore).filter chosen = os.filter chosen := by
  have hsorted : (os.filter chosen).Pairwise (sentBefore · · = true) :=
    List.pairwise_of_forall_mem_list fun o ho p hp =>
      h o p (List.mem_filter.mp ho).2 (List.mem_filter.mp hp).2
  have hsub : os.filter chosen <+ (os.mergeSort sentBefore).filter chosen := by
    have hall := (List.sublist_mergeSort sentBefore_trans sentBefore_total hsorted
      List.filter_sublist).filter chosen
    simpa only [List.filter_filter, Bool.and_self] using hall
  refine (hsub.eq_of_length ?_).symm
  exact ((List.mergeSort_perm os sentBefore).filter chosen).length_eq.symm

end Contents

/-- The messages are in the order of their times unless some are late and some are not. -/
theorem timeOrdered_append_iff {late early : List StoredOutgoing} (hlate : ∀ o ∈ late, IsLate o)
    (hearly : ∀ o ∈ early, ¬IsLate o) (hlate_order : TimeOrdered late)
    (hearly_order : TimeOrdered early) :
    TimeOrdered (late ++ early) ↔ late = [] ∨ early = [] := by
  constructor
  · intro h
    obtain ⟨-, -, hcross⟩ := List.pairwise_append.mp h
    rcases late with _ | ⟨o, late⟩
    · exact .inl rfl
    rcases early with _ | ⟨p, early⟩
    · exact .inr rfl
    · have hle := UInt64.le_iff_toNat_le.mp (hcross o List.mem_cons_self p List.mem_cons_self)
      exact absurd (Nat.le_trans (hlate o List.mem_cons_self) hle) (hearly p List.mem_cons_self)
  · rintro (rfl | rfl)
    · exact hearly_order
    · rwa [List.append_nil]

/-- The messages of a thread are those that committed transactions have added to it, all of them if
their names are distinct. First come the late ones and then the others, both in the order of their
times and those of one time in the order in which they were added. So all of them are in the order
of their times exactly if all or none are late. -/
theorem outgoingOf_run_order (ops : List Operation) (hops : ∀ op ∈ ops, op.Bounded)
    (thread : ThreadId) :
    let sent := (kept (committed ops)).filter (·.message.thread == thread)
    ∃ late early, (Database.fresh.run ops).outgoingOf thread = .ok (late ++ early) ∧
      (∀ o ∈ late, IsLate o) ∧ (∀ o ∈ early, ¬IsLate o) ∧ TimeOrdered late ∧ TimeOrdered early ∧
      late ++ early ~ sent ∧
      (((committed ops).map (·.id)).Nodup → kept (committed ops) = committed ops) ∧
      (∀ t, (late ++ early).filter (·.message.timestamp == t) =
        sent.filter (·.message.timestamp == t)) ∧
      (TimeOrdered (late ++ early) ↔ late = [] ∨ early = []) := by
  intro sent
  have houtgoing : (Contents.run {} ops).outgoing = kept (committed ops) :=
    Contents.outgoing_run_eq_foldl {} ops
  have hread : (Database.fresh.run ops).outgoingOf thread =
      .ok (sent.mergeSort Contents.sentBefore) := by
    rw [Contents.run_fresh, Contents.outgoingOf_eq (Contents.Bounded.empty.run hops), houtgoing]
  obtain ⟨late, early, hsplit, hlate, hearly, hlate_order, hearly_order⟩ :=
    Contents.exists_late_append_early (List.pairwise_mergeSort Contents.sentBefore_trans
      Contents.sentBefore_total sent)
  refine ⟨late, early, hread.trans (congrArg _ hsplit), hlate, hearly, hlate_order, hearly_order,
    hsplit ▸ List.mergeSort_perm sent _, kept_of_nodup, fun t => ?_,
    timeOrdered_append_iff hlate hearly hlate_order hearly_order⟩
  rw [← hsplit]
  refine Contents.filter_mergeSort_of_tied (fun o p ho hp => ?_) sent
  obtain rfl := beq_iff_eq.mp ho
  rw [Contents.sentBefore, beq_iff_eq.mp hp]
  exact decide_eq_true (Int64.le_refl _)

/-- An empty text of a time, under one of several names. -/
def emptyText (name : UInt8) (timestamp : UInt64) : StoredOutgoing where
  id := ⟨⟨.replicate 16 name⟩⟩
  message := { thread := leapMessage.thread, timestamp, body := some "" }
  createdAt := leapMessage.receivedAt

theorem bounded_emptyText (name : UInt8) (timestamp : UInt64) :
    (emptyText name timestamp).Bounded :=
  ⟨by simp [emptyText, OutgoingMessage.Sized, Text.Sized],
    (by decide : leapMessage.receivedAt.Kept)⟩

/-- Of two late messages and two that are not, the latter come in the order in which they were
added, but the thread is not in the order of times. -/
theorem outgoingOf_run_order_emptyText :
    let ops : List Operation := [.write [emptyText 1 5, emptyText 2 9223372036854775808] true,
      .write [emptyText 3 0] false,
      .write [emptyText 4 18446744073709551615, emptyText 5 5] true]
    (∀ op ∈ ops, op.Bounded) ∧
    ∃ os, (Database.fresh.run ops).outgoingOf leapMessage.thread = .ok os ∧ ¬TimeOrdered os ∧
      os.filter (·.message.timestamp == 5) = [emptyText 1 5, emptyText 5 5] := by
  intro ops
  have hops : ∀ op ∈ ops, op.Bounded := by
    simp [ops, Operation.Bounded, bounded_emptyText]
  obtain ⟨late, early, hread, hlate, hearly, -, -, hperm, -, htied, horder⟩ :=
    outgoingOf_run_order ops hops leapMessage.thread
  refine ⟨hops, late ++ early, hread, fun hordered => ?_, (htied 5).trans (by decide)⟩
  have hthere : ∀ o ∈ [emptyText 1 5, emptyText 2 9223372036854775808], o ∈ late ++ early := by
    intro o ho
    refine hperm.mem_iff.mpr ?_
    revert o
    decide
  rcases horder.mp hordered with rfl | rfl
  · have hsecond := hthere (emptyText 2 9223372036854775808) (by simp)
    exact hearly _ hsecond (by decide)
  · have hfirst := hthere (emptyText 1 5) (by simp)
    rw [List.append_nil] at hfirst
    exact absurd (hlate _ hfirst) (by decide)

/-- A message of the time 2 ^ 63 comes before one of the time 1 that was added before it. -/
theorem outgoingOf_late_first :
    let ops : List Operation := [.write [emptyText 1 1, emptyText 2 9223372036854775808] true]
    (Database.fresh.run ops).outgoingOf leapMessage.thread =
      .ok [emptyText 2 9223372036854775808, emptyText 1 1] ∧
    ¬TimeOrdered [emptyText 2 9223372036854775808, emptyText 1 1] := by
  intro ops
  have hops : ∀ op ∈ ops, op.Bounded := by
    simp [ops, Operation.Bounded, bounded_emptyText]
  refine ⟨?_, by decide⟩
  rw [Contents.run_fresh, Contents.outgoingOf_eq (Contents.Bounded.empty.run hops)]
  have hthere : (Contents.run {} ops).outgoing.filter (·.message.thread == leapMessage.thread) =
      [emptyText 1 1, emptyText 2 9223372036854775808] := by decide
  have hlate : Contents.sentBefore (emptyText 1 1) (emptyText 2 9223372036854775808) = false := by
    decide
  rw [hthere, List.mergeSort]
  simp [hlate]

end Quotation.Store
