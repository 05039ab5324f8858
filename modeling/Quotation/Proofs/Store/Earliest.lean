import Quotation.Proofs.Instant.Order
import Quotation.Proofs.Store.Arrival

/-!
# The first message received

Of several messages that an account sent at one time, the lookup of the time and the account finds
the one that was received first, and of those received at one instant the one that was added first.
It compares texts, and relies on their order for that of the instants, which fails for an instant in
a leap second in the middle of a minute: that one counts as the instant that is read back.

* `IsCopy`, `ReceivedFirst`;
* `Contents.head?_copies_run_eq_some_iff`: the first copy is the one that was received before all
  others;
* `messageAt?_run_eq_earliest`: what the lookup finds;
* `messageAt?_run_ne_earliest`: that it is not the copy received first where such a leap second
  decides.
-/

namespace Quotation.Store

/-- Whether the store holds a message after a run that the account of an address sent at a time;
the telephone numbers of the two addresses do not count. -/
structure IsCopy (ops : List Operation) (timestamp : UInt64) (author : Address) (m : Message) :
    Prop where
  held : Ledger.empty.run ops m.id = some m
  sent : m.timestamp = timestamp
  account : m.author.uuid = author.uuid

/-- Whether a message was received before another, or at the same instant and added before it. -/
def ReceivedFirst (ops : List Operation) (m n : Message) : Prop :=
  m.receivedAt.before n.receivedAt ∨ (m.receivedAt = n.receivedAt ∧ AddedBefore ops m n)

variable {ops : List Operation} {m n : Message}

namespace Contents

variable {timestamp : UInt64} {author : Address}

theorem mem_copies_run_iff :
    m ∈ (run {} ops).copies timestamp author ↔ IsCopy ops timestamp author m := by
  rw [mem_copies, mem_messages_run_iff, sentAt, Address.sameAccount, Bool.and_eq_true, beq_iff_eq,
    beq_iff_eq]
  constructor
  · rintro ⟨hheld, hsent, haccount⟩
    exact ⟨hheld, hsent, haccount⟩
  · rintro ⟨hheld, hsent, haccount⟩
    exact ⟨hheld, hsent, haccount⟩

/-- As far as times of receipt are read back, the database knows which message was received
first. -/
theorem arrivedBefore_iff (hm : m.receivedAt.Dated) (hn : n.receivedAt.Dated) :
    ArrivedBefore ops m n ↔ ReceivedFirst ops m.reread n.reread :=
  or_congr (Instant.stored_lt_stored_iff_reread hm hn)
    (and_congr_left fun _ => Instant.stored_inj_reread hm hn)

theorem head?_copies_run_eq_none_iff :
    ((run {} ops).copies timestamp author).head? = none ↔ ∀ m, ¬IsCopy ops timestamp author m := by
  rw [List.head?_eq_none_iff, List.eq_nil_iff_forall_not_mem]
  exact forall_congr' fun m => not_congr mem_copies_run_iff

/-- The first copy is the one that was received before all others. -/
theorem head?_copies_run_eq_some_iff (hops : ∀ op ∈ ops, op.Dated) :
    ((run {} ops).copies timestamp author).head? = some m ↔ IsCopy ops timestamp author m ∧
      ∀ n, IsCopy ops timestamp author n → n ≠ m → ReceivedFirst ops m.reread n.reread := by
  have hdated : ∀ n, IsCopy ops timestamp author n → n.receivedAt.Dated :=
    fun n hn => dated_run hops n (mem_messages_run_iff.mpr hn.held)
  rw [head?_copies_eq_some_iff, mem_copies_run_iff]
  refine and_congr_right fun hm => forall_congr' fun n => ?_
  rw [mem_copies_run_iff]
  exact forall_congr' fun hn => imp_congr_right fun _ =>
    arrivedBefore_iff (hdated m hm) (hdated n hn)

end Contents

/-- A copy is read as it is if it was received at an instant that is. -/
theorem IsCopy.reread_eq {timestamp : UInt64} {author : Address} (hops : ∀ op ∈ ops, op.Kept)
    (hm : IsCopy ops timestamp author m) : m.reread = m :=
  Message.reread_of_regular (Contents.kept_run hops m (mem_messages_run_iff.mpr hm.held)).2

/-- The lookup of a time and an account succeeds: it finds nothing exactly if there is no copy, and
else the copy that was received first, where a time of receipt in a leap second that does not end a
minute counts, and is found, as one in the second behind; so if there are no such times, it finds
the copy as it is. The texts that it compares have fractions of no, three, six or nine digits, and
their bytes are in the order of the instants. -/
theorem messageAt?_run_eq_earliest (ops : List Operation) (hops : ∀ op ∈ ops, op.Dated)
    (timestamp : UInt64) (author : Address) :
    let found := (Database.fresh.run ops).messageAt? timestamp author
    (∃ o, found = .ok o) ∧
    (found = .ok none ↔ ∀ m, ¬IsCopy ops timestamp author m) ∧
    (∀ m, found = .ok (some m) ↔ ∃ n, n.reread = m ∧ IsCopy ops timestamp author n ∧
      ∀ k, IsCopy ops timestamp author k → k ≠ n → ReceivedFirst ops n.reread k.reread) ∧
    ((∀ op ∈ ops, op.Kept) → ∀ m, found = .ok (some m) ↔ IsCopy ops timestamp author m ∧
      ∀ n, IsCopy ops timestamp author n → n ≠ m → ReceivedFirst ops m n) ∧
    ∀ t u : Instant, t.Dated → u.Dated →
      (∃ front ds, front.length = 19 ∧ ds.length ∈ [0, 3, 6, 9] ∧ (∀ c ∈ ds, c.isDigit = true) ∧
        t.stored.toList = front ++ (if ds = [] then [] else '.' :: ds) ++ "+00:00".toList) ∧
      (t.stored.toByteArray.data.toList < u.stored.toByteArray.data.toList ↔
        t.reread.before u.reread) ∧
      (t.Regular → u.Regular →
        (t.stored.toByteArray.data.toList < u.stored.toByteArray.data.toList ↔ t.before u)) := by
  intro found
  have hfound : found =
      .ok (((Contents.run {} ops).copies timestamp author).head?.map .reread) := by
    simp only [found, Contents.run_fresh]
    exact Contents.messageAt?_eq _ (Contents.dated_run hops) timestamp author
  have hsome : ∀ m, found = .ok (some m) ↔ ∃ n, n.reread = m ∧ IsCopy ops timestamp author n ∧
      ∀ k, IsCopy ops timestamp author k → k ≠ n → ReceivedFirst ops n.reread k.reread := by
    intro m
    rw [hfound, Except.ok.injEq, Option.map_eq_some_iff]
    refine exists_congr fun n => ?_
    rw [Contents.head?_copies_run_eq_some_iff hops, and_comm]
  refine ⟨⟨_, hfound⟩, ?_, hsome, fun hkept m => ?_, fun t u ht hu =>
    ⟨Instant.exists_stored_eq ht, Instant.bytes_lt_bytes_iff_reread ht hu, fun ht' hu' =>
      Instant.bytes_lt_bytes_iff ⟨ht, ht'⟩ ⟨hu, hu'⟩⟩⟩
  · rw [hfound, Except.ok.injEq, Option.map_eq_none_iff]
    exact Contents.head?_copies_run_eq_none_iff
  · rw [hsome]
    constructor
    · rintro ⟨n, rfl, hn, hfirst⟩
      rw [hn.reread_eq hkept] at hfirst ⊢
      refine ⟨hn, fun k hk hne => ?_⟩
      rw [← hk.reread_eq hkept]
      exact hfirst k hk hne
    · rintro ⟨hm, hfirst⟩
      refine ⟨m, hm.reread_eq hkept, hm, fun k hk hne => ?_⟩
      rw [hm.reread_eq hkept, hk.reread_eq hkept]
      exact hfirst k hk hne

/-- Of a copy received in a leap second, two received at the end of the second before it and one
received in the second after it, the first of the two is found, though it was added later, and with
the mark that it got. -/
theorem messageAt?_run_eq_earliest_leapMessage :
    let early : Message := { leapMessage with
      id := ⟨⟨.replicate 16 4⟩⟩, author := ⟨leapMessage.author.uuid, some "+49 30 1"⟩,
      receivedAt := ⟨1483228799, 999999999, by decide⟩ }
    let again : Message := { early with id := ⟨⟨.replicate 16 5⟩⟩, body := none }
    let late : Message := { leapMessage with
      id := ⟨⟨.replicate 16 6⟩⟩, receivedAt := ⟨1483228800, 0, by decide⟩ }
    let ops : List Operation := [.insertMessage leapMessage, .insertMessage early,
      .insertMessage again, .insertMessage late, .markViewOnceComplete early.id]
    (∀ op ∈ ops, op.Dated) ∧ (∀ op ∈ ops, op.Kept) ∧
    (Database.fresh.run ops).messageAt? leapMessage.timestamp leapMessage.author =
      .ok (some { early with isViewOnceComplete := true }) ∧
    early.receivedAt.stored.toByteArray.data.toList <
      leapMessage.receivedAt.stored.toByteArray.data.toList := by
  intro early again late ops
  have hops : ∀ op ∈ ops, op.Dated := by decide
  have hkept : ∀ op ∈ ops, op.Kept := by decide
  obtain ⟨-, -, -, hfound, horder⟩ := messageAt?_run_eq_earliest ops hops leapMessage.timestamp
    leapMessage.author
  have hmessages : (Contents.run {} ops).messages =
      [leapMessage, { early with isViewOnceComplete := true }, again, late] := by rfl
  refine ⟨hops, hkept, (hfound hkept _).mpr ⟨⟨by rfl, rfl, rfl⟩, fun n hn hne => ?_⟩, ?_⟩
  · have hmem := mem_messages_run_iff.mpr hn.held
    rw [hmessages] at hmem
    simp only [List.mem_cons, List.not_mem_nil, or_false] at hmem
    rcases hmem with rfl | rfl | rfl | rfl
    · exact .inl (by decide)
    · exact absurd rfl hne
    · exact .inr ⟨rfl, [.insertMessage leapMessage, .insertMessage early], _, rfl, by rfl, by rfl⟩
    · exact .inl (by decide)
  · exact ((horder early.receivedAt leapMessage.receivedAt (by decide) (by decide)).2.2
      (by decide) (by decide)).mpr (by decide)

/-- A copy received in the leap second behind the fourth second of a minute comes before one
received 200 milliseconds after the fifth second begins, but the latter is found. A database that is
open without tables cannot be asked. -/
theorem messageAt?_run_ne_earliest :
    let later : Message := { leapMessage with
      id := ⟨⟨.replicate 16 7⟩⟩, receivedAt := ⟨1704067205, 200000000, by decide⟩ }
    let ops : List Operation := [.insertMessage later, .insertMessage oddMessage]
    (∀ op ∈ ops, op.Dated) ∧
    IsCopy ops oddMessage.timestamp oddMessage.author oddMessage ∧
    IsCopy ops oddMessage.timestamp oddMessage.author later ∧
    oddMessage.receivedAt.before later.receivedAt ∧
    (Database.fresh.run ops).messageAt? oddMessage.timestamp oddMessage.author =
      .ok (some later) ∧
    Database.setUp .bare = .ok () .bare ∧
    Database.bare.messageAt? oddMessage.timestamp oddMessage.author =
      .error (.statement (.noSuchTable "messages")) := by
  intro later ops
  have hcopies : (Contents.run {} ops).copies oddMessage.timestamp oddMessage.author =
      [later, oddMessage] :=
    List.mergeSort_of_pairwise (by decide)
  refine ⟨by decide, ⟨by rfl, rfl, rfl⟩, ⟨by rfl, rfl, rfl⟩, by decide, ?_,
    Database.setUp_bare, by rfl⟩
  rw [Contents.messageAt?_run_eq_answer, hcopies]
  exact answer_of_kept (by decide)

end Quotation.Store
