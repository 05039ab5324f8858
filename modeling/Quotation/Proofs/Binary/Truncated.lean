import Quotation.Proofs.Binary.Canonical

/-!
# Written forms that are cut off

A reader is steady if more bytes behind those that it was given do not change what it says, unless
it says that the bytes have ended: what it has read stays read, and a fault stays that fault. Every
building block of codecs is steady. Of a steady and canonical codec, each part that is missing from
the end of a written form is noticed as such.

* `Front.Steady`, `Codec.Steady`, with a lemma for each codec and building block;
* `Codec.Canonical.ofBytes_of_cut`: what a written form that is cut off is read as.
-/

namespace Quotation.Binary

namespace Front

variable {α β : Type}

/-- More bytes at the end change neither what is read nor what fault is found, unless the fault is
that the bytes end. -/
structure Steady (r : Front α) : Prop where
  ok : ∀ {bs a rest}, r bs = .ok (a, rest) → ∀ tail, r (bs ++ tail) = .ok (a, rest ++ tail)
  error : ∀ {bs e}, r bs = .error e → e ≠ .endOfInput → ∀ tail, r (bs ++ tail) = .error e

theorem bind_eq_error_iff {r : Front α} {f : α → Front β} {bs : List UInt8} {e : DecodeError} :
    (r >>= f) bs = .error e ↔
      r bs = .error e ∨ ∃ a mid, r bs = .ok (a, mid) ∧ f a mid = .error e := by
  change Front.bind r f bs = _ ↔ _
  unfold Front.bind
  cases r bs with
  | error e' => simp
  | ok p =>
    constructor
    · intro he
      exact .inr ⟨p.1, p.2, rfl, he⟩
    · rintro (he | ⟨a, mid, ⟨⟩, he⟩)
      · cases he
      · exact he

theorem steady_pure (a : α) : (pure a : Front α).Steady where
  ok h tail := by
    obtain ⟨rfl, rfl⟩ := pure_eq_ok_iff.mp h
    rfl
  error h := nomatch h

theorem steady_fail (e : DecodeError) : (fail e : Front α).Steady where
  ok h := nomatch h
  error h _ _ := h

theorem steady_next : next.Steady where
  ok h tail := by
    rw [next_eq_ok_iff.mp h]
    rfl
  error {bs e} h hne := by
    cases bs with
    | nil => exact absurd (Except.error.inj h).symm hne
    | cons b bs => cases h

theorem Steady.bind {r : Front α} {f : α → Front β} (hr : r.Steady) (hf : ∀ a, (f a).Steady) :
    (r >>= f).Steady where
  ok h tail := by
    obtain ⟨a, mid, ha, hb⟩ := bind_eq_ok_iff.mp h
    exact bind_eq_ok_iff.mpr ⟨a, mid ++ tail, hr.ok ha tail, (hf a).ok hb tail⟩
  error h hne tail := by
    rcases bind_eq_error_iff.mp h with he | ⟨a, mid, ha, he⟩
    · exact bind_eq_error_iff.mpr (.inl (hr.error he hne tail))
    · exact bind_eq_error_iff.mpr
        (.inr ⟨a, mid ++ tail, hr.ok ha tail, (hf a).error he hne tail⟩)

theorem Steady.replicate {r : Front α} (hr : r.Steady) (n : Nat) : (replicate r n).Steady := by
  induction n with
  | zero => exact steady_pure []
  | succ n ih => exact hr.bind fun a => ih.bind fun more => steady_pure (a :: more)

theorem steady_bytes (n : Nat) : (bytes n).Steady :=
  steady_next.replicate n

end Front

namespace Codec

variable {α β : Type} {c : Codec α} {d : Codec β}

open Front

/-- A codec of which the reader is steady. -/
def Steady (c : Codec α) : Prop :=
  c.decode.Steady

theorem steady_byte : byte.Steady :=
  steady_next

theorem steady_word32 : word32.Steady :=
  (steady_bytes 4).bind fun _ => steady_pure _

theorem steady_word64 : word64.Steady :=
  (steady_bytes 8).bind fun _ => steady_pure _

theorem Steady.list (hc : c.Steady) : c.list.Steady :=
  steady_word64.bind fun n => hc.replicate n.toNat

theorem steady_counted : counted.Steady :=
  steady_byte.list

/-- Bytes that are no text are all there. -/
theorem steady_text : text.Steady := by
  refine steady_counted.bind fun bs => ?_
  cases String.fromUTF8? ⟨bs.toArray⟩ with
  | some s => exact steady_pure s
  | none => exact steady_fail .badText

theorem steady_uuid : uuid.Steady := by
  refine steady_counted.bind fun bs => ?_
  cases Uuid.ofList? bs with
  | some u => exact steady_pure u
  | none => exact steady_fail (.identifierLength bs.length)

theorem steady_octets (n : Nat) : (octets n).Steady := by
  refine (steady_bytes n).bind fun bs => ?_
  split
  · exact steady_pure _
  · exact steady_fail .endOfInput

theorem Steady.pair (hc : c.Steady) (hd : d.Steady) : (c.pair d).Steady :=
  hc.bind fun a => hd.bind fun b => steady_pure (a, b)

theorem Steady.imap (hc : c.Steady) (f : α → β) (g : β → α) : (c.imap f g).Steady :=
  hc.bind fun a => steady_pure (f a)

theorem Steady.option (hc : c.Steady) : c.option.Steady := by
  refine steady_next.bind fun mark => ?_
  split
  · exact steady_pure none
  · split
    · exact hc.bind fun a => steady_pure (some a)
    · exact steady_fail (.badMark mark)

theorem steady_constant (a : α) : (constant a).Steady :=
  steady_pure a

theorem Steady.arm (hc : c.Steady) (f : α → β) (g : β → Option α) : (c.arm f g).Steady :=
  hc.bind fun a => steady_pure (f a)

theorem steady_switch {index : α → UInt32} {arms : UInt32 → Option (Codec α)}
    (harms : ∀ i, ∀ c ∈ arms i, c.Steady) : (switch index arms).Steady := by
  refine steady_word32.bind fun i => ?_
  cases hi : arms i with
  | some c => exact harms i c hi
  | none => exact steady_fail (.unknownCase i)

/-- Of a written form that is cut off, neither a value is read nor another fault is found: with the
rest of the form behind it, the reader would say the same, but the whole form is read to its end. -/
theorem Canonical.ofBytes_of_cut (hc : c.Canonical) (hs : c.Steady) {a : α} (ha : c.Fits a)
    {p : List UInt8} (hp : p <+: c.encode a) (hne : p ≠ c.encode a) :
    c.ofBytes p = .error .endOfInput := by
  obtain ⟨tail, htail⟩ := hp
  have hwhole : c.decode (p ++ tail) = .ok (a, []) := by
    rw [htail]
    exact (hc _ _ _).mpr ⟨ha, (List.append_nil _).symm⟩
  rw [ofBytes]
  cases hread : c.decode p with
  | ok q =>
    obtain ⟨b, rest⟩ := q
    have hmore := hs.ok hread tail
    rw [hwhole] at hmore
    have hnil : [] = rest ++ tail := congrArg Prod.snd (Except.ok.inj hmore)
    obtain ⟨-, rfl⟩ := List.append_eq_nil_iff.mp hnil.symm
    rw [List.append_nil] at htail
    exact absurd htail hne
  | error e =>
    by_cases he : e = .endOfInput
    · rw [he]
      rfl
    · have hmore := hs.error hread he tail
      rw [hwhole] at hmore
      cases hmore

end Codec

end Quotation.Binary
