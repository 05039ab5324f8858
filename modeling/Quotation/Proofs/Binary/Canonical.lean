import Quotation.Binary.Codec
import Quotation.Proofs.Uuid

/-!
# One written form for each value

A codec is canonical if it reads exactly what it writes: a byte string begins with a value if and
only if it begins with the written form of that value, and what is left over is what stands behind
that form. Every building block keeps this, so it has to be seen for the numbers only.

* `Codec.Canonical`, with a lemma for each codec and building block;
* `Codec.Canonical.ofBytes_eq_ok_iff`, `Codec.Canonical.encode_append_inj`: what follows for a whole
  byte string, and for two written forms of which one begins with the other.
-/

namespace Quotation

namespace Binary

/-- The bytes of a text are read as that text. -/
theorem fromUTF8?_eq_some_iff {bs : List UInt8} {s : String} :
    String.fromUTF8? ⟨bs.toArray⟩ = some s ↔ bs = s.toByteArray.data.toList := by
  unfold String.fromUTF8?
  constructor
  · intro h
    split at h
    · cases h
      rfl
    · cases h
  · rintro rfl
    rw [Array.toArray_toList, dif_pos s.isValidUTF8]
    rfl

/-- A number is determined by its lowest bytes and their number. -/
theorem littleEndian_ofLittleEndian (bs : List UInt8) :
    littleEndian bs.length (ofLittleEndian bs) = bs := by
  induction bs with
  | nil => rfl
  | cons b bs ih =>
    have hb := b.toNat_lt
    have hmod : (b.toNat + 256 * ofLittleEndian bs) % 256 = b.toNat := by omega
    have hdiv : (b.toNat + 256 * ofLittleEndian bs) / 256 = ofLittleEndian bs := by omega
    rw [List.length_cons, ofLittleEndian, littleEndian, hmod, hdiv, ih, UInt8.ofNat_toNat]

theorem ofLittleEndian_lt (bs : List UInt8) : ofLittleEndian bs < 1 <<< (8 * bs.length) := by
  rw [← littleEndian_ofLittleEndian bs, ofLittleEndian_littleEndian, length_littleEndian]
  exact Nat.mod_lt _ (by rw [Nat.one_shiftLeft]; exact Nat.two_pow_pos _)

namespace Front

variable {α β : Type}

@[simp] theorem pure_eq_ok_iff {a b : α} {bs rest : List UInt8} :
    (pure a : Front α) bs = .ok (b, rest) ↔ b = a ∧ bs = rest := by
  change Except.ok (a, bs) = .ok (b, rest) ↔ _
  constructor
  · rintro ⟨⟩
    exact ⟨rfl, rfl⟩
  · rintro ⟨rfl, rfl⟩
    rfl

@[simp] theorem bind_eq_ok_iff {r : Front α} {f : α → Front β} {bs rest : List UInt8} {b : β} :
    (r >>= f) bs = .ok (b, rest) ↔ ∃ a mid, r bs = .ok (a, mid) ∧ f a mid = .ok (b, rest) := by
  change Front.bind r f bs = _ ↔ _
  unfold Front.bind
  cases h : r bs with
  | error e => simp
  | ok p =>
    obtain ⟨a, mid⟩ := p
    constructor
    · intro hf
      exact ⟨a, mid, rfl, hf⟩
    · rintro ⟨a', mid', hr, hf⟩
      cases hr
      exact hf

@[simp] theorem fail_eq_ok_iff {e : DecodeError} {a : α} {bs rest : List UInt8} :
    (fail e : Front α) bs = .ok (a, rest) ↔ False := by
  simp [fail]

theorem next_eq_ok_iff {b : UInt8} {bs rest : List UInt8} :
    next bs = .ok (b, rest) ↔ bs = b :: rest := by
  cases bs with
  | nil => simp [next]
  | cons c cs => simp [next]

/-- A row of values is read if and only if their written forms stand one behind the other. -/
theorem replicate_eq_ok_iff {r : Front α} {fits : α → Prop} {encode : α → List UInt8}
    (hr : ∀ bs a rest, r bs = .ok (a, rest) ↔ fits a ∧ bs = encode a ++ rest) {n : Nat}
    {bs rest : List UInt8} {xs : List α} :
    replicate r n bs = .ok (xs, rest) ↔
      xs.length = n ∧ (∀ a ∈ xs, fits a) ∧ bs = xs.flatMap encode ++ rest := by
  induction n generalizing bs rest xs with
  | zero =>
    rw [replicate, pure_eq_ok_iff, List.length_eq_zero_iff]
    constructor
    · rintro ⟨rfl, rfl⟩
      simp
    · rintro ⟨rfl, -, h⟩
      exact ⟨rfl, by simpa using h⟩
  | succ n ih =>
    simp only [replicate, bind_eq_ok_iff, pure_eq_ok_iff, hr, ih]
    constructor
    · rintro ⟨a, _, ⟨ha, rfl⟩, more, _, ⟨rfl, hmore, rfl⟩, rfl, rfl⟩
      refine ⟨rfl, ?_, by simp⟩
      rintro b (_ | ⟨_, hb⟩)
      · exact ha
      · exact hmore b hb
    · rintro ⟨hlen, hfits, rfl⟩
      cases xs with
      | nil => cases hlen
      | cons a more =>
        refine ⟨a, _, ⟨hfits a (by simp), ?_⟩, more, rest, ⟨?_, ?_, rfl⟩, rfl, rfl⟩
        · simp
        · simpa using hlen
        · exact fun b hb => hfits b (by simp [hb])

/-- The next `n` bytes are read if and only if there are so many. -/
theorem bytes_eq_ok_iff {n : Nat} {bs rest xs : List UInt8} :
    bytes n bs = .ok (xs, rest) ↔ xs.length = n ∧ bs = xs ++ rest := by
  have hnext : ∀ bs b rest, next bs = .ok (b, rest) ↔ True ∧ bs = [b] ++ rest := by
    simp [next_eq_ok_iff]
  rw [bytes, replicate_eq_ok_iff hnext]
  simp

/-- A number is read if and only if its lowest bytes are there. -/
theorem number_eq_ok_iff {n : Nat} {ofNat : Nat → α} {toNat : α → Nat}
    (toNat_ofNat : ∀ k < 1 <<< (8 * n), toNat (ofNat k) = k)
    (ofNat_toNat : ∀ x, ofNat (toNat x) = x) (toNat_lt : ∀ x, toNat x < 1 <<< (8 * n))
    {bs rest : List UInt8} {x : α} :
    (do let xs ← bytes n; return ofNat (ofLittleEndian xs) : Front α) bs = .ok (x, rest) ↔
      bs = littleEndian n (toNat x) ++ rest := by
  simp only [bind_eq_ok_iff, bytes_eq_ok_iff, pure_eq_ok_iff]
  constructor
  · rintro ⟨xs, _, ⟨rfl, rfl⟩, rfl, rfl⟩
    rw [toNat_ofNat _ (ofLittleEndian_lt xs), littleEndian_ofLittleEndian]
  · rintro rfl
    refine ⟨littleEndian n (toNat x), rest, ⟨length_littleEndian _ _, rfl⟩, ?_, rfl⟩
    rw [ofLittleEndian_littleEndian, Nat.mod_eq_of_lt (toNat_lt x), ofNat_toNat]

end Front

namespace Codec

variable {α β : Type}

@[simp] theorem fits_byte (b : UInt8) : byte.Fits b := trivial
@[simp] theorem fits_word32 (x : UInt32) : word32.Fits x := trivial
@[simp] theorem fits_word64 (x : UInt64) : word64.Fits x := trivial
@[simp] theorem fits_uuid (u : Uuid) : uuid.Fits u := trivial
@[simp] theorem fits_octets {n : Nat} (v : Vector UInt8 n) : (octets n).Fits v := trivial

@[simp] theorem fits_list {c : Codec α} {xs : List α} :
    c.list.Fits xs ↔ xs.length < UInt64.size ∧ ∀ a ∈ xs, c.Fits a := Iff.rfl

@[simp] theorem fits_counted {bs : List UInt8} : counted.Fits bs ↔ bs.length < UInt64.size := by
  simp [counted]

@[simp] theorem fits_text {s : String} : text.Fits s ↔ s.utf8ByteSize < UInt64.size := by
  rw [text, fits_counted]
  rfl

@[simp] theorem fits_pair {c : Codec α} {d : Codec β} {p : α × β} :
    (c.pair d).Fits p ↔ c.Fits p.1 ∧ d.Fits p.2 := Iff.rfl

@[simp] theorem fits_imap {c : Codec α} {f : α → β} {g : β → α} {b : β} :
    (c.imap f g).Fits b ↔ c.Fits (g b) := Iff.rfl

@[simp] theorem fits_option {c : Codec α} {o : Option α} :
    c.option.Fits o ↔ ∀ a ∈ o, c.Fits a := Iff.rfl

@[simp] theorem fits_constant {a b : α} : (constant a).Fits b ↔ b = a := Iff.rfl

@[simp] theorem fits_arm {c : Codec α} {f : α → β} {g : β → Option α} {b : β} :
    (c.arm f g).Fits b ↔ ∃ a ∈ g b, c.Fits a := Iff.rfl

@[simp] theorem fits_switch {index : α → UInt32} {arms : UInt32 → Option (Codec α)} {a : α} :
    (switch index arms).Fits a ↔ ∃ c ∈ arms (index a), c.Fits a := Iff.rfl

/-- A byte string begins with a value exactly if it begins with the written form of that value. -/
def Canonical (c : Codec α) : Prop :=
  ∀ bs a rest, c.decode bs = .ok (a, rest) ↔ c.Fits a ∧ bs = c.encode a ++ rest

theorem canonical_byte : byte.Canonical := by
  intro bs b rest
  simp [byte, Front.next_eq_ok_iff]

theorem canonical_word32 : word32.Canonical := by
  intro bs x rest
  simp only [word32, true_and]
  exact Front.number_eq_ok_iff (fun _ h => UInt32.toNat_ofNat_of_lt' h)
    (fun _ => UInt32.ofNat_toNat) fun y => y.toNat_lt

theorem canonical_word64 : word64.Canonical := by
  intro bs x rest
  simp only [word64, true_and]
  exact Front.number_eq_ok_iff (fun _ h => UInt64.toNat_ofNat_of_lt' h)
    (fun _ => UInt64.ofNat_toNat) fun y => y.toNat_lt

theorem Canonical.list {c : Codec α} (hc : c.Canonical) : c.list.Canonical := by
  intro bs xs rest
  simp only [Codec.list, Front.bind_eq_ok_iff, canonical_word64 _ _ _,
    Front.replicate_eq_ok_iff hc]
  constructor
  · rintro ⟨n, _, ⟨-, rfl⟩, hlen, hfits, rfl⟩
    refine ⟨⟨hlen ▸ n.toNat_lt, hfits⟩, ?_⟩
    rw [hlen, UInt64.ofNat_toNat, List.append_assoc]
  · rintro ⟨⟨hlen, hfits⟩, rfl⟩
    refine ⟨UInt64.ofNat xs.length, xs.flatMap c.encode ++ rest, ⟨trivial, ?_⟩, ?_, hfits, rfl⟩
    · rw [List.append_assoc]
    · rw [UInt64.toNat_ofNat_of_lt' hlen]

theorem canonical_counted : counted.Canonical :=
  canonical_byte.list

theorem canonical_text : text.Canonical := by
  intro bs s rest
  simp only [text, Front.bind_eq_ok_iff, canonical_counted _ _ _]
  constructor
  · rintro ⟨xs, mid, ⟨hfits, rfl⟩, h⟩
    -- of all byte strings only the UTF-8 form of a text is taken for it
    cases hs : String.fromUTF8? ⟨xs.toArray⟩ with
    | none => simp [hs] at h
    | some t =>
      simp only [hs, Front.pure_eq_ok_iff] at h
      obtain ⟨rfl, rfl⟩ := h
      obtain rfl := fromUTF8?_eq_some_iff.mp hs
      exact ⟨hfits, rfl⟩
  · rintro ⟨hfits, rfl⟩
    refine ⟨_, rest, ⟨hfits, rfl⟩, ?_⟩
    rw [fromUTF8?_eq_some_iff.mpr rfl]
    simp

theorem canonical_uuid : uuid.Canonical := by
  intro bs u rest
  simp only [uuid, Front.bind_eq_ok_iff, canonical_counted _ _ _, true_and]
  constructor
  · rintro ⟨xs, mid, ⟨-, rfl⟩, h⟩
    cases hu : Uuid.ofList? xs with
    | none => simp [hu] at h
    | some v =>
      simp only [hu, Front.pure_eq_ok_iff] at h
      obtain ⟨rfl, rfl⟩ := h
      rw [Uuid.ofList?_eq_some_iff.mp hu]
  · rintro rfl
    refine ⟨u.octets.toList, rest, ⟨fits_counted.mpr (by simp; decide), rfl⟩, ?_⟩
    rw [Uuid.ofList?_eq_some_iff.mpr rfl]
    simp

theorem canonical_octets (n : Nat) : (octets n).Canonical := by
  intro bs v rest
  simp only [octets, Front.bind_eq_ok_iff, Front.bytes_eq_ok_iff, true_and]
  constructor
  · rintro ⟨xs, mid, ⟨hlen, rfl⟩, h⟩
    rw [dif_pos (by simpa using hlen), Front.pure_eq_ok_iff] at h
    obtain ⟨rfl, rfl⟩ := h
    rfl
  · rintro rfl
    refine ⟨v.toList, rest, ⟨v.length_toList, rfl⟩, ?_⟩
    rw [dif_pos (by simp), Front.pure_eq_ok_iff]
    exact ⟨by simp [Vector.toList], rfl⟩

theorem Canonical.pair {c : Codec α} {d : Codec β} (hc : c.Canonical) (hd : d.Canonical) :
    (c.pair d).Canonical := by
  rintro bs ⟨a, b⟩ rest
  simp only [Codec.pair, Front.bind_eq_ok_iff, Front.pure_eq_ok_iff, hc _ _ _, hd _ _ _]
  constructor
  · rintro ⟨_, _, ⟨ha, rfl⟩, _, _, ⟨hb, rfl⟩, ⟨⟩, rfl⟩
    exact ⟨⟨ha, hb⟩, by rw [List.append_assoc]⟩
  · rintro ⟨⟨ha, hb⟩, rfl⟩
    exact ⟨a, d.encode b ++ rest, ⟨ha, by rw [List.append_assoc]⟩, b, rest, ⟨hb, rfl⟩, rfl, rfl⟩

theorem Canonical.imap {c : Codec α} (hc : c.Canonical) {f : α → β} {g : β → α}
    (hfg : ∀ b, f (g b) = b) (hgf : ∀ a, g (f a) = a) : (c.imap f g).Canonical := by
  intro bs b rest
  simp only [Codec.imap, Front.bind_eq_ok_iff, Front.pure_eq_ok_iff, hc _ _ _]
  constructor
  · rintro ⟨a, _, ⟨ha, rfl⟩, rfl, rfl⟩
    rw [hgf]
    exact ⟨ha, rfl⟩
  · rintro ⟨hb, rfl⟩
    exact ⟨g b, rest, ⟨hb, rfl⟩, (hfg b).symm, rfl⟩

theorem Canonical.option {c : Codec α} (hc : c.Canonical) : c.option.Canonical := by
  intro bs o rest
  simp only [Codec.option, Front.bind_eq_ok_iff, Front.next_eq_ok_iff]
  constructor
  · rintro ⟨mark, mid, rfl, h⟩
    -- 0 stands for none, 1 for some, and any other byte is refused
    split at h
    · obtain ⟨rfl, rfl⟩ := Front.pure_eq_ok_iff.mp h
      subst mark
      simp
    · split at h
      · simp only [Front.bind_eq_ok_iff, Front.pure_eq_ok_iff, hc _ _ _] at h
        obtain ⟨a, _, ⟨ha, rfl⟩, rfl, rfl⟩ := h
        subst mark
        simpa using ha
      · simp at h
  · rintro ⟨hfits, rfl⟩
    cases o with
    | none => exact ⟨0, rest, rfl, by simp⟩
    | some a =>
      refine ⟨1, c.encode a ++ rest, rfl, ?_⟩
      simp only [if_neg (show ¬(1 : UInt8) = 0 by decide), if_true, Front.bind_eq_ok_iff,
        Front.pure_eq_ok_iff, hc _ _ _]
      exact ⟨a, rest, ⟨hfits a rfl, rfl⟩, rfl, rfl⟩

theorem canonical_constant (a : α) : (constant a).Canonical := by
  intro bs b rest
  simp [constant]

theorem Canonical.arm {c : Codec α} (hc : c.Canonical) {f : α → β} {g : β → Option α}
    (hg : ∀ a b, g b = some a ↔ b = f a) : (c.arm f g).Canonical := by
  intro bs b rest
  simp only [Codec.arm, Front.bind_eq_ok_iff, Front.pure_eq_ok_iff, hc _ _ _]
  constructor
  · rintro ⟨a, _, ⟨ha, rfl⟩, rfl, rfl⟩
    have h : g (f a) = some a := (hg a _).mpr rfl
    rw [h]
    exact ⟨⟨a, rfl, ha⟩, rfl⟩
  · rintro ⟨⟨a, h, ha⟩, rfl⟩
    have h : g b = some a := h
    rw [h]
    exact ⟨a, rest, ⟨ha, rfl⟩, (hg a b).mp h, rfl⟩

/-- A choice is canonical if each of its cases is, and holds values of its own number only. -/
theorem canonical_switch {index : α → UInt32} {arms : UInt32 → Option (Codec α)}
    (harms : ∀ i, ∀ c ∈ arms i, c.Canonical ∧ ∀ a, c.Fits a → index a = i) :
    (switch index arms).Canonical := by
  intro bs a rest
  simp only [switch, Front.bind_eq_ok_iff, canonical_word32 _ _ _]
  constructor
  · rintro ⟨i, mid, ⟨-, rfl⟩, h⟩
    cases hi : arms i with
    | none => simp [hi] at h
    | some c =>
      -- the value has the number that was read, so that this number is written for it
      obtain ⟨hc, hindex⟩ := harms i c hi
      simp only [hi] at h
      obtain ⟨ha, rfl⟩ := (hc _ _ _).mp h
      rw [hindex a ha, hi]
      exact ⟨⟨c, rfl, ha⟩, by simp⟩
  · rintro ⟨⟨c, hi, ha⟩, rfl⟩
    have hi : arms (index a) = some c := hi
    rw [hi]
    refine ⟨index a, c.encode a ++ rest, ⟨trivial, by simp⟩, ?_⟩
    rw [hi]
    exact ((harms _ c hi).1 _ _ _).mpr ⟨ha, rfl⟩

namespace Canonical

variable {c : Codec α}

/-- A byte string is read as a value exactly if it is the written form with something behind it. -/
theorem ofBytes_eq_ok_iff (hc : c.Canonical) {bs : List UInt8} {a : α} :
    c.ofBytes bs = .ok a ↔ c.Fits a ∧ ∃ tail, bs = c.encode a ++ tail := by
  unfold ofBytes
  constructor
  · intro h
    cases hd : c.decode bs with
    | error e => simp [hd, Except.map] at h
    | ok p =>
      obtain ⟨b, rest⟩ := p
      simp only [hd, Except.map, Except.ok.injEq] at h
      subst h
      obtain ⟨hfits, hbs⟩ := (hc _ _ _).mp hd
      exact ⟨hfits, rest, hbs⟩
  · rintro ⟨hfits, tail, rfl⟩
    rw [(hc _ _ _).mpr ⟨hfits, rfl⟩]
    rfl

theorem ofBytes_encode (hc : c.Canonical) {a : α} (ha : c.Fits a) :
    c.ofBytes (c.encode a) = .ok a :=
  hc.ofBytes_eq_ok_iff.mpr ⟨ha, [], by simp⟩

/-- Of two written forms none begins with the other, unless they are the same form of the same
value. -/
theorem encode_append_inj (hc : c.Canonical) {a b : α} (ha : c.Fits a) (hb : c.Fits b)
    {tail : List UInt8} (h : c.encode b = c.encode a ++ tail) : b = a ∧ tail = [] := by
  have hread := (hc (c.encode b) b []).mpr ⟨hb, by simp⟩
  rw [(hc (c.encode b) a tail).mpr ⟨ha, h⟩] at hread
  cases hread
  exact ⟨rfl, rfl⟩

end Canonical

end Codec

end Binary

end Quotation
