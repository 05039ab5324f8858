import Quotation.Json.Codec
import Quotation.Proofs.Json.Reading
import Quotation.Proofs.Uuid

/-!
# JSON loses nothing

A JSON codec is faithful if it takes back every value that it presents, and presents it with natural
numbers only and never as null, so that an optional value can be told from none. Every building
block keeps this.

* `Codec.Faithful`, `Fields.Faithful`, `Case.Faithful`, with a lemma for each building block;
* `Codec.Faithful.parse_print`: what is written as a text is read from it.
-/

namespace Quotation.Json

namespace Codec

/-- Every value is taken back from its JSON, which holds natural numbers only and is not null. -/
structure Faithful {α : Type} (c : Codec α) : Prop where
  decode_encode : ∀ a, c.decode (c.encode a) = some a
  plain : ∀ a, Plain (c.encode a)
  ne_null : ∀ a, c.encode a ≠ .null

variable {α β : Type}

/-- The text of a value is read as the value. -/
theorem Faithful.parse_print {c : Codec α} (hc : c.Faithful) (a : α) :
    c.parse (c.print a) = some a := by
  rw [parse, print, (hc.plain a).read_compact, Option.bind_some, hc.decode_encode]

theorem Faithful.encode_inj {c : Codec α} (hc : c.Faithful) {a b : α} :
    c.encode a = c.encode b ↔ a = b := by
  constructor
  · intro h
    have hdecode := hc.decode_encode a
    rw [h, hc.decode_encode] at hdecode
    exact (Option.some.inj hdecode).symm
  · rintro rfl
    rfl

theorem faithful_text : text.Faithful where
  decode_encode _ := rfl
  plain := .text
  ne_null _ := by simp [text]

theorem faithful_below (bound : Nat) : (below bound).Faithful where
  decode_encode n := dif_pos n.isLt
  plain n := .natural n.val
  ne_null _ := by simp [below]

theorem faithful_uuid : uuid.Faithful where
  decode_encode u := by simp [uuid, Uuid.read_text, Except.toOption]
  plain u := .text u.text
  ne_null _ := by simp [uuid]

theorem Faithful.imap {c : Codec α} (hc : c.Faithful) {f : α → β} {g : β → α}
    (hfg : ∀ b, f (g b) = b) : (c.imap f g).Faithful where
  decode_encode b := by simp [Codec.imap, hc.decode_encode, hfg]
  plain b := hc.plain (g b)
  ne_null b := hc.ne_null (g b)

theorem faithful_byte : byte.Faithful :=
  (faithful_below _).imap fun _ => rfl

theorem faithful_word32 : word32.Faithful :=
  (faithful_below _).imap fun _ => rfl

theorem faithful_word64 : word64.Faithful :=
  (faithful_below _).imap fun _ => rfl

/-- An optional value is taken back, since null stands for none only. -/
theorem Faithful.decode_encode_option {c : Codec α} (hc : c.Faithful) (o : Option α) :
    c.option.decode (c.option.encode o) = some o := by
  cases o with
  | none => rfl
  | some a =>
    have hnull := hc.ne_null a
    simp only [Codec.option, Option.elim_some, hc.decode_encode, Option.map_some]

theorem Faithful.encode_option_inj {c : Codec α} (hc : c.Faithful) {o p : Option α} :
    c.option.encode o = c.option.encode p ↔ o = p := by
  constructor
  · intro h
    have hdecode := hc.decode_encode_option o
    rw [h, hc.decode_encode_option] at hdecode
    exact (Option.some.inj hdecode).symm
  · rintro rfl
    rfl

theorem Faithful.plain_option {c : Codec α} (hc : c.Faithful) (o : Option α) :
    Plain (c.option.encode o) := by
  cases o with
  | none => exact .null
  | some a => exact hc.plain a

theorem Faithful.mapM_decode {c : Codec α} (hc : c.Faithful) (xs : List α) :
    (xs.map c.encode).mapM c.decode = some xs := by
  induction xs with
  | nil => rfl
  | cons a xs ih => simp [List.mapM_cons, hc.decode_encode, ih]

theorem Faithful.list {c : Codec α} (hc : c.Faithful) : c.list.Faithful where
  decode_encode xs := hc.mapM_decode xs
  plain xs := by
    refine .array fun j hj => ?_
    obtain ⟨a, -, rfl⟩ := List.mem_map.mp hj
    exact hc.plain a
  ne_null _ := by simp [Codec.list]

theorem faithful_octets (n : Nat) : (octets n).Faithful where
  decode_encode v := by
    simp only [octets, faithful_byte.list.decode_encode]
    simp [Vector.toList]
  plain v := faithful_byte.list.plain v.toList
  ne_null v := faithful_byte.list.ne_null v.toList

end Codec

namespace Fields

variable {α β : Type}

/-- The parts of a record are as many as their names, and are put together again. -/
structure Faithful (f : Fields α) : Prop where
  length_encode : ∀ a, (f.encode a).length = f.names.length
  decode_encode : ∀ a, f.decode ((f.encode a).map some) = some a
  plain : ∀ a, ∀ j ∈ f.encode a, Plain j

theorem faithful_required (name : String) {c : Codec α} (hc : c.Faithful) :
    (required name c).Faithful where
  length_encode _ := rfl
  decode_encode := hc.decode_encode
  plain a := by
    rintro j (_ | ⟨_, ⟨⟩⟩)
    exact hc.plain a

theorem faithful_optional (name : String) {c : Codec α} (hc : c.Faithful) :
    (Fields.optional name c).Faithful where
  length_encode _ := rfl
  decode_encode := hc.decode_encode_option
  plain o := by
    rintro j (_ | ⟨_, ⟨⟩⟩)
    exact hc.plain_option o

theorem Faithful.append {f : Fields α} {g : Fields β} (hf : f.Faithful) (hg : g.Faithful) :
    (f.append g).Faithful where
  length_encode p := by
    simp [Fields.append, hf.length_encode, hg.length_encode]
  decode_encode p := by
    have hlen : ((f.encode p.1).map some).length = f.names.length := by
      rw [List.length_map, hf.length_encode]
    simp [Fields.append, List.take_left' hlen, List.drop_left' hlen, hf.decode_encode,
      hg.decode_encode]
  plain p := by
    intro j hj
    rcases List.mem_append.mp hj with h | h
    · exact hf.plain p.1 j h
    · exact hg.plain p.2 j h

theorem Faithful.imap {f : Fields α} (hf : f.Faithful) {make : α → β} {parts : β → α}
    (hmake : ∀ b, make (parts b) = b) : (f.imap make parts).Faithful where
  length_encode b := hf.length_encode (parts b)
  decode_encode b := by simp [Fields.imap, hf.decode_encode, hmake]
  plain b := hf.plain (parts b)

/-- Each name of a record leads to its part. -/
theorem map_lookup_zip {names : List String} {vs : List Json} (hnodup : names.Nodup)
    (hlen : vs.length = names.length) :
    names.map (fun name => (names.zip vs).lookup name) = vs.map some := by
  induction names generalizing vs with
  | nil =>
    cases vs with
    | nil => rfl
    | cons v vs => cases hlen
  | cons name names ih =>
    cases vs with
    | nil => cases hlen
    | cons v vs =>
      obtain ⟨hnot, hrest⟩ := List.nodup_cons.mp hnodup
      have hlookup : ∀ n ∈ names, ((name, v) :: names.zip vs).lookup n =
          (names.zip vs).lookup n := by
        intro n hn
        have hne : n ≠ name := fun h => hnot (h ▸ hn)
        rw [List.lookup_cons, beq_eq_false_iff_ne.mpr hne]
      rw [List.map_cons, List.map_cons, List.zip_cons_cons, List.map_congr_left hlookup,
        ih hrest (by simpa using hlen), List.lookup_cons_self]

theorem length_filter_zip_le (names : List String) (vs : List Json) (name : String) :
    ((names.zip vs).filter fun m => m.1 == name).length ≤ names.count name := by
  induction names generalizing vs with
  | nil => simp
  | cons n names ih =>
    cases vs with
    | nil => simp
    | cons v vs =>
      have hrest := ih vs
      by_cases h : n = name <;> simp [h, hrest]

/-- No name of a record occurs twice among its members. -/
theorem occursOnce_zip {names : List String} (hnodup : names.Nodup) (vs : List Json)
    (name : String) : occursOnce (names.zip vs) name = true := by
  have hle := length_filter_zip_le names vs name
  have hone := List.nodup_iff_count.mp hnodup name
  simp only [occursOnce, decide_eq_true_eq]
  omega

/-- A record whose names are distinct is faithful if its parts are. -/
theorem Faithful.record {f : Fields α} (hf : f.Faithful) (hnodup : f.names.Nodup) :
    (Codec.record f).Faithful where
  decode_encode a := by
    have hlookup := map_lookup_zip hnodup (hf.length_encode a)
    have honce : f.names.all (occursOnce (f.names.zip (f.encode a))) = true := by
      rw [List.all_eq_true]
      exact fun name _ => occursOnce_zip hnodup _ name
    simp only [Codec.record, members, if_pos honce, hlookup, hf.decode_encode]
  plain a := by
    refine .object fun m hm => ?_
    exact hf.plain a m.2 (List.of_mem_zip hm).2
  ne_null a := by simp [Codec.record]

end Fields

namespace Case

variable {α β : Type}

/-- The values of a case are taken back from their contents. -/
structure Faithful (c : Case α) : Prop where
  ofContent?_content? : ∀ a content, c.content? a = some content → c.ofContent? content = some a
  plain : ∀ a j, c.content? a = some (some j) → Plain j

theorem faithful_plain [DecidableEq α] (name : String) (a : α) : (Case.plain name a).Faithful where
  ofContent?_content? b content h := by
    simp only [Case.plain] at h ⊢
    split at h
    · cases h
      simp [*]
    · cases h
  plain b j h := by
    simp only [Case.plain] at h
    split at h <;> cases h

theorem faithful_holding (name : String) {c : Codec α} (hc : c.Faithful) {f : α → β}
    {g : β → Option α} (hfg : ∀ a b, g b = some a → f a = b) :
    (Case.holding name c f g).Faithful where
  ofContent?_content? b content h := by
    obtain ⟨a, ha, rfl⟩ := Option.map_eq_some_iff.mp h
    simp only [Case.holding, hc.decode_encode, Option.map_some, hfg a b ha]
  plain b j h := by
    obtain ⟨a, -, ha⟩ := Option.map_eq_some_iff.mp h
    cases ha
    exact hc.plain a

/-- A value is presented by a case that has content for it. -/
theorem encode_eq_present {cases : List (Case α)} {a : α}
    (h : ∃ c ∈ cases, (c.content? a).isSome = true) :
    ∃ c ∈ cases, ∃ content, c.content? a = some content ∧
      encode a cases = present c.name content := by
  induction cases with
  | nil => simp at h
  | cons c cases ih =>
    cases hcontent : c.content? a with
    | some content => exact ⟨c, by simp, content, hcontent, by simp [encode, hcontent]⟩
    | none =>
      obtain ⟨d, hd, hsome⟩ := h
      have hmem : d ∈ cases := by
        rcases List.mem_cons.mp hd with rfl | hd
        · simp [hcontent] at hsome
        · exact hd
      obtain ⟨d, hd, content, hsome, hpresent⟩ := ih ⟨d, hmem, hsome⟩
      exact ⟨d, by simp [hd], content, hsome, by simp [encode, hcontent, hpresent]⟩

/-- The name of a case leads to it. -/
theorem decode_name {cases : List (Case α)} (hnodup : (cases.map (·.name)).Nodup) {c : Case α}
    (hc : c ∈ cases) (content : Option Json) :
    decode c.name content cases = c.ofContent? content := by
  induction cases with
  | nil => cases hc
  | cons d cases ih =>
    obtain ⟨hnot, hrest⟩ := List.nodup_cons.mp hnodup
    rcases List.mem_cons.mp hc with rfl | hc
    · rw [decode, if_pos rfl]
    · have hne : d.name ≠ c.name := by
        intro h
        exact hnot (List.mem_map.mpr ⟨c, hc, h.symm⟩)
      rw [decode, if_neg hne, ih hrest hc]

/-- A choice is faithful if its cases are, have different names and leave no value out. -/
theorem faithful_choice {cases : List (Case α)} (hcases : ∀ c ∈ cases, c.Faithful)
    (hnodup : (cases.map (·.name)).Nodup)
    (htotal : ∀ a, ∃ c ∈ cases, (c.content? a).isSome = true) : (Codec.choice cases).Faithful where
  decode_encode a := by
    obtain ⟨c, hc, content, hcontent, hpresent⟩ := encode_eq_present (htotal a)
    have hback := (hcases c hc).ofContent?_content? a content hcontent
    have hname := decode_name hnodup hc content
    simp only [Codec.choice, hpresent]
    cases content with
    | none => simpa [present, hname] using hback
    | some j => simpa [present, hname] using hback
  plain a := by
    obtain ⟨c, hc, content, hcontent, hpresent⟩ := encode_eq_present (htotal a)
    simp only [Codec.choice, hpresent]
    cases content with
    | none => exact .text c.name
    | some j =>
      refine .object ?_
      rintro m (_ | ⟨_, ⟨⟩⟩)
      exact (hcases c hc).plain a j hcontent
  ne_null a := by
    obtain ⟨c, -, content, -, hpresent⟩ := encode_eq_present (htotal a)
    simp only [Codec.choice, hpresent]
    cases content <;> simp [present]

end Case

end Quotation.Json
