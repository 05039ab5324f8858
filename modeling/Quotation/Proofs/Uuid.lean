import Quotation.Identity
import Quotation.Proofs.Text.Hex

/-!
# Identifiers as texts

An identifier is written in four forms, and a text is read as the identifier that it is a form of
in lower case.

* `Uuid.Form`, `Uuid.Form.write`: the forms, made of the digits of rows of octets;
* `Uuid.ofDigits?_eq_some_iff`, `Uuid.ofHyphenated?_eq_some_iff`, `Uuid.hyphenatedPart?_cases`: the
  steps of reading;
* `Uuid.read_eq_ok_iff`: which identifier a text is read as;
* `Uuid.read_text`, `Uuid.text_inj`: an identifier from its written form, which no other has.
-/

namespace Quotation

namespace Uuid

/-! ### Writing -/

/-- The four forms of an identifier as a text. -/
inductive Form
  /-- All digits in a row. -/
  | bare
  /-- The digits in five groups. -/
  | grouped
  /-- The groups in braces. -/
  | braced
  /-- The groups as a name of the uuid scheme. -/
  | urn
  deriving DecidableEq, Repr

/-- The digits of some octets in a row, in lower case. -/
def group (u : Uuid) (start count : Nat) : String :=
  Text.Hex.encode ((u.octets.toList.drop start).take count)

/-- The digits in groups of four, two, two, two and six octets, with hyphens between. -/
def groups (u : Uuid) : String :=
  u.group 0 4 ++ "-" ++ u.group 4 2 ++ "-" ++ u.group 6 2 ++ "-" ++ u.group 8 2 ++ "-" ++
    u.group 10 6

namespace Form

/-- An identifier in a form, in lower case. -/
def write : Form → Uuid → String
  | bare, u => u.group 0 16
  | grouped, u => u.groups
  | braced, u => "\x7b" ++ u.groups ++ "\x7d"
  | urn, u => "urn:uuid:" ++ u.groups

/-- The number of characters of a form. -/
def size : Form → Nat
  | bare => 32
  | grouped => 36
  | braced => 38
  | urn => 45

end Form

theorem length_digits (u : Uuid) : u.digits.length = 32 := by
  rw [digits, Text.Hex.length_flatMap_digits, Vector.length_toList]

theorem toList_group_all (u : Uuid) : (u.group 0 16).toList = u.digits := by
  have hall : (u.octets.toList.drop 0).take 16 = u.octets.toList :=
    List.take_of_length_le (by simp)
  rw [group, hall, Text.Hex.encode, String.toList_ofList, digits]

theorem length_group {u : Uuid} {start count : Nat} (h : start + count ≤ 16) :
    (u.group start count).toList.length = 2 * count := by
  rw [group, Text.Hex.encode, String.toList_ofList, Text.Hex.length_flatMap_digits,
    List.length_take, List.length_drop, Vector.length_toList]
  omega

/-- The digits of octets in a row are those of a first part and those of the rest. -/
theorem toList_group_add (u : Uuid) (start m n : Nat) :
    (u.group start (m + n)).toList =
      (u.group start m).toList ++ (u.group (start + m) n).toList := by
  simp only [group, Text.Hex.encode, String.toList_ofList, List.take_add, List.flatMap_append,
    List.drop_drop]

/-- The five groups of thirty-two digits. -/
theorem exists_groups {ds : List Char} (h : ds.length = 32) : ∃ a b c d e : List Char,
    ds = a ++ (b ++ (c ++ (d ++ e))) ∧ a.length = 8 ∧ b.length = 4 ∧ c.length = 4 ∧
      d.length = 4 := by
  refine ⟨ds.take 8, (ds.drop 8).take 4, ((ds.drop 8).drop 4).take 4,
    (((ds.drop 8).drop 4).drop 4).take 4, (((ds.drop 8).drop 4).drop 4).drop 4, ?_, ?_⟩
  · simp only [List.take_append_drop]
  · simp [h]

theorem hyphenate_groups {a b c d e : List Char} (ha : a.length = 8) (hb : b.length = 4)
    (hc : c.length = 4) (hd : d.length = 4) :
    hyphenate (a ++ (b ++ (c ++ (d ++ e)))) =
      a ++ '-' :: (b ++ '-' :: (c ++ '-' :: (d ++ '-' :: e))) := by
  simp [hyphenate, List.drop_append, List.drop_of_length_le, ha, hb, hc, hd]

/-- The digits stand between the places of the hyphens. -/
theorem unhyphenate {ds : List Char} (h : ds.length = 32) :
    (hyphenate ds).take 8 ++ ((hyphenate ds).drop 9).take 4 ++ ((hyphenate ds).drop 14).take 4 ++
      ((hyphenate ds).drop 19).take 4 ++ (hyphenate ds).drop 24 = ds := by
  obtain ⟨a, b, c, d, e, rfl, ha, hb, hc, hd⟩ := exists_groups h
  rw [hyphenate_groups ha hb hc hd]
  simp [List.drop_append, List.drop_of_length_le, ha, hb, hc, hd]

theorem toList_groups (u : Uuid) : u.groups.toList = hyphenate u.digits := by
  have hdigits : u.digits = (u.group 0 4).toList ++ ((u.group 4 2).toList ++
      ((u.group 6 2).toList ++ ((u.group 8 2).toList ++ (u.group 10 6).toList))) := by
    rw [← toList_group_all, u.toList_group_add 0 4 12, u.toList_group_add 4 2 10,
      u.toList_group_add 6 2 8, u.toList_group_add 8 2 6]
  rw [hdigits, hyphenate_groups (length_group (by decide)) (length_group (by decide))
    (length_group (by decide)) (length_group (by decide))]
  simp [groups]

theorem text_eq_groups (u : Uuid) : u.text = u.groups := by
  rw [← String.toList_inj, toList_groups, text, String.toList_ofList]

theorem length_groups (u : Uuid) : u.groups.toList.length = 36 := by
  rw [toList_groups]
  simp [hyphenate, u.length_digits]

theorem toList_write_braced (u : Uuid) :
    (Form.braced.write u).toList = '\x7b' :: u.groups.toList ++ ['\x7d'] := by
  rw [Form.write, String.toList_append, String.toList_append]
  rfl

theorem toList_write_urn (u : Uuid) :
    (Form.urn.write u).toList = scheme ++ u.groups.toList := by
  rw [Form.write, String.toList_append]
  rfl

theorem length_write (f : Form) (u : Uuid) : (f.write u).toList.length = f.size := by
  cases f with
  | bare => exact length_group (by decide)
  | grouped => exact u.length_groups
  | braced =>
    rw [toList_write_braced, List.length_append, List.length_cons, u.length_groups]
    rfl
  | urn =>
    rw [toList_write_urn, List.length_append, u.length_groups]
    rfl

theorem mem_groups {u : Uuid} {c : Char} (hc : c ∈ u.groups.toList) : c = '-' ∨ c ∈ u.digits := by
  obtain ⟨d, e, f, g, h, hds, hd, he, hf, hg⟩ := exists_groups u.length_digits
  rw [toList_groups, hds, hyphenate_groups hd he hf hg] at hc
  by_cases hhyphen : c = '-'
  · exact .inl hhyphen
  · right
    rw [hds]
    simpa [hhyphen] using hc

/-- What is written is visible and in lower case. -/
theorem isPlain_of_mem_write {f : Form} {u : Uuid} {c : Char} (hc : c ∈ (f.write u).toList) :
    Text.IsPlain c := by
  have hgroups : c ∈ u.groups.toList → Text.IsPlain c := by
    intro hc
    rcases mem_groups hc with rfl | hc
    · decide
    · exact Text.Hex.isPlain_of_mem_digits hc
  cases f with
  | bare =>
    rw [Form.write, toList_group_all] at hc
    exact Text.Hex.isPlain_of_mem_digits hc
  | grouped => exact hgroups hc
  | braced =>
    simp only [toList_write_braced, List.mem_append, List.mem_cons, List.not_mem_nil,
      or_false] at hc
    rcases hc with (rfl | hc) | rfl
    · decide
    · exact hgroups hc
    · decide
  | urn =>
    have hscheme : scheme.all (fun d => decide (Text.IsPlain d)) = true := by decide
    rw [toList_write_urn, List.mem_append] at hc
    rcases hc with hc | hc
    · exact of_decide_eq_true (List.all_eq_true.mp hscheme c hc)
    · exact hgroups hc

theorem toLower_write (f : Form) (u : Uuid) : (f.write u).toLower = f.write u := by
  rw [← String.toList_inj, Text.toList_toLower]
  refine Eq.trans (List.map_congr_left fun c hc => ?_) (List.map_id _)
  obtain ⟨-, hlower⟩ := isPlain_of_mem_write hc
  exact hlower

/-- What is a written form in lower case is visible. -/
theorem isVisible_of_toLower {s : String} {f : Form} {u : Uuid} (h : s.toLower = f.write u) :
    ∀ c ∈ s.toList, Text.IsVisible c := by
  intro c hc
  have hmem : c.toLower ∈ (f.write u).toList := by
    rw [← h, Text.toList_toLower]
    exact List.mem_map_of_mem hc
  obtain ⟨hvisible, -⟩ := isPlain_of_mem_write hmem
  exact Text.isVisible_of_toLower hvisible

/-- A text that is a written form in lower case has a byte for each character of it. -/
theorem byteCount_of_toLower {s : String} {f : Form} {u : Uuid} (h : s.toLower = f.write u) :
    byteCount s.toList = f.size := by
  have hascii : ∀ c ∈ s.toList, c.toNat < 128 := by
    intro c hc
    obtain ⟨-, hhigh⟩ := isVisible_of_toLower h c hc
    omega
  rw [byteCount, Text.utf8ByteSize_ofList hascii, ← length_write f u, ← h, Text.toList_toLower,
    List.length_map]

/-! ### Reading -/

/-- Sixteen octets make the identifier that has them. -/
theorem ofList?_eq_some_iff {bs : List UInt8} {u : Uuid} :
    ofList? bs = some u ↔ bs = u.octets.toList := by
  unfold ofList?
  constructor
  · intro h
    split at h
    · cases h
      rfl
    · cases h
  · rintro rfl
    simp [Vector.toList]

theorem ofDigits?_eq_some_iff {cs : List Char} {u : Uuid} :
    ofDigits? cs = some u ↔ cs.map Char.toLower = u.digits := by
  simp only [ofDigits?, Option.bind_eq_some_iff, toOption_eq_some_iff, ofList?_eq_some_iff,
    Text.Hex.decodeDigits_eq_ok_iff, exists_eq_right, digits]

theorem map_toLower_hyphenate (ds : List Char) :
    (hyphenate ds).map Char.toLower = hyphenate (ds.map Char.toLower) := by
  have hhyphen : '-'.toLower = '-' := by decide
  simp only [hyphenate, List.map_append, List.map_cons, List.map_take, List.map_drop, hhyphen]

/-- What is a hyphen in lower case is one, and stands behind the same group. -/
theorem exists_group {cs a rest : List Char} (h : cs.map Char.toLower = a ++ '-' :: rest) :
    ∃ b bs, cs = b ++ '-' :: bs ∧ b.map Char.toLower = a ∧ bs.map Char.toLower = rest := by
  obtain ⟨b, tail, rfl, hb, htail⟩ := List.map_eq_append_iff.mp h
  obtain ⟨c, bs, rfl, hc, hbs⟩ := List.map_eq_cons_iff.mp htail
  obtain rfl := Text.eq_of_toLower_eq hc (by decide)
  exact ⟨b, bs, rfl, hb, hbs⟩

/-- What is hyphenated in lower case is hyphenated. -/
theorem exists_hyphenate {cs ds : List Char} (hlength : ds.length = 32)
    (h : cs.map Char.toLower = hyphenate ds) :
    ∃ es, cs = hyphenate es ∧ es.map Char.toLower = ds := by
  obtain ⟨a, b, c, d, e, rfl, ha, hb, hc, hd⟩ := exists_groups hlength
  rw [hyphenate_groups ha hb hc hd] at h
  -- one group after the other, each with the hyphen behind it
  obtain ⟨a, cs₁, rfl, rfl, h₁⟩ := exists_group h
  obtain ⟨b, cs₂, rfl, rfl, h₂⟩ := exists_group h₁
  obtain ⟨c, cs₃, rfl, rfl, h₃⟩ := exists_group h₂
  obtain ⟨d, e, rfl, rfl, rfl⟩ := exists_group h₃
  rw [List.length_map] at ha hb hc hd
  refine ⟨a ++ (b ++ (c ++ (d ++ e))), (hyphenate_groups ha hb hc hd).symm, ?_⟩
  simp only [List.map_append]

theorem ofHyphenated?_eq_some_iff {cs : List Char} {u : Uuid} :
    ofHyphenated? cs = some u ↔ cs.map Char.toLower = u.groups.toList := by
  rw [toList_groups, ofHyphenated?]
  constructor
  · intro h
    split at h
    · rename_i hcs
      rw [← hcs, map_toLower_hyphenate, ofDigits?_eq_some_iff.mp h]
    · cases h
  · intro h
    obtain ⟨es, rfl, hes⟩ := exists_hyphenate u.length_digits h
    have hlength : es.length = 32 := by
      rw [← u.length_digits, ← hes, List.length_map]
    rw [unhyphenate hlength, if_pos rfl, ofDigits?_eq_some_iff, hes]

theorem insideBraces?_eq_some_iff {cs inside : List Char} :
    insideBraces? cs = some inside ↔ cs = '\x7b' :: inside ++ ['\x7d'] := by
  constructor
  · intro h
    unfold insideBraces? at h
    split at h
    · rename_i rest
      split at h
      · rename_i hlast
        obtain ⟨init, rfl⟩ := List.getLast?_eq_some_iff.mp hlast
        cases h
        simp
      · cases h
    · cases h
  · rintro rfl
    simp [insideBraces?]

/-- Braces in lower case are braces. -/
theorem exists_inside {cs inside : List Char}
    (h : cs.map Char.toLower = '\x7b' :: inside ++ ['\x7d']) :
    ∃ part, cs = '\x7b' :: part ++ ['\x7d'] ∧ part.map Char.toLower = inside := by
  obtain ⟨front, back, rfl, hfront, hback⟩ := List.map_eq_append_iff.mp h
  obtain ⟨c, part, rfl, hc, hpart⟩ := List.map_eq_cons_iff.mp hfront
  obtain ⟨d, rfl, hd⟩ := List.map_eq_singleton_iff.mp hback
  obtain rfl := Text.eq_of_toLower_eq hc (by decide)
  obtain rfl := Text.eq_of_toLower_eq hd (by decide)
  exact ⟨part, rfl, hpart⟩

theorem afterScheme?_eq_some_iff {cs rest : List Char} :
    afterScheme? cs = some rest ↔ ∃ mark, cs = mark ++ rest ∧ mark.map Char.toLower = scheme := by
  unfold afterScheme?
  constructor
  · intro h
    split at h
    · rename_i hmark
      cases h
      exact ⟨cs.take 9, (List.take_append_drop 9 cs).symm, hmark⟩
    · cases h
  · rintro ⟨mark, rfl, hmark⟩
    have hlength : mark.length = 9 := by
      rw [← List.length_map (f := Char.toLower), hmark]
      rfl
    rw [List.take_left' hlength, List.drop_left' hlength, if_pos hmark]

/-- The part that has to be hyphenated is a whole text, or lies between braces or behind the mark
of the scheme. -/
theorem hyphenatedPart?_cases {cs part : List Char} (h : hyphenatedPart? cs = some part) :
    cs = part ∨ cs = '\x7b' :: part ++ ['\x7d'] ∨
      ∃ mark, cs = mark ++ part ∧ mark.map Char.toLower = scheme := by
  unfold hyphenatedPart? at h
  dsimp only at h
  split at h
  · exact .inl (Option.some.inj h)
  split at h
  · exact .inr (.inl (insideBraces?_eq_some_iff.mp h))
  split at h
  · exact .inr (.inr (afterScheme?_eq_some_iff.mp h))
  · cases h

theorem read_of_part {s : String} {part : List Char} {u : Uuid}
    (hpart : hyphenatedPart? s.toList = some part)
    (h : part.map Char.toLower = u.groups.toList) : read s = .ok u := by
  simp only [read, hpart, ofHyphenated?_eq_some_iff.mpr h]

/-- Every form is read, in either case. -/
theorem read_of_toLower {s : String} {f : Form} {u : Uuid} (h : s.toLower = f.write u) :
    read s = .ok u := by
  -- the number of bytes decides how the text is read, and that of each form is another
  have hbytes := byteCount_of_toLower h
  rw [← String.toList_inj, Text.toList_toLower] at h
  cases f with
  | bare =>
    rw [Form.write, toList_group_all] at h
    have hnone : hyphenatedPart? s.toList = none := by simp [hyphenatedPart?, hbytes, Form.size]
    simp only [read, hnone, ofDigits?_eq_some_iff.mpr h]
  | grouped =>
    refine read_of_part ?_ h
    simp [hyphenatedPart?, hbytes, Form.size]
  | braced =>
    rw [toList_write_braced] at h
    obtain ⟨part, hs, hpart⟩ := exists_inside h
    refine read_of_part ?_ hpart
    simpa [hyphenatedPart?, hbytes, Form.size] using insideBraces?_eq_some_iff.mpr hs
  | urn =>
    rw [toList_write_urn] at h
    obtain ⟨mark, part, hs, hmark, hpart⟩ := List.map_eq_append_iff.mp h
    refine read_of_part ?_ hpart
    simpa [hyphenatedPart?, hbytes, Form.size] using afterScheme?_eq_some_iff.mpr ⟨mark, hs, hmark⟩

/-- A text that is read as an identifier is one of its forms in lower case. -/
theorem exists_form_of_read {s : String} {u : Uuid} (h : read s = .ok u) :
    ∃ f : Form, s.toLower = f.write u := by
  simp only [← String.toList_inj, Text.toList_toLower]
  unfold read at h
  dsimp only at h
  split at h
  · rename_i part hpart
    have hread : part.map Char.toLower = u.groups.toList := by
      split at h
      · rename_i v hv
        cases h
        exact ofHyphenated?_eq_some_iff.mp hv
      · cases h
    rcases hyphenatedPart?_cases hpart with hs | hs | ⟨mark, hs, hmark⟩
    · refine ⟨.grouped, ?_⟩
      rw [hs, hread, Form.write]
    · refine ⟨.braced, ?_⟩
      rw [toList_write_braced, hs, List.map_append, List.map_cons, hread]
      rfl
    · refine ⟨.urn, ?_⟩
      rw [toList_write_urn, hs, List.map_append, hmark, hread]
  · split at h
    · rename_i v hv
      cases h
      refine ⟨.bare, ?_⟩
      rw [Form.write, toList_group_all, ofDigits?_eq_some_iff.mp hv]
    · cases h

theorem read_eq_ok_iff {s : String} {u : Uuid} :
    read s = .ok u ↔ ∃ f : Form, s.toLower = f.write u :=
  ⟨exists_form_of_read, fun ⟨_, h⟩ => read_of_toLower h⟩

/-- The written form is read as the identifier. -/
theorem read_text (u : Uuid) : read u.text = .ok u := by
  refine read_of_toLower (f := .grouped) ?_
  rw [text_eq_groups]
  exact toLower_write .grouped u

theorem text_inj {u v : Uuid} : u.text = v.text ↔ u = v := by
  constructor
  · intro h
    have hread := read_text u
    rw [h, read_text] at hread
    cases hread
    rfl
  · rintro rfl
    rfl

end Uuid

/-- Names that are made of an identifier are told by the text of it. -/
theorem Uuid.text_inj_of {ι : Type} (make : Uuid → ι) (uuid : ι → Uuid)
    (huuid : ∀ i, make (uuid i) = i) {i j : ι} : (uuid i).text = (uuid j).text ↔ i = j := by
  rw [text_inj]
  constructor
  · intro h
    rw [← huuid i, h, huuid]
  · rintro rfl
    rfl

theorem MessageId.text_inj {i j : MessageId} : i.text = j.text ↔ i = j :=
  Uuid.text_inj_of mk uuid fun _ => rfl

theorem ThreadId.text_inj {i j : ThreadId} : i.text = j.text ↔ i = j :=
  Uuid.text_inj_of mk uuid fun _ => rfl

theorem AttachmentId.text_inj {i j : AttachmentId} : i.text = j.text ↔ i = j :=
  Uuid.text_inj_of mk uuid fun _ => rfl

end Quotation
