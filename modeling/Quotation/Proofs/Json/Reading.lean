import Quotation.Json.Reader
import Quotation.Json.Writer

/-!
# What is written is read

A value whose numbers are natural is read back from either layout of its text.

* `Build.Awaits`: a place among the words where a value may come, and the frames around it;
* `Delimited`: what may stand behind a word without quotes;
* `readFrom_mark`, `readFrom_newline`, `readFrom_writeText`, `readFrom_bare`: reading one word;
* `Plain`, `Plain.readable`, `Plain.read_write`: reading a value.
-/

namespace Quotation.Json

/-- A character ends a word without quotes, or nothing follows. -/
def Delimited (rest : List Char) : Prop :=
  ∀ c ∈ rest.head?, endsBare c = true

theorem delimited_nil : Delimited [] := by
  intro c hc
  cases hc

theorem delimited_cons {c : Char} {rest : List Char} (h : endsBare c = true) :
    Delimited (c :: rest) := by
  rintro _ ⟨⟩
  exact h

/-- A value may come next, in the given frames. -/
def Build.Awaits (b : Build) (frames : List Frame) : Prop :=
  ∀ t, t ≠ .closeArray → b.step t = Build.begin frames t

theorem awaits_value (frames : List Frame) : (Build.value frames).Awaits frames :=
  fun _ _ => rfl

theorem awaits_firstItem (frames : List Frame) :
    (Build.firstItem frames).Awaits (.array [] :: frames) := by
  intro t ht
  simp [Build.step, ht]

/-! ### Words -/

theorem readFrom_cons (s : Scan) (b : Build) (c : Char) (cs : List Char) :
    readFrom s b (c :: cs) = (s.step c).bind fun p =>
      (p.2.foldlM Build.step b).bind fun b => readFrom p.1 b cs := by
  rw [readFrom]
  cases s.step c with
  | none => rfl
  | some p =>
    dsimp only [Option.bind_some]
    cases p.2.foldlM Build.step b <;> rfl

theorem foldlM_step_singleton (b : Build) (t : Token) : [t].foldlM Build.step b = b.step t := by
  simp

/-- A character that finishes no word. -/
theorem readFrom_silent {s t : Scan} {c : Char} (h : s.step c = some (t, [])) (b : Build)
    (cs : List Char) : readFrom s b (c :: cs) = readFrom t b cs := by
  rw [readFrom_cons, h]
  rfl

/-- A character that is a word by itself. -/
theorem readFrom_mark {c : Char} {t : Token} (h : Scan.start c = (.between, [t])) (b : Build)
    (cs : List Char) :
    readFrom .between b (c :: cs) = (b.step t).bind fun b => readFrom .between b cs := by
  rw [readFrom_cons, Scan.step, h, Option.bind_some, foldlM_step_singleton]

theorem readFrom_space {c : Char} (h : isSpace c = true) (b : Build) (cs : List Char) :
    readFrom .between b (c :: cs) = readFrom .between b cs :=
  readFrom_silent (by rw [Scan.step, Scan.start, if_pos h]) b cs

theorem readFrom_newline (layout : Layout) (depth : Nat) (b : Build) (cs : List Char) :
    readFrom .between b (layout.newline depth ++ cs) = readFrom .between b cs := by
  cases layout with
  | compact => rfl
  | indented =>
    rw [Layout.newline, List.cons_append, readFrom_space (by decide)]
    induction 2 * depth with
    | zero => rfl
    | succ n ih => rw [List.replicate_succ, List.cons_append, readFrom_space (by decide), ih]

theorem readFrom_colon (layout : Layout) (b : Build) (cs : List Char) :
    readFrom .between b (layout.colon ++ cs) =
      (b.step .colon).bind fun b => readFrom .between b cs := by
  have hmark : Scan.start ':' = (.between, [.colon]) := by decide
  cases layout with
  | compact => exact readFrom_mark hmark b cs
  | indented =>
    have hblank : isSpace ' ' = true := by decide
    simp only [Layout.colon, List.cons_append, List.nil_append, readFrom_mark hmark,
      readFrom_space hblank]

/-- A control character is read from its four digits. -/
theorem readFrom_control (seen : List Char) (b : Build) {c : Char} (hc : c.toNat < 32)
    (cs : List Char) :
    readFrom (.quoted seen) b (['\\', 'u', '0', '0', Text.hexDigit (c.toNat / 16),
        Text.hexDigit (c.toNat % 16)] ++ cs) = readFrom (.quoted (c :: seen)) b cs := by
  have hzero : Text.hexValue? '0' = some 0 := by decide
  have hhigh := Text.hexValue?_hexDigit (n := c.toNat / 16) (by omega)
  have hlow := Text.hexValue?_hexDigit (n := c.toNat % 16) (by omega)
  -- a control character is no surrogate, so that its unit is the whole of it
  have hunit : Scan.ofUnit seen none c.toNat = some (.quoted (c :: seen)) := by
    have hsurrogate : ¬(0xD800 ≤ c.toNat ∧ c.toNat < 0xDC00) := by omega
    have hsecond : ¬(0xDC00 ≤ c.toNat ∧ c.toNat < 0xE000) := by omega
    simp only [Scan.ofUnit, if_neg hsurrogate, if_neg hsecond, Char.ofNat_toNat]
  simp only [List.cons_append, List.nil_append]
  rw [readFrom_silent (t := .escape seen none) (by simp [Scan.step]),
    readFrom_silent (t := .unit seen none 0 0) (by simp [Scan.step]),
    readFrom_silent (t := .unit seen none 1 0) (by simp [Scan.step, hzero]),
    readFrom_silent (t := .unit seen none 2 0) (by simp [Scan.step, hzero]),
    readFrom_silent (t := .unit seen none 3 (c.toNat / 16)) (by simp [Scan.step, hhigh]),
    readFrom_silent (t := .quoted (c :: seen))
      (by simp [Scan.step, hlow, Nat.div_add_mod, hunit])]

/-- A character inside quotes is read from what it is written as. -/
theorem readFrom_escapeChar (seen : List Char) (b : Build) (c : Char) (cs : List Char) :
    readFrom (.quoted seen) b (escapeChar c ++ cs) = readFrom (.quoted (c :: seen)) b cs := by
  have hescape : ∀ x, escaped? x = some c → x ≠ 'u' →
      readFrom (.quoted seen) b (['\\', x] ++ cs) = readFrom (.quoted (c :: seen)) b cs := by
    intro x hx hu
    simp only [List.cons_append, List.nil_append]
    rw [readFrom_silent (t := .escape seen none) (by simp [Scan.step]),
      readFrom_silent (t := .quoted (c :: seen)) (by simp [Scan.step, hu, hx])]
  unfold escapeChar
  -- seven characters have an escape of their own, then come the other control characters
  split <;> rename_i hquote
  · exact hescape _ (by rw [hquote]; rfl) (by decide)
  split <;> rename_i hslash
  · exact hescape _ (by rw [hslash]; rfl) (by decide)
  split <;> rename_i h
  · exact hescape _ (by rw [h]; rfl) (by decide)
  split <;> rename_i h
  · exact hescape _ (by rw [h]; rfl) (by decide)
  split <;> rename_i h
  · exact hescape _ (by rw [h]; rfl) (by decide)
  split <;> rename_i h
  · exact hescape _ (by rw [h]; rfl) (by decide)
  split <;> rename_i h
  · exact hescape _ (by rw [h]; rfl) (by decide)
  split <;> rename_i hcontrol
  · exact readFrom_control seen b hcontrol cs
  · exact readFrom_silent (by simp [Scan.step, hquote, hslash, hcontrol]) b cs

/-- The rest of a quoted text, up to the closing quote. -/
theorem readFrom_quoted (b : Build) (xs seen cs : List Char) :
    readFrom (.quoted seen) b (xs.flatMap escapeChar ++ '\x22' :: cs) =
      (b.step (.text (String.ofList (seen.reverse ++ xs)))).bind fun b =>
        readFrom .between b cs := by
  induction xs generalizing seen with
  | nil =>
    rw [List.flatMap_nil, List.nil_append, readFrom_cons, Scan.step, if_pos rfl, Option.bind_some,
      foldlM_step_singleton, List.append_nil]
  | cons x xs ih =>
    rw [List.flatMap_cons, List.append_assoc, readFrom_escapeChar, ih]
    simp

theorem readFrom_writeText (b : Build) (s : String) (cs : List Char) :
    readFrom .between b (writeText s ++ cs) =
      (b.step (.text s)).bind fun b => readFrom .between b cs := by
  have hstart : Scan.start '\x22' = (.quoted [], []) := by decide
  have hquoted := readFrom_quoted b s.toList [] cs
  rw [writeText, List.cons_append, List.cons_append, List.append_assoc,
    readFrom_silent (t := .quoted []) (by rw [Scan.step, hstart])]
  simpa using hquoted

/-- The rest of a word without quotes. -/
theorem readFrom_bare_of_seen {t : Token} {rest : List Char} (hrest : Delimited rest) (b : Build)
    {word seen : List Char} (hword : ∀ c ∈ word, endsBare c = false)
    (ht : Token.ofBare? (seen.reverse ++ word) = some t) :
    readFrom (.bare seen) b (word ++ rest) =
      (b.step t).bind fun b => readFrom .between b rest := by
  induction word generalizing seen with
  | nil =>
    rw [List.append_nil] at ht
    cases rest with
    | nil => simp [readFrom, Scan.finish, ht]
    | cons c cs =>
      have hc : endsBare c = true := hrest c rfl
      simp only [List.nil_append, readFrom_cons, Scan.step, if_pos hc, ht, Option.bind_some]
      cases h : b.step t <;> simp [h]
  | cons c word ih =>
    have hc : endsBare c = false := hword c (by simp)
    rw [List.cons_append, readFrom_silent (t := .bare (c :: seen)) (by simp [Scan.step, hc])]
    refine ih (fun d hd => hword d (by simp [hd])) ?_
    simpa using ht

/-- A word without quotes is read if its end can be seen. -/
theorem readFrom_bare {t : Token} {word rest : List Char} (hrest : Delimited rest) (b : Build)
    (hne : word ≠ []) (hword : ∀ c ∈ word, endsBare c = false)
    (ht : Token.ofBare? word = some t) :
    readFrom .between b (word ++ rest) = (b.step t).bind fun b => readFrom .between b rest := by
  cases word with
  | nil => exact absurd rfl hne
  | cons c word =>
    have hc : endsBare c = false := hword c (by simp)
    have hstart : Scan.start c = (.bare [c], []) := by
      simp only [endsBare, Bool.or_eq_false_iff, beq_eq_false_iff_ne] at hc
      obtain ⟨⟨hspace, hquote⟩, hmark⟩ := hc
      simp only [Option.isSome_eq_false_iff, Option.isNone_iff_eq_none] at hmark
      simp [Scan.start, hspace, hquote, hmark]
    rw [List.cons_append, readFrom_silent (t := .bare [c]) (by rw [Scan.step, hstart])]
    exact readFrom_bare_of_seen hrest b (fun d hd => hword d (by simp [hd])) (by simpa using ht)

/-! ### Numbers -/

/-- The written form of a number above zero begins with another digit than zero. -/
theorem head?_toDigits_ne_zero {n : Nat} (hn : 0 < n) : (Nat.toDigits 10 n).head? ≠ some '0' := by
  induction n using Nat.strongRecOn with
  | _ n ih =>
    by_cases hlt : n < 10
    · have hdigit : ∀ k < 10, 0 < k → [Nat.digitChar k].head? ≠ some '0' := by decide
      rw [Nat.toDigits_of_lt_base hlt]
      exact hdigit n hlt hn
    · -- the last digit does not change the first
      have hdiv := ih (n / 10) (by omega) (by omega)
      rw [Nat.toDigits_of_base_le (by decide) (by omega), List.head?_append]
      cases h : (Nat.toDigits 10 (n / 10)).head? with
      | none => exact absurd (List.head?_eq_none_iff.mp h) Nat.toDigits_ne_nil
      | some c =>
        rw [h] at hdiv
        exact hdiv

theorem natural?_toDigits (n : Nat) : natural? (Nat.toDigits 10 n) = some n := by
  have hread := Text.readNat?_toDigits n
  rcases Nat.eq_zero_or_pos n with rfl | hn
  · rfl
  · have hhead := head?_toDigits_ne_zero hn
    unfold natural?
    split
    · rename_i h
      rw [h] at hhead
      exact absurd rfl hhead
    · exact hread

theorem isDigit_toDigits {n : Nat} {c : Char} (h : c ∈ Nat.toDigits 10 n) : c.isDigit = true :=
  Nat.isDigit_of_mem_toDigits (by decide) (by decide) h

/-- A run of digits is a number as it is written. -/
theorem ofSpelling?_of_isDigit {ds : List Char} (hall : ∀ c ∈ ds, c.isDigit = true) :
    Number.ofSpelling? ds = (natural? ds).map .natural := by
  have hwhole : ds.takeWhile Char.isDigit = ds := by
    rw [← List.append_nil ds, List.takeWhile_append_of_pos hall]
    rfl
  have htail : ds.dropWhile Char.isDigit = [] := by
    rw [← List.append_nil ds, List.dropWhile_append_of_pos hall]
    rfl
  unfold Number.ofSpelling?
  split
  · exact absurd (hall '-' (by simp)) (by decide)
  · cases h : natural? ds <;> simp [hwhole, htail, h, isTail]

theorem ofBare?_toDigits (n : Nat) :
    Token.ofBare? (Nat.toDigits 10 n) = some (.number (.natural n)) := by
  have hword : ∀ s : String, ∀ c ∈ s.toList, c.isDigit = false → Nat.toDigits 10 n ≠ s.toList := by
    intro s c hc hdigit h
    rw [← h] at hc
    rw [isDigit_toDigits hc] at hdigit
    cases hdigit
  unfold Token.ofBare?
  rw [if_neg (hword "null" 'n' (by decide) (by decide)),
    if_neg (hword "true" 't' (by decide) (by decide)),
    if_neg (hword "false" 'f' (by decide) (by decide)),
    ofSpelling?_of_isDigit fun c => isDigit_toDigits, natural?_toDigits]
  rfl

theorem endsBare_of_isDigit {c : Char} (h : c.isDigit = true) : endsBare c = false := by
  have hne : ∀ d ∈ [' ', '\n', '\t', '\r', '\x22', '[', ']', '\x7b', '\x7d', ',', ':'],
      c ≠ d := by
    rintro d hd rfl
    have hnone : ∀ d ∈ [' ', '\n', '\t', '\r', '\x22', '[', ']', '\x7b', '\x7d', ',', ':'],
        d.isDigit = false := by simp
    rw [hnone c hd] at h
    cases h
  simp [endsBare, isSpace, Token.ofMark?, hne]

/-! ### Values -/

/-- A value whose numbers are all natural. -/
inductive Plain : Json → Prop
  | null : Plain .null
  | bool (b : Bool) : Plain (.bool b)
  | natural (n : Nat) : Plain (.number (.natural n))
  | text (s : String) : Plain (.text s)
  | array {items : List Json} (h : ∀ j ∈ items, Plain j) : Plain (.array items)
  | object {members : List (String × Json)} (h : ∀ m ∈ members, Plain m.2) :
    Plain (.object members)

/-- Wherever a value may come, its text is read as the value. -/
def Readable (layout : Layout) (j : Json) : Prop :=
  ∀ depth b frames rest, b.Awaits frames → Delimited rest →
    readFrom .between b (write layout depth j ++ rest) =
      readFrom .between (.supply j frames) rest

/-- What stands behind a value inside an array or object ends a word. -/
theorem delimited_newline (layout : Layout) (depth : Nat) {c : Char} (hc : endsBare c = true)
    (cs : List Char) : Delimited (layout.newline depth ++ c :: cs) := by
  cases layout with
  | compact => exact delimited_cons hc
  | indented => exact delimited_cons (by decide)

theorem delimited_writeItems (layout : Layout) (depth : Nat) (js : List Json) {rest : List Char}
    (hrest : Delimited rest) : Delimited (writeItems layout depth js ++ rest) := by
  cases js with
  | nil => exact hrest
  | cons j js => exact delimited_cons (by decide)

theorem delimited_writeMembers (layout : Layout) (depth : Nat) (ms : List (String × Json))
    {rest : List Char} (hrest : Delimited rest) :
    Delimited (writeMembers layout depth ms ++ rest) := by
  cases ms with
  | nil => exact hrest
  | cons m ms => exact delimited_cons (by decide)

/-- Further items are read into the innermost array. -/
theorem readFrom_writeItems {layout : Layout} {js : List Json}
    (hjs : ∀ j ∈ js, Readable layout j) (depth : Nat) (items : List Json) (frames : List Frame)
    {rest : List Char} (hrest : Delimited rest) :
    readFrom .between (.more (.array items) frames) (writeItems layout depth js ++ rest) =
      readFrom .between (.more (.array (js.reverse ++ items)) frames) rest := by
  induction js generalizing items with
  | nil => rfl
  | cons j js ih =>
    have hcomma : Scan.start ',' = (.between, [.comma]) := by decide
    have hj := hjs j (by simp) depth (.value (.array items :: frames)) (.array items :: frames)
      (writeItems layout depth js ++ rest) (awaits_value _) (delimited_writeItems _ _ _ hrest)
    simp only [writeItems, List.cons_append, List.append_assoc]
    rw [readFrom_mark hcomma, Build.step, Option.bind_some, readFrom_newline, hj, Build.supply,
      ih fun k hk => hjs k (by simp [hk])]
    simp

/-- Further members are read into the innermost object. -/
theorem readFrom_writeMembers {layout : Layout} {ms : List (String × Json)}
    (hms : ∀ m ∈ ms, Readable layout m.2) (depth : Nat) (members : List (String × Json))
    (frames : List Frame) {rest : List Char} (hrest : Delimited rest) :
    readFrom .between (.more (.object members) frames) (writeMembers layout depth ms ++ rest) =
      readFrom .between (.more (.object (ms.reverse ++ members)) frames) rest := by
  induction ms generalizing members with
  | nil => rfl
  | cons m ms ih =>
    obtain ⟨name, j⟩ := m
    have hcomma : Scan.start ',' = (.between, [.comma]) := by decide
    have hj := hms (name, j) (by simp) depth (.value (.member members name :: frames))
      (.member members name :: frames) (writeMembers layout depth ms ++ rest) (awaits_value _)
      (delimited_writeMembers _ _ _ hrest)
    simp only [writeMembers, List.cons_append, List.append_assoc]
    rw [readFrom_mark hcomma, Build.step, Option.bind_some, readFrom_newline, readFrom_writeText,
      Build.step, Option.bind_some, readFrom_colon, Build.step, if_pos rfl, Option.bind_some, hj,
      Build.supply, ih fun k hk => hms k (by simp [hk])]
    simp

/-- A word without quotes that is a value by itself. -/
theorem readable_of_bare {layout : Layout} {j : Json} {t : Token} {word : List Char}
    (hwrite : ∀ depth, write layout depth j = word) (hne : word ≠ [])
    (hword : word.any endsBare = false) (ht : Token.ofBare? word = some t)
    (hclose : t ≠ .closeArray) (hbegin : ∀ frames, Build.begin frames t = some (.supply j frames)) :
    Readable layout j := by
  intro depth b frames rest hb hrest
  have hbare : ∀ c ∈ word, endsBare c = false := by simpa using hword
  rw [hwrite, readFrom_bare hrest b hne hbare ht, hb t hclose, hbegin, Option.bind_some]

theorem readable_array {layout : Layout} {items : List Json}
    (h : ∀ j ∈ items, Readable layout j) : Readable layout (.array items) := by
  intro depth b frames rest hb hrest
  have hopen : Scan.start '[' = (.between, [.openArray]) := by decide
  have hclose : Scan.start ']' = (.between, [.closeArray]) := by decide
  cases items with
  | nil =>
    rw [write, List.cons_append, readFrom_mark hopen, hb _ (by decide), Build.begin,
      Option.bind_some, List.cons_append, readFrom_mark hclose, Build.step, if_pos rfl,
      Option.bind_some, List.nil_append]
  | cons j js =>
    have hend : Delimited (layout.newline depth ++ ']' :: rest) :=
      delimited_newline layout depth (by decide) rest
    have hj := h j (by simp) (depth + 1) (.firstItem frames) (.array [] :: frames)
      (writeItems layout (depth + 1) js ++ (layout.newline depth ++ ']' :: rest))
      (awaits_firstItem frames) (delimited_writeItems _ _ _ hend)
    simp only [write, List.cons_append, List.append_assoc, List.nil_append]
    rw [readFrom_mark hopen, hb _ (by decide), Build.begin, Option.bind_some, readFrom_newline, hj,
      Build.supply, readFrom_writeItems (fun k hk => h k (by simp [hk])) _ _ _ hend,
      readFrom_newline, readFrom_mark hclose, Build.step, Option.bind_some]
    simp

theorem readable_object {layout : Layout} {members : List (String × Json)}
    (h : ∀ m ∈ members, Readable layout m.2) : Readable layout (.object members) := by
  intro depth b frames rest hb hrest
  have hopen : Scan.start '\x7b' = (.between, [.openObject]) := by decide
  have hclose : Scan.start '\x7d' = (.between, [.closeObject]) := by decide
  cases members with
  | nil =>
    rw [write, List.cons_append, readFrom_mark hopen, hb _ (by decide), Build.begin,
      Option.bind_some, List.cons_append, readFrom_mark hclose, Build.step, Option.bind_some,
      List.nil_append]
  | cons m ms =>
    obtain ⟨name, j⟩ := m
    have hend : Delimited (layout.newline depth ++ '\x7d' :: rest) :=
      delimited_newline layout depth (by decide) rest
    have hj := h (name, j) (by simp) (depth + 1) (.value (.member [] name :: frames))
      (.member [] name :: frames)
      (writeMembers layout (depth + 1) ms ++ (layout.newline depth ++ '\x7d' :: rest))
      (awaits_value _) (delimited_writeMembers _ _ _ hend)
    simp only [write, List.cons_append, List.append_assoc, List.nil_append]
    rw [readFrom_mark hopen, hb _ (by decide), Build.begin, Option.bind_some, readFrom_newline,
      readFrom_writeText, Build.step, Option.bind_some, readFrom_colon, Build.step, if_pos rfl,
      Option.bind_some, hj, Build.supply,
      readFrom_writeMembers (fun k hk => h k (by simp [hk])) _ _ _ hend, readFrom_newline,
      readFrom_mark hclose, Build.step, Option.bind_some]
    simp

theorem Plain.readable (layout : Layout) {j : Json} (hj : Plain j) : Readable layout j := by
  induction hj with
  | null =>
    exact readable_of_bare (fun _ => by rw [write]) (by decide) (by decide) (by rfl) (by decide)
      fun _ => rfl
  | bool b =>
    cases b
    · exact readable_of_bare (fun _ => by rw [write]) (by decide) (by decide) (by rfl) (by decide)
        fun _ => rfl
    · exact readable_of_bare (fun _ => by rw [write]) (by decide) (by decide) (by rfl) (by decide)
        fun _ => rfl
  | natural n =>
    exact readable_of_bare (fun _ => by rw [write, Number.spelling]) Nat.toDigits_ne_nil
      (by simpa using fun c hc => endsBare_of_isDigit (isDigit_toDigits hc)) (ofBare?_toDigits n)
      (by simp) fun _ => rfl
  | text s =>
    intro depth b frames rest hb hrest
    rw [write, readFrom_writeText, hb _ (by simp), Build.begin, Option.bind_some]
  | array _ ih => exact readable_array ih
  | object _ ih => exact readable_object ih

/-- The text of a value in either layout is read as the value. -/
theorem Plain.read_write {j : Json} (hj : Plain j) (layout : Layout) :
    read (String.ofList (write layout 0 j)) = some j := by
  have h := hj.readable layout 0 (.value []) [] [] (awaits_value []) delimited_nil
  rw [List.append_nil] at h
  rw [read, String.toList_ofList, h]
  rfl

theorem Plain.read_compact {j : Json} (hj : Plain j) : read j.compact = some j :=
  hj.read_write .compact

end Quotation.Json
