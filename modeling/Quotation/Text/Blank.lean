/-!
# Blank characters

The characters that count as white space, and the two questions asked about them: what is left of a
text when blanks are taken off both ends, and whether a text holds anything else.

* `isBlank`: the class, as the Unicode property White_Space has it;
* `trim`: the text without its outer blanks;
* `IsBlankText`: every character is blank.
-/

namespace Quotation.Text

/-- The twenty-five characters of the Unicode property White_Space. The separators U+001C to U+001F,
the zero-width spaces and the byte order mark are not among them. -/
def isBlank (c : Char) : Bool :=
  let n := c.toNat
  (0x0009 ≤ n && n ≤ 0x000D) || n == 0x0020 || n == 0x0085 || n == 0x00A0 || n == 0x1680 ||
    (0x2000 ≤ n && n ≤ 0x200A) || n == 0x2028 || n == 0x2029 || n == 0x202F || n == 0x205F ||
    n == 0x3000

/-- A list of characters without its leading blanks. -/
def trimStart (cs : List Char) : List Char :=
  cs.dropWhile isBlank

/-- A list of characters without its trailing blanks. -/
def trimEnd (cs : List Char) : List Char :=
  (cs.reverse.dropWhile isBlank).reverse

/-- A text without the blanks at its two ends. -/
def trim (s : String) : String :=
  String.ofList (trimEnd (trimStart s.toList))

/-- A text that holds nothing but blanks; the empty text is one. -/
def IsBlankText (s : String) : Prop :=
  ∀ c ∈ s.toList, isBlank c = true

instance (s : String) : Decidable (IsBlankText s) :=
  decidable_of_iff (s.toList.all isBlank = true) List.all_eq_true

end Quotation.Text
