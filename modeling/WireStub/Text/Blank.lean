/-!
# White space

The Unicode property `White_Space`, and texts without white space at their ends.  Names in
references are trimmed by it, and a declaration whose name is all white space has no name.
-/

namespace WireStub

namespace Text

/-- The characters of the Unicode property `White_Space`. -/
def isSpace (c : Char) : Bool :=
  let n := c.toNat
  (9 ≤ n && n ≤ 13) || n == 0x20 || n == 0x85 || n == 0xA0 || n == 0x1680 ||
    (0x2000 ≤ n && n ≤ 0x200A) || n == 0x2028 || n == 0x2029 || n == 0x202F || n == 0x205F ||
    n == 0x3000

/-- A text without the white space at its beginning. -/
def trimStart (cs : List Char) : List Char := cs.dropWhile isSpace

/-- A text without the white space at its ends. -/
def trim (cs : List Char) : List Char :=
  (trimStart (trimStart cs).reverse).reverse

/-- A text that holds nothing but white space. -/
def isBlank (s : String) : Bool := s.toList.all isSpace

theorem trimStart_eq_self {cs : List Char} (h : ∀ c ∈ cs.head?, isSpace c = false) :
    trimStart cs = cs := by
  cases cs with
  | nil => rfl
  | cons c r => simp [trimStart, h c (by simp)]

/-- A text whose ends are not white space is trimmed already. -/
theorem trim_eq_self {cs : List Char} (hfirst : ∀ c ∈ cs.head?, isSpace c = false)
    (hlast : ∀ c ∈ cs.getLast?, isSpace c = false) : trim cs = cs := by
  rw [trim, trimStart_eq_self hfirst, trimStart_eq_self (by simpa using hlast),
    List.reverse_reverse]

end Text

end WireStub
