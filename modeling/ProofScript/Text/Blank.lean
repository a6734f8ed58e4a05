/-!
# Blank characters

The characters with the Unicode property `White_Space`, and trimming by them. The property covers
more than the blanks of ASCII: it includes the next-line control character, the no-break space and
the typographic spaces, and it leaves out the zero-width space and the byte order mark.
-/

namespace ProofScript.Text

/-- The ranges of code points with the property `White_Space`, both ends included, in order. -/
def blankRanges : List (Nat × Nat) :=
  [(0x09, 0x0d), (0x20, 0x20), (0x85, 0x85), (0xa0, 0xa0), (0x1680, 0x1680), (0x2000, 0x200a),
    (0x2028, 0x2029), (0x202f, 0x202f), (0x205f, 0x205f), (0x3000, 0x3000)]

/-- Whether `c` has the property `White_Space`. -/
def isBlank (c : Char) : Bool :=
  blankRanges.any fun r => r.1 ≤ c.toNat && c.toNat ≤ r.2

/-- Drops the blanks at the start of a list of characters. -/
def trimStart (cs : List Char) : List Char := cs.dropWhile isBlank

/-- Drops the blanks at the end of a list of characters. -/
def trimEnd (cs : List Char) : List Char := (cs.reverse.dropWhile isBlank).reverse

/-- A text without the blanks at either end. -/
def trim (s : String) : String := String.ofList (trimEnd (trimStart s.toList))

/-- A text without the blanks at its end. -/
def trimRight (s : String) : String := String.ofList (trimEnd s.toList)

/-- Whether every character of a text is blank. -/
def allBlank (s : String) : Bool := s.toList.all isBlank

end ProofScript.Text
