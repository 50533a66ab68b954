/-!
# Blank characters

The characters of the Unicode property `White_Space`, and trimming by them.
-/

namespace TrafficWarden.Text

/-- Membership in the Unicode property `White_Space`. -/
def isBlank (c : Char) : Bool :=
  let n := c.toNat
  (9 ≤ n && n ≤ 13) || n == 0x20 || n == 0x85 || n == 0xA0 || n == 0x1680 ||
    (0x2000 ≤ n && n ≤ 0x200A) || n == 0x2028 || n == 0x2029 || n == 0x202F ||
    n == 0x205F || n == 0x3000

def trimLeft (cs : List Char) : List Char := cs.dropWhile isBlank

def trimRight (cs : List Char) : List Char := (cs.reverse.dropWhile isBlank).reverse

def trim (cs : List Char) : List Char := trimRight (trimLeft cs)

/-- The text without the blanks at its two ends. -/
def trimmed (s : String) : String := String.ofList (trim s.toList)

/-- The text without the blanks at its end. -/
def trimmedRight (s : String) : String := String.ofList (trimRight s.toList)

def isBlankText (s : String) : Bool := s.toList.all isBlank

@[simp] theorem trimLeft_nil : trimLeft [] = [] := rfl

@[simp] theorem trim_nil : trim [] = [] := rfl

end TrafficWarden.Text
