import FirstMatch.Unicode.Ranges

/-!
Blank characters: white space, the four information separators and the line separators.
-/

namespace FirstMatch.Unicode

def blankRanges : List (Nat × Nat) :=
  [(9, 13), (28, 32), (133, 133), (160, 160), (5760, 5760), (8192, 8202), (8232, 8233),
   (8239, 8239), (8287, 8287), (12288, 12288)]

def isBlank (n : Nat) : Bool :=
  within blankRanges n

/-- The blanks of ASCII without the information separators. -/
def isAsciiBlank (n : Nat) : Bool :=
  (9 ≤ n && n ≤ 13) || n == 32

end FirstMatch.Unicode
