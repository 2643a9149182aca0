import FirstMatch.Span

/-!
A cursor over a text: the characters behind it, nearest first, those ahead of it, and its place. It
moves forward only, by as many characters as are left at most, and it is marked exhausted the first
time that it is found at the end.
-/

namespace FirstMatch

structure Cursor where
  behind : List Char
  ahead : List Char
  place : Place
  exhausted : Bool
deriving DecidableEq, Inhabited

/-- An advance that was refused: how far it was to go, from where, in a text of what length. -/
structure Overrun where
  asked : Int
  origin : Nat
  size : Nat
deriving DecidableEq

def Overrun.message (o : Overrun) : String :=
  s!"Cannot advance {o.asked} characters from {o.origin} in input of length {o.size}"

namespace Cursor

def ofText (text : List Char) : Cursor := ⟨[], text, .start, false⟩

def text (c : Cursor) : List Char := c.behind.reverse ++ c.ahead

def size (c : Cursor) : Nat := c.behind.length + c.ahead.length

def totalBytes (c : Cursor) : Nat := Place.byteCount c.text

def isEmpty (c : Cursor) : Bool := c.ahead.isEmpty

def peek (c : Cursor) : Option Char := c.ahead.head?

/-- The span without characters where the cursor stands. -/
def location (c : Cursor) : Span := c.place.spot

/-- The cursor after the next `n` characters, of which there may be fewer. -/
def move (c : Cursor) (n : Nat) : Cursor :=
  let taken := c.ahead.take n
  { c with
    behind := taken.reverse ++ c.behind
    ahead := c.ahead.drop n
    place := c.place.after taken }

/-- Consumes exactly `n` characters; answers the place of the last of them, or the place of the
cursor when there are none. -/
def advance (c : Cursor) (n : Int) : Except Overrun (Place × Cursor) :=
  if n < 0 ∨ (c.ahead.length : Int) < n then
    .error ⟨n, c.behind.length, c.size⟩
  else
    .ok (c.place.last (c.ahead.take n.toNat), c.move n.toNat)

/-- Marks the cursor as exhausted if nothing is left. -/
def markIfEmpty (c : Cursor) : Cursor :=
  { c with exhausted := c.exhausted || c.isEmpty }

def display (c : Cursor) : String :=
  let flag := if c.exhausted then "True" else "False"
  s!"SourceCursor(line={c.place.line}, col={c.place.col}, byte_index={c.place.byte}, exhausted={flag})"

@[simp] theorem text_ofText (text : List Char) : (ofText text).text = text := rfl

@[simp] theorem text_move (c : Cursor) (n : Nat) : (c.move n).text = c.text := by
  simp [move, text]

end Cursor

end FirstMatch
