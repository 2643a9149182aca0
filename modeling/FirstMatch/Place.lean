/-!
A place in a text: how many characters and bytes lie before it, and its line and column. Lines and
columns count from one, and a newline is the last character of its line.
-/

namespace FirstMatch

structure Place where
  char : Nat
  byte : Nat
  line : Nat
  col : Nat
deriving DecidableEq, Inhabited

namespace Place

/-- The place before the first character of a text. -/
def start : Place := ⟨0, 0, 1, 1⟩

/-- The place after one more character. -/
def next (p : Place) (c : Char) : Place :=
  if c = '\n' then ⟨p.char + 1, p.byte + c.utf8Size, p.line + 1, 1⟩
  else ⟨p.char + 1, p.byte + c.utf8Size, p.line, p.col + 1⟩

/-- The number of bytes of a text in UTF-8. -/
def byteCount : List Char → Nat
  | [] => 0
  | c :: cs => c.utf8Size + byteCount cs

/-- The place after all the given characters. -/
def after (p : Place) (cs : List Char) : Place :=
  cs.foldl next p

/-- The place of the last of the given characters; with none, the place itself. -/
def last (p : Place) : List Char → Place
  | [] => p
  | [_] => p
  | c :: d :: cs => (p.next c).last (d :: cs)

@[simp] theorem after_nil (p : Place) : p.after [] = p := rfl

@[simp] theorem after_cons (p : Place) (c : Char) (cs : List Char) :
    p.after (c :: cs) = (p.next c).after cs := rfl

theorem after_append (p : Place) (cs ds : List Char) : p.after (cs ++ ds) = (p.after cs).after ds := by
  simp [after, List.foldl_append]

theorem char_next (p : Place) (c : Char) : (p.next c).char = p.char + 1 := by
  unfold next
  split <;> rfl

theorem byte_next (p : Place) (c : Char) : (p.next c).byte = p.byte + c.utf8Size := by
  unfold next
  split <;> rfl

theorem char_after (p : Place) (cs : List Char) : (p.after cs).char = p.char + cs.length := by
  induction cs generalizing p with
  | nil => rfl
  | cons c cs ih => simp [ih, char_next]; omega

theorem byte_after (p : Place) (cs : List Char) : (p.after cs).byte = p.byte + byteCount cs := by
  induction cs generalizing p with
  | nil => rfl
  | cons c cs ih => simp [ih, byte_next, byteCount]; omega

theorem last_append_singleton (p : Place) (cs : List Char) (c : Char) :
    p.last (cs ++ [c]) = p.after cs := by
  induction cs generalizing p with
  | nil => rfl
  | cons d cs ih =>
    cases cs with
    | nil => rfl
    | cons e cs => exact ih (p.next d)

end Place

end FirstMatch
