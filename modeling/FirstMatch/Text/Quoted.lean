import FirstMatch.Unicode.Printable

/-!
Quoted text: a text between single quotes, or between double quotes when it holds a single quote and
no double one. The quote in use and the backslash are escaped, and so is what is not printable.
-/

namespace FirstMatch.Text

/-- The quote for a text. -/
def quoteOf (cs : List Char) : Char :=
  if cs.contains '\'' && !cs.contains '"' then '"' else '\''

def hexDigit (n : Nat) : Char :=
  if n < 10 then Char.ofNat (48 + n) else Char.ofNat (87 + n)

/-- The lowest hexadecimal digits of a number, as many as asked for. -/
def hex : Nat → Nat → List Char
  | 0, _ => []
  | width + 1, n => hex width (n / 16) ++ [hexDigit (n % 16)]

/-- A character by its number, in the shortest of three widths. -/
def numbered (n : Nat) : List Char :=
  if n < 0x100 then '\\' :: 'x' :: hex 2 n
  else if n < 0x10000 then '\\' :: 'u' :: hex 4 n
  else '\\' :: 'U' :: hex 8 n

def escaped (quote c : Char) : List Char :=
  if c = quote ∨ c = '\\' then ['\\', c]
  else if c = '\n' then ['\\', 'n']
  else if c = '\r' then ['\\', 'r']
  else if c = '\t' then ['\\', 't']
  else if Unicode.isPrintable c.toNat then [c]
  else numbered c.toNat

def quoted (cs : List Char) : List Char :=
  let quote := quoteOf cs
  quote :: cs.flatMap (escaped quote) ++ [quote]

def quote (s : String) : String :=
  String.ofList (quoted s.toList)

/-- Quoted bytes: what is not printable ASCII is written as its number. -/
def quotedBytes (bs : List Nat) : List Char :=
  let cs := bs.map Char.ofNat
  let quote := quoteOf cs
  let item (c : Char) : List Char :=
    if c.toNat < 127 then escaped quote c else numbered c.toNat
  'b' :: quote :: cs.flatMap item ++ [quote]

end FirstMatch.Text
