import FirstMatch.Decimal.Shortest
import FirstMatch.Fault
import FirstMatch.RuleKind

/-!
Values: what patterns, lexer arguments and default values may be before they are checked, and what
actions return as tokens. A token may also be a word, a span, or an error that was met; `skip` as the
result of an action leaves the match without a token.
-/

namespace FirstMatch

inductive Value
  | null
  | bool (b : Bool)
  | int (n : Int)
  | real (x : Decimal.Double)
  | text (cs : List Char)
  | bytes (bs : List Nat)
  | list (items : List Value)
  | tuple (items : List Value)
  | mapping (entries : List (Value × Value))
  | kind (k : RuleKind)
  | word (cs : List Char)
  | span (s : Span)
  | cursor (id : Nat)
  | fault (f : Fault)
  | skip
deriving Inhabited

namespace Value

def ofString (s : String) : Value := text s.toList

/-- A mapping with texts as keys. -/
def record (fields : List (String × Value)) : Value :=
  mapping (fields.map fun f => (ofString f.1, f.2))

def point (p : Place) : Value := list [int p.line, int p.col]

/-- Where a cursor stands, as a mapping. -/
def standing (c : Cursor) : Value :=
  record [("char", int c.place.char), ("byte", int c.place.byte), ("line", int c.place.line),
    ("col", int c.place.col), ("exhausted", bool c.exhausted), ("empty", bool c.isEmpty)]

def typeName : Value → String
  | null => "NoneType"
  | bool _ => "bool"
  | int _ => "int"
  | real _ => "float"
  | text _ => "str"
  | bytes _ => "bytes"
  | list _ => "list"
  | tuple _ => "tuple"
  | mapping _ => "dict"
  | kind _ => "RuleKind"
  | word _ => "Word"
  | span _ => "SrcLoc"
  | cursor _ => "SourceCursor"
  | fault f => f.kind
  | skip => "_Skip"

/-- The type of a value as it is displayed. -/
def typeDisplay : Value → String
  | kind _ => "<enum 'RuleKind'>"
  | v => s!"<class '{v.typeName}'>"

def between (opening closing : String) (items : List String) : String :=
  opening ++ ", ".intercalate items ++ closing

mutual

/-- A value as it is displayed in messages. -/
def display : Value → String
  | null => "None"
  | bool b => if b then "True" else "False"
  | int n => toString n
  | real x => x.display
  | text cs => .ofList (Text.quoted cs)
  | bytes bs => .ofList (Text.quotedBytes bs)
  | list items => between "[" "]" (displayAll items)
  | tuple items =>
    match displayAll items with
    | [one] => s!"({one},)"
    | all => between "(" ")" all
  | mapping entries => between "\x7b" "\x7d" (displayEntries entries)
  | kind k => k.display
  | word cs => between "Word(value=" ")" [.ofList (Text.quoted cs)]
  | span s => s.display
  | cursor id => s!"<cursor {id}>"
  | fault f => f.display
  | skip => "SKIP"

def displayAll : List Value → List String
  | [] => []
  | v :: vs => v.display :: displayAll vs

def displayEntries : List (Value × Value) → List String
  | [] => []
  | (k, v) :: es => (k.display ++ ": " ++ v.display) :: displayEntries es

end

/-- A truth value counts as a number in comparisons. -/
def number? : Value → Option Int
  | bool b => some (if b then 1 else 0)
  | int n => some n
  | _ => none

mutual

/-- Whether two values are the same key: numbers are compared by value. -/
def same : Value → Value → Bool
  | null, null => true
  | text a, text b => a == b
  | bytes a, bytes b => a == b
  | kind a, kind b => a == b
  | list a, list b => sameAll a b
  | tuple a, tuple b => sameAll a b
  | real x, real y => x.same y
  | real x, v => (v.number?.map x.isInt).getD false
  | v, real y => (v.number?.map y.isInt).getD false
  | v, w =>
    match v.number?, w.number? with
    | some m, some n => m == n
    | _, _ => false

def sameAll : List Value → List Value → Bool
  | [], [] => true
  | v :: vs, w :: ws => same v w && sameAll vs ws
  | _, _ => false

end

mutual

/-- The type of a part of the value that cannot be a key, if there is one. -/
def keyFlaw? : Value → Option String
  | list _ => some "list"
  | mapping _ => some "dict"
  | tuple items => keyFlawAll? items
  | _ => none

def keyFlawAll? : List Value → Option String
  | [] => none
  | v :: vs =>
    match v.keyFlaw? with
    | some t => some t
    | none => keyFlawAll? vs

end

/-- What a value yields one by one: the characters of a text, the numbers of bytes, the keys of a
mapping. -/
def elements? : Value → Option (List Value)
  | list items => some items
  | tuple items => some items
  | text cs => some (cs.map fun c => text [c])
  | bytes bs => some (bs.map fun b : Nat => int b)
  | mapping entries => some (entries.map (·.1))
  | _ => none

/-- The value of a text key in a mapping. -/
def field? (name : String) : List (Value × Value) → Option Value
  | [] => none
  | (k, v) :: es => if same k (ofString name) then some v else field? name es

end Value

end FirstMatch
