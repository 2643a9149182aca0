import FirstMatch.Attempt

/-!
Sessions: the cursors and streams in use, the lexers that actions find by name, and the journal of
what has been consumed. A run changes the session and ends with a result or an error, or does not end
within the turns it was given.
-/

namespace FirstMatch

/-- Who consumed characters: a rule that matched, or an advance that was asked for directly. -/
inductive Consumer
  | rule (kind : RuleKind) (priority : Int)
  | direct
deriving DecidableEq

/-- What was consumed at once from a cursor. -/
structure Entry where
  cursor : Nat
  consumer : Consumer
  text : List Char
  span : Span
deriving DecidableEq

/-- A stream of outcomes: a table applied to a cursor with fixed lexer arguments, until the input ends
or a step fails. -/
structure Stream where
  table : RuleTable
  cursor : Nat
  context : Arguments
  done : Bool
  error : Option Fault

/-- A reader of the tokens of a stream, which has ended once it met the end or an error. -/
structure Feed where
  stream : Nat
  ended : Bool

/-- `nextSerial` numbers the errors of the engine, `cited` lists those that have been reported while
an action ran, latest first, and so does `journal` for what was consumed. -/
structure Session where
  cursors : Array Cursor
  streams : Array Stream
  lexers : List (String × RuleTable)
  engines : List (String × RuleTable)
  cursorNames : List (String × Nat)
  streamNames : List (String × Nat)
  feeds : List (String × Feed)
  calls : List (Nat × Nat)
  nextSerial : Nat
  cited : List Nat
  journal : List Entry

namespace Session

def empty : Session := ⟨#[], #[], [], [], [], [], [], [], 0, [], []⟩

def cursor (s : Session) (i : Nat) : Cursor := (s.cursors[i]?).getD (.ofText [])

def setCursor (s : Session) (i : Nat) (c : Cursor) : Session :=
  { s with cursors := s.cursors.setIfInBounds i c }

def stream? (s : Session) (i : Nat) : Option Stream := s.streams[i]?

def setStream (s : Session) (i : Nat) (t : Stream) : Session :=
  { s with streams := s.streams.setIfInBounds i t }

/-- How often an action has been called. -/
def callCount (s : Session) (action : Nat) : Nat := (s.calls.lookup action).getD 0

def countCall (s : Session) (action : Nat) : Session :=
  { s with calls := (action, s.callCount action + 1) :: s.calls.filter fun e => e.1 != action }

/-- Notes the number of an error unless it has been noted before. -/
def note (s : Session) (n : Nat) : Session :=
  if s.cited.contains n then s else { s with cited := n :: s.cited }

/-- Notes the errors of the engine in an error, the outer before the inner. -/
def cite (s : Session) : Fault → Session
  | .unmatched n .. => s.note n
  | .action n cause .. => (s.note n).cite cause
  | _ => s

end Session

/-- Changes the session and ends with a result or an error; `none` is a run that did not end. -/
abbrev Run := ExceptT Fault (StateT Session Option)

namespace Run

/-- A run that does not end. -/
def unfinished {α : Type} : Run α := fun _ => none

/-- Turns an error of a run into a result. -/
def outcome {α : Type} (x : Run α) : Run (Except Fault α) := fun s =>
  (x s).map fun (r, t) => (.ok r, t)

/-- A new serial number for an error. -/
def newSerial : Run Nat := do
  let s ← get
  set { s with nextSerial := s.nextSerial + 1 }
  return s.nextSerial

/-- A new cursor over a text. -/
def openCursor (text : List Char) : Run Nat := do
  let s ← get
  set { s with cursors := s.cursors.push (.ofText text) }
  return s.cursors.size

def ofCall {α : Type} (e : Except CallFlaw α) : Run α :=
  match e with
  | .ok a => pure a
  | .error flaw => throw (.call flaw)

/-- The entry of a name, or the error of a missing key. -/
def find {α : Type} (table : List (String × α)) (name : String) : Run α :=
  match table.lookup name with
  | some a => pure a
  | none => throw (.raised "KeyError" (some name))

def lexer (name : String) : Run RuleTable := do find (← get).lexers name

/-- The table of an engine or, if there is none of the name, of a lexer. -/
def engine (name : String) : Run RuleTable := do
  match (← get).engines.lookup name with
  | some table => return table
  | none => lexer name

def cursorNamed (name : String) : Run Nat := do find (← get).cursorNames name

def streamNamed (name : String) : Run Nat := do find (← get).streamNames name

/-- Advances a cursor, which is noted in the journal. -/
def advance (cursor : Nat) (n : Int) : Run Place := do
  let s ← get
  let c := s.cursor cursor
  match c.advance n with
  | .error o => throw (.overrun o)
  | .ok (last, d) =>
    let entry : Entry := ⟨cursor, .direct, c.ahead.take n.toNat, .between c.place last d.place⟩
    set { s.setCursor cursor d with journal := entry :: s.journal }
    return last

/-- Marks a cursor as exhausted if nothing is left; answers whether it is. -/
def mark (cursor : Nat) : Run Bool := do
  let s ← get
  let c := (s.cursor cursor).markIfEmpty
  set (s.setCursor cursor c)
  return c.exhausted

/-- Opens a stream on a cursor, without a check of the arguments. -/
def openStream (table : RuleTable) (cursor : Nat) (context : Arguments) : Run Nat := do
  let s ← get
  set { s with streams := s.streams.push ⟨table, cursor, context, false, none⟩ }
  return s.streams.size

end Run

end FirstMatch
