import FirstMatch.Engine

/-!
Lexers. Calling a lexer checks its arguments and opens a stream on a cursor; the stream gives outcomes
or tokens until the input ends. `depth` bounds the steps within steps and the number of turns, so a run
with a greater depth never has another result, but may have one where this one has none.
-/

namespace FirstMatch

namespace RuleTable

/-- The name of a lexer in messages. -/
def lexerDisplay (t : RuleTable) : String := s!"Lexer({t.display})"

end RuleTable

namespace Run

/-- The cursor over a value, which must be a text. -/
def openSource (v : Value) : Run Nat :=
  match v with
  | .text cs => openCursor cs
  | other => throw (.call (.notText other.typeDisplay))

/-- Opens a stream of a table; its arguments are checked before the source is looked at. -/
def callLexer (t : RuleTable) (source : Run Nat) (context : Arguments) : Run Nat := do
  ofCall (t.checkCall "__call__" (context.map (·.1)))
  openStream t (← source) context

/-- One step of an engine; the arguments are not checked. -/
def engineStep (depth : Nat) (t : RuleTable) (cursor : Nat) (context : Arguments) : Run Outcome :=
  t.stepWith (perform depth) cursor context

/-- One step of a stream. -/
def streamStep (depth : Nat) (i : Nat) : Run Outcome := streamStepWith (perform depth) i

/-- The next token of a stream with its span, or nothing at the end. -/
def next (depth : Nat) (i : Nat) : Run (Option (Value × Span)) := nextWith (perform depth) i depth

/-- All tokens to come after those before, latest first. -/
def pairsFrom (depth : Nat) (i : Nat) : Nat → List (Value × Span) → Run (List (Value × Span))
  | 0, _ => unfinished
  | turns + 1, before => do
    match ← next depth i with
    | some pair => pairsFrom depth i turns (pair :: before)
    | none => return before.reverse

/-- All remaining tokens of a stream with their spans. -/
def pairs (depth : Nat) (i : Nat) : Run (List (Value × Span)) := pairsFrom depth i depth []

/-- All remaining tokens of a stream. -/
def tokens (depth : Nat) (i : Nat) : Run (List Value) := do
  return (← pairs depth i).map (·.1)

/-- Outcomes of a stream up to its end or failure, `most` of them at most. -/
def outcomes (depth : Nat) (i : Nat) : Nat → Run (List Outcome)
  | 0 => return []
  | most + 1 => do
    let o ← streamStep depth i
    match o with
    | .exhausted | .failed _ => return [o]
    | _ => return o :: (← outcomes depth i most)

/-- Calls a lexer and collects its tokens with their spans. -/
def tokenize (depth : Nat) (t : RuleTable) (source : Run Nat) (context : Arguments) :
    Run (List (Value × Span)) := do
  ofCall (refuseOwn "tokenize" (context.map (·.1)))
  pairs depth (← callLexer t source context)

/-- The next token of a feed. A feed that has ended or failed has no more. -/
def feedNext (depth : Nat) (name : String) : Run (Option Value) := do
  let feed ← find (← get).feeds name
  if feed.ended then return none
  else
    let close : Run Unit :=
      modify fun s => { s with feeds := Names.set s.feeds name { feed with ended := true } }
    match ← (next depth feed.stream).outcome with
    | .ok (some pair) => return some pair.1
    | .ok none => close; return none
    | .error f => close; throw f

def nameLexer (name : String) (t : RuleTable) : Run Unit :=
  modify fun s => { s with lexers := Names.set s.lexers name t }

def nameEngine (name : String) (t : RuleTable) : Run Unit :=
  modify fun s => { s with engines := Names.set s.engines name t }

def nameCursor (name : String) (cursor : Nat) : Run Unit :=
  modify fun s => { s with cursorNames := Names.set s.cursorNames name cursor }

/-- Names a stream, and its cursor likewise. -/
def nameStream (name : String) (i : Nat) : Run Unit := do
  let t ← stream i
  modify fun s => { s with streamNames := Names.set s.streamNames name i }
  nameCursor name t.cursor

/-- Makes a feed of the tokens of a stream; nothing is consumed yet. -/
def nameFeed (name : String) (i : Nat) : Run Unit :=
  modify fun s => { s with feeds := Names.set s.feeds name ⟨i, false⟩ }

end Run

end FirstMatch
