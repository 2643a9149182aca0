import FirstMatch.Script
import FirstMatch.Rule

/-!
Recipes: a small language for actions. A recipe says what an action does with its text, its keywords
and its cursor; `Recipe.script` is the script that does it. Loops over the tokens of another lexer take
a given number of turns at most.
-/

namespace FirstMatch

/-- Running another lexer on the cursor and collecting its tokens. `context` is nothing if the
keywords of the action are passed on. Collecting ends at the token `stop` or once there are `most`; if
the tokens end first, that is an error when `unterminated` gives its message. -/
structure SubRun where
  lexer : String
  context : Option Arguments
  stop : Option Value
  most : Option Nat
  spans : Bool
  join : Bool
  unterminated : Option String

inductive Recipe
  | text
  | const (v : Value)
  | word
  | skip
  | tag (label : Value)
  | int (base : Value)
  | size
  | arguments
  | keyword (name : String)
  | callCount
  | raise (kind : String) (message : Option String)
  | ifText (among : List Value) (yes no : Recipe)
  | ifKeyword (name : String) (yes no : Recipe)
  | steps (all : List Recipe)
  | items (all : List Recipe)
  | guarded (body other : Recipe)
  | advance (n : Int)
  | peek
  | remaining
  | mark
  | standing
  | sameCursor (name : String)
  | sub (run : SubRun)
  | balance (lexer : String) (closed : Recipe) (unterminated : String)
  | step (engine : String) (context : Arguments)
  | streamNext (stream : String)
  | tokenize (lexer : String) (context : Option Arguments)
deriving Inhabited

namespace Recipe

open Script (request)

def pairValue (pair : Value × Span) : Value := .list [pair.1, .span pair.2]

/-- The cursor of the action. -/
def cursorOf (b : Bound) : Script Nat :=
  match b.cursor? with
  | some id => return id
  | none => .fail .outOfRange

def look (b : Bound) : Script Cursor := do
  request (.look (← cursorOf b))

def ofNumeral (e : Except Numeral.Flaw Int) : Script Value :=
  match e with
  | .ok n => return .int n
  | .error flaw => .fail (.numeral flaw)

def ofCall {α : Type} (e : Except CallFlaw α) : Script α :=
  match e with
  | .ok a => return a
  | .error flaw => .fail (.call flaw)

def keywordOf (b : Bound) (name : String) : Script Value :=
  match b.keywords.lookup name with
  | some v => return v
  | none => .fail (.raised "KeyError" (some name))

/-- Whether a text occurs somewhere in another one. -/
def occursIn (part : List Char) : List Char → Bool
  | [] => part.isEmpty
  | c :: cs => part.isPrefixOf (c :: cs) || occursIn part cs

/-- Whether a value holds another one: as an element or a key, or as a part of a text. -/
def holds (container v : Value) : Script Bool :=
  match container, v with
  | .text cs, .text part => return occursIn part cs
  | .list vs, _ => return vs.any fun w => w.same v
  | .tuple vs, _ => return vs.any fun w => w.same v
  | .mapping es, _ => return es.any fun e => e.1.same v
  | other, _ => .fail (.call (.notContainer other.typeName))

/-- An argument as a token: a cursor is shown as it stands now. -/
def shown (v : Value) : Script Value :=
  match v with
  | .cursor id => return .standing (← request (.look id))
  | other => return other

def shownAll : List Value → Script (List Value)
  | [] => return []
  | v :: vs => return (← shown v) :: (← shownAll vs)

def shownFields : Arguments → Script (List (String × Value))
  | [] => return []
  | (name, v) :: rest => return (name, ← shown v) :: (← shownFields rest)

/-- Concatenates texts; `index` is the number of the first. -/
def joinFrom (index : Nat) : List Value → Script (List Char)
  | [] => return []
  | .text cs :: vs => return cs ++ (← joinFrom (index + 1) vs)
  | v :: _ => .fail (.call (.notJoinable index v.typeName))

/-- Collects tokens, latest first, until one of the reasons to stop. -/
def collectTurn (run : SubRun) (stream : Nat) (kept : List Value) :
    Script (List Value ⊕ List Value) := do
  match ← request (.next stream) with
  | none =>
    match run.unterminated with
    | some message => .fail (.raised "ValueError" (some message))
    | none => return .inr kept
  | some pair =>
    if run.stop.any fun stop => pair.1.same stop then return .inr kept
    else
      let kept := (if run.spans then pairValue pair else pair.1) :: kept
      if run.most.any fun most => most ≤ kept.length then return .inr kept else return .inl kept

def collect (turns : Nat) (run : SubRun) (b : Bound) : Script Value := do
  let stream ← request (.openStream run.lexer (← cursorOf b) (run.context.getD b.keywords))
  let kept ← Script.iterate (collectTurn run stream) turns []
  if run.join then return .text (← joinFrom 0 kept.reverse) else return .list kept.reverse

/-- Adds tokens up until their sum is zero. -/
def balanceTurn (stream : Nat) (unterminated : String) (depth : Int) : Script (Int ⊕ Unit) := do
  match ← request (.next stream) with
  | none => .fail (.raised "ValueError" (some unterminated))
  | some (token, _) =>
    match token.number? with
    | some n => if depth + n = 0 then return .inr () else return .inl (depth + n)
    | none => .fail (.call (.notSummable token.typeName))

/-- Runs a lexer on a stream until the sum of its tokens and one is zero. -/
def balanced (turns : Nat) (lexer unterminated : String) (b : Bound) : Script Unit := do
  let stream ← request (.openStream lexer (← cursorOf b) [])
  Script.iterate (balanceTurn stream unterminated) turns 1

def pairTurn (stream : Nat) (before : List Value) : Script (List Value ⊕ List Value) := do
  match ← request (.next stream) with
  | some pair => return .inl (pairValue pair :: before)
  | none => return .inr before

/-- All tokens of a lexer on the text of the action, with their spans. -/
def tokenized (turns : Nat) (lexer : String) (context : Option Arguments) (b : Bound) :
    Script Value := do
  let given := context.getD b.keywords
  ofCall (refuseOwn "tokenize" (given.map (·.1)))
  let cursor ← request (.openText b.text)
  let stream ← request (.openStream lexer cursor given)
  let found ← Script.iterate (pairTurn stream) turns []
  return .list found.reverse

def stepped (engine : String) (context : Arguments) (b : Bound) : Script Value := do
  let outcome ← request (.step engine (← cursorOf b) context)
  match outcome with
  | .failed f => request (.cite f)
  | _ => pure ()
  return outcome.record

mutual

/-- The script of a recipe. `calls` is how often its action has been called. -/
def script (turns : Nat) (b : Bound) (calls : Nat) : Recipe → Script Value
  | text => return .text b.text
  | const v => return v
  | word => return .word b.text
  | skip => return .skip
  | tag label => return .list [label, .text b.text]
  | int base =>
    match base.number? with
    | some n => ofNumeral (Numeral.readIn n b.text)
    | none => .fail (.call (.notWhole base.typeName))
  | size => return .int b.text.length
  | arguments => do
    let positional ← shownAll b.positional
    let keywords ← shownFields b.keywords
    return .record [("positional", .list positional), ("kwargs", .record keywords)]
  | keyword name => keywordOf b name
  | callCount => return .int calls
  | raise kind message => .fail (.raised kind message)
  | ifText among yes no => do
    if ← holds (.list among) (.text b.text) then yes.script turns b calls
    else no.script turns b calls
  | ifKeyword name yes no => do
    if ← holds (← keywordOf b name) (.text b.text) then yes.script turns b calls
    else no.script turns b calls
  | steps all => return (← scripts turns b calls all).getLastD .null
  | items all => return .list (← scripts turns b calls all)
  | guarded body other => (body.script turns b calls).orElse (other.script turns b calls)
  | advance n => return .point (← request (.advance (← cursorOf b) n))
  | peek => return ((← look b).peek.map fun c => Value.text [c]).getD .null
  | remaining => return .text (← look b).ahead
  | mark => return .bool (← request (.mark (← cursorOf b)))
  | standing => return .standing (← look b)
  | sameCursor name => do
    let other ← request (.cursorNamed name)
    return .list [.bool ((← cursorOf b) == other), .bool false]
  | sub run => collect turns run b
  | balance lexer closed unterminated => do
    balanced turns lexer unterminated b
    closed.script turns b calls
  | step engine context => stepped engine context b
  | streamNext name => do
    match ← request (.next (← request (.streamNamed name))) with
    | some pair => return pairValue pair
    | none => .fail (.raised "StopIteration" none)
  | tokenize lexer context => tokenized turns lexer context b

def scripts (turns : Nat) (b : Bound) (calls : Nat) : List Recipe → Script (List Value)
  | [] => return []
  | r :: rs => return (← r.script turns b calls) :: (← scripts turns b calls rs)

end

/-- An action that follows a recipe; `id` is the number under which its calls are counted. -/
def action (turns : Nat) (name : String) (id : Nat) (signature : Signature) (r : Recipe) : Action where
  display := s!"<action {name}>"
  signature := signature
  body b := do
    let calls ← request (.countCall id)
    r.script turns b calls

end Recipe

namespace Action

def textOnly : Signature := [⟨.positional, "text", none⟩]

/-- The first parameters of an action that is called with text, cursor and location. -/
def standardSignature (arity : Nat) : Signature :=
  (["text", "cursor", "loc"].take arity).map fun name => ⟨.positional, name, none⟩

/-- Discards the matched text. -/
def skip : Action := ⟨"skip", textOnly, fun _ => return .skip⟩

/-- The matched text itself. -/
def string : Action := ⟨"str", textOnly, fun b => return .text b.text⟩

/-- The number that the matched text spells in base ten. -/
def integer : Action := ⟨"int", textOnly, fun b => Recipe.ofNumeral (Numeral.read 10 b.text)⟩

def word : Action := ⟨"Word", textOnly, fun b => return .word b.text⟩

end Action

end FirstMatch
