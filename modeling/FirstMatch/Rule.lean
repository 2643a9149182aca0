import FirstMatch.EndAnchor
import FirstMatch.Regex.Matching
import FirstMatch.Regex.Source
import FirstMatch.Script

/-!
Rules. A declared rule pairs a pattern with an action. Compiling it reads the signature of the action
and then the pattern: a sentinel, or a regular expression whose end anchors are made to mean the end of
the input. A pattern that matches the empty text is warned about.
-/

namespace FirstMatch

/-- An action: how it is displayed, its parameters, and what it does with its arguments. -/
structure Action where
  display : String
  signature : Signature
  body : Bound → Script Value

/-- What a rule declares as its action: an action, or a value that cannot be called. -/
inductive Handler
  | action (a : Action)
  | value (v : Value)

namespace Handler

def display : Handler → String
  | action a => a.display
  | value v => v.display

/-- The action and the shape of its calls. -/
def callShape : Handler → Except DefinitionFlaw (Action × CallShape)
  | value v => .error (.notCallable v.display)
  | action a => (a.signature.shape a.display).map fun shape => (a, shape)

end Handler

structure Rule where
  pattern : Value
  handler : Handler

/-- What makes a compiled rule match. -/
inductive Trigger
  | eof
  | regex (kind : RuleKind) (source : List Char) (program : Program)

namespace Trigger

def kind : Trigger → RuleKind
  | eof => .eof
  | regex kind _ _ => kind

def source? : Trigger → Option (List Char)
  | eof => none
  | regex _ source _ => some source

/-- One character, whichever it is. -/
def anyCharacter : Program := ⟨.any true, 1⟩

/-- One of the blanks that separate tokens. -/
def oneBlank : Program := ⟨.set false [.single 32, .single 10, .single 13, .single 9] .exact, 1⟩

def wildcard : Trigger := regex .wildcard "(?s).".toList anyCharacter

def whitespace : Trigger := regex .whitespace "[ \\n\\r\\t]".toList oneBlank

/-- The source of the wildcard reads as its program. -/
theorem program_wildcard (dialect : Regex.Dialect) :
    Regex.ofSource dialect "(?s).".toList = .ok anyCharacter := rfl

/-- The source of the whitespace rule reads as its program. -/
theorem program_whitespace (dialect : Regex.Dialect) :
    Regex.ofSource dialect "[ \\n\\r\\t]".toList = .ok oneBlank := by
  have hsource : "[ \\n\\r\\t]".toList = ['[', ' ', '\\', 'n', '\\', 'r', '\\', 't', ']'] := rfl
  rw [hsource]
  rfl

/-- The match at the start of the remaining text. -/
def matchAt (t : Trigger) (exhausted : Bool) (remaining : List Char) : Option Regex.Match :=
  match t with
  | eof => if exhausted then some (.length 0) else none
  | regex _ _ program => program.run remaining

end Trigger

/-- A compiled rule; its priority is its index in the table. -/
structure CompiledRule where
  priority : Int
  trigger : Trigger
  action : Action
  shape : CallShape

namespace CompiledRule

def kind (r : CompiledRule) : RuleKind := r.trigger.kind

/-- The match at a cursor; the remaining text may be given instead of the cursor's. -/
def matchAt (r : CompiledRule) (c : Cursor) (remaining : Option (List Char)) : Option Regex.Match :=
  r.trigger.matchAt c.exhausted (remaining.getD c.ahead)

/-- The positional arguments of a call, as many as the action takes. -/
def positional (r : CompiledRule) (text : List Char) (cursor : Nat) (span : Span) : List Value :=
  [.text text, .cursor cursor, .span span].take r.shape.arity

/-- The script of the action for a match, if its arguments can be bound. -/
def script (r : CompiledRule) (text : List Char) (cursor : Nat) (span : Span) (context : Arguments) :
    Except CallFlaw (Script Value) :=
  (r.action.signature.bind (r.positional text cursor span) (r.shape.select context)).map r.action.body

end CompiledRule

/-- The warning about a pattern that matches the empty text. -/
structure EmptyMatch where
  source : List Char
  rule : Int
deriving DecidableEq

def EmptyMatch.message (w : EmptyMatch) : String :=
  "Pattern " ++ .ofList (Text.quoted w.source) ++ s!" in rule {w.rule} matches the empty string"

/-- Compiling collects warnings, also those before an error. -/
abbrev Build := ExceptT Fault (StateM (List EmptyMatch))

namespace Build

def ofFlaw {α : Type} (e : Except DefinitionFlaw α) : Build α :=
  match e with
  | .ok a => pure a
  | .error flaw => throw (.definition flaw)

def warn (w : EmptyMatch) : Build Unit := modify fun ws => ws ++ [w]

/-- The result and the warnings. -/
def result {α : Type} (b : Build α) : Except Fault α × List EmptyMatch := b.run.run []

end Build

/-- The source of a fragment, which must be a text. -/
def fragmentSource : Value → Except DefinitionFlaw (List Char)
  | .text cs => .ok cs
  | other => .error (.fragmentNoText other.display)

/-- The fragments of a pattern, one after the other. -/
def fragmentsSource (fragments : List Value) : Except DefinitionFlaw (List Char) :=
  if fragments.isEmpty then .error .noFragments
  else (fragments.mapM fragmentSource).map List.flatten

/-- The source of a pattern: a text, or one or more fragments that are concatenated. -/
def patternSource : Value → Except DefinitionFlaw (List Char)
  | .text cs => .ok cs
  | .list items => fragmentsSource items
  | .tuple items => fragmentsSource items
  | other => .error (.unsupported other.display)

/-- Whether a flaw is one of the notation, which is reported with the rule. -/
def Regex.Flaw.isNotation : Regex.Flaw → Bool
  | located .. | unevenLookbehind | templateRepeat _ | tooDeep => true
  | alphabets | hugeRepeat | hugeCode | longNumber _ | wideLookbehind => false

namespace Rule

/-- Compiles the pattern of a rule that is no sentinel. -/
def patternTrigger (dialect : Regex.Dialect) (priority : Int) (pattern : Value) : Build Trigger := do
  let source ← Build.ofFlaw (patternSource pattern)
  let compiled := EndAnchor.replace source
  match Regex.ofSource dialect compiled with
  | .error flaw =>
    if flaw.isNotation then throw (.definition (.badPattern source priority flaw compiled))
    else throw (.pattern flaw)
  | .ok program =>
    match program.run [] with
    | none => pure ()
    | some (.length _) => Build.warn ⟨source, priority⟩
    | some .tangled => throw .tangled
    return .regex .pattern compiled program

def trigger (dialect : Regex.Dialect) (priority : Int) (pattern : Value) : Build Trigger :=
  match pattern with
  | .kind .eof => return .eof
  | .kind .wildcard => return .wildcard
  | .kind .whitespace => return .whitespace
  | other => patternTrigger dialect priority other

/-- Compiles a rule: first the signature of its action, then its pattern. -/
def compile (priority : Int) (r : Rule) (dialect : Regex.Dialect := .bare) : Build CompiledRule := do
  let (action, shape) ← Build.ofFlaw r.handler.callShape
  let trigger ← trigger dialect priority r.pattern
  return ⟨priority, trigger, action, shape⟩

end Rule

end FirstMatch
