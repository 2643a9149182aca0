import FirstMatch.Cursor
import FirstMatch.Numeral
import FirstMatch.Regex.Flaw

/-!
What can go wrong: a malformed rule, input that no rule matches, an action that fails, a call with
the wrong arguments, or an error that an action raises itself. Each cause has its class and its
message in one place.
-/

namespace FirstMatch

/-- Why a rule cannot be compiled. Values are given as they are displayed. -/
inductive DefinitionFlaw
  | notCallable (shown : String)
  | takesNoText (shown : String)
  | takesTooMuch (shown : String) (required : Nat)
  | noFragments
  | fragmentNoText (shown : String)
  | unsupported (shown : String)
  | noPair (shown : String)
  | badPattern (source : List Char) (rule : Int) (flaw : Regex.Flaw) (compiled : List Char)
deriving DecidableEq

namespace DefinitionFlaw

def message : DefinitionFlaw → String
  | notCallable shown => s!"Rule action {shown} is not callable"
  | takesNoText shown => s!"Rule action {shown} must accept the matched text as argument"
  | takesTooMuch shown required =>
    s!"Rule action {shown} takes {required} arguments, expected at most (text, cursor, loc)"
  | noFragments => "Rule pattern has no fragments"
  | fragmentNoText shown => s!"Pattern fragment {shown} is not a string"
  | unsupported shown => s!"Unsupported rule pattern {shown}"
  | noPair shown => s!"Expected a (pattern, action) pair, got {shown}"
  | badPattern source rule flaw compiled =>
    "Invalid pattern " ++ .ofList (Text.quoted source) ++ s!" in rule {rule}: " ++
      flaw.message compiled

end DefinitionFlaw

/-- Errors of a call whose arguments do not fit. -/
inductive CallFlaw
  | missingArguments (names : List String)
  | unexpectedArguments (names : List String)
  | missingPositional (names : List String)
  | missingKeywords (names : List String)
  | unexpectedKeyword (name : String)
  | tooManyArguments (taken given : Nat)
  | repeatedArgument (name : String)
  | reservedArgument (method name : String)
  | notText (shown : String)
  | notIterable (typeName : String)
  | notContainer (typeName : String)
  | notKey (typeName : String)
  | notSummable (typeName : String)
  | notWhole (typeName : String)
  | notJoinable (index : Nat) (typeName : String)
deriving DecidableEq

namespace CallFlaw

/-- Names between single quotes, the last one after "and". -/
def listed : List String → String
  | [] => ""
  | [a] => s!"'{a}'"
  | [a, b] => s!"'{a}' and '{b}'"
  | names =>
    let quoted := names.map fun n => s!"'{n}'"
    ", ".intercalate quoted.dropLast ++ ", and " ++ quoted.getLastD ""

def plural (n : Nat) : String := if n = 1 then "argument" else "arguments"

def missing (sort : String) (names : List String) : String :=
  s!"action() missing {names.length} required {sort} {plural names.length}: {listed names}"

def message : CallFlaw → String
  | missingArguments names => "Missing lexer arguments: " ++ ", ".intercalate names
  | unexpectedArguments names => "Unexpected lexer arguments: " ++ ", ".intercalate names
  | missingPositional names => missing "positional" names
  | missingKeywords names => missing "keyword-only" names
  | unexpectedKeyword name => s!"action() got an unexpected keyword argument '{name}'"
  | tooManyArguments taken given =>
    s!"action() takes {taken} positional {plural taken} but {given} were given"
  | repeatedArgument name => s!"action() got multiple values for argument '{name}'"
  | reservedArgument method name =>
    s!"Lexer.{method}() got multiple values for argument '{name}'"
  | notText shown => s!"Expected input text as str, got {shown}"
  | notIterable typeName => s!"'{typeName}' object is not iterable"
  | notContainer typeName => s!"argument of type '{typeName}' is not iterable"
  | notKey typeName => s!"unhashable type: '{typeName}'"
  | notSummable typeName => s!"unsupported operand type(s) for +=: 'int' and '{typeName}'"
  | notWhole typeName => s!"'{typeName}' object cannot be interpreted as an integer"
  | notJoinable index typeName => s!"sequence item {index}: expected str instance, {typeName} found"

end CallFlaw

/-- An error. Errors of the engine carry a serial number, which is their identity: the same error
reported twice has the same number. -/
inductive Fault
  | unmatched (serial : Nat) (character : Option (List Char)) (location : Span)
  | action (serial : Nat) (cause : Fault) (location : Span) (rule : Int) (caused : Bool)
  | definition (flaw : DefinitionFlaw)
  | call (flaw : CallFlaw)
  | overrun (o : Overrun)
  | tangled
  | outOfRange
  | pattern (flaw : Regex.Flaw)
  | numeral (flaw : Numeral.Flaw)
  | raised (kind : String) (message : Option String)
deriving DecidableEq

namespace Fault

/-- The name of the class of an error. -/
def kind : Fault → String
  | unmatched .. => "UnmatchedInputError"
  | action .. => "ActionError"
  | definition _ => "RuleDefinitionError"
  | call _ => "TypeError"
  | overrun _ => "ValueError"
  | tangled => "SystemError"
  | outOfRange => "IndexError"
  | pattern .hugeRepeat => "OverflowError"
  | pattern .hugeCode => "OverflowError"
  | pattern .wideLookbehind => "RuntimeError"
  | pattern _ => "ValueError"
  | numeral _ => "ValueError"
  | raised kind _ => kind

/-- A class with the quoted text that an error of it was made with. -/
def displayed (kind : String) (argument : Option String) : String :=
  kind ++ "(" ++ (argument.map Text.quote).getD "" ++ ")"

/-- What an error was made with: its text, if there is one. -/
def argument : Fault → Option String
  | unmatched _ character location =>
    let shown := match character with
      | some c => String.ofList (Text.quoted c)
      | none => "None"
    some s!"Unexpected character {shown} at {location.text}"
  | action _ cause location rule _ =>
    let shown := displayed cause.kind cause.argument
    some s!"Action of rule {rule} failed at {location.text}: {shown}"
  | definition flaw => some flaw.message
  | call flaw => some flaw.message
  | overrun o => some o.message
  | tangled =>
    some "The span of capturing group is wrong, please report a bug for the re module."
  | outOfRange => some "tuple index out of range"
  | pattern flaw => some (flaw.message [])
  | numeral flaw => some flaw.message
  | raised _ message => message

def display (f : Fault) : String := displayed f.kind f.argument

/-- The message of an error. That of a missing key is the quoted key. -/
def message (f : Fault) : String :=
  match f.argument with
  | none => ""
  | some text => if f.kind = "KeyError" then Text.quote text else text

/-- Whether an error is one that the engine and handlers of errors catch; an interruption is not. -/
def isOrdinary : Fault → Bool
  | raised kind _ =>
    kind ∉ ["KeyboardInterrupt", "SystemExit", "GeneratorExit", "BaseException"]
  | _ => true

/-- The number of an error of the engine. -/
def serial? : Fault → Option Nat
  | unmatched n .. => some n
  | action n .. => some n
  | _ => none

/-- The classes that an error class of this library belongs to, nearest first. -/
def lineage : String → Option (List String)
  | "LexError" => some ("LexError" :: ordinary)
  | "UnmatchedInputError" => some ("UnmatchedInputError" :: "LexError" :: ordinary)
  | "ActionError" => some ("ActionError" :: "LexError" :: ordinary)
  | "RuleDefinitionError" => some ("RuleDefinitionError" :: "LexError" :: "ValueError" :: ordinary)
  | "EmptyMatchWarning" => some ("EmptyMatchWarning" :: "UserWarning" :: "Warning" :: ordinary)
  | _ => none
where
  ordinary : List String := ["Exception", "BaseException", "object"]

end Fault

end FirstMatch
