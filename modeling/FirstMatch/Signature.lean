import FirstMatch.Names
import FirstMatch.Value

/-!
Signatures of actions. An action is called with the matched text and, if it takes more, with the
cursor and the span of the match; lexer arguments go to its keyword-only parameters. The shape of the
call is read off the signature once, and each call binds its arguments to the parameters.
-/

namespace FirstMatch

inductive ParameterKind
  | positionalOnly
  | positional
  | variadic
  | keywordOnly
  | keywords
deriving DecidableEq

structure Parameter where
  kind : ParameterKind
  name : String
  default : Option Value

abbrev Signature := List Parameter

/-- Lexer arguments: each name once, in the order given. -/
abbrev Arguments := List (String × Value)

/-- The parameters of the methods that call a lexer. No lexer argument can be given under their names. -/
def ownParameters : List String := ["self", "source"]

/-- Refuses the first lexer argument with the name of a parameter of the method itself. -/
def refuseOwn (method : String) (names : List String) : Except CallFlaw Unit :=
  match names.find? fun name => ownParameters.contains name with
  | some name => .error (.reservedArgument method name)
  | none => .ok ()

theorem refuseOwn_eq_ok_iff {method : String} {names : List String} :
    refuseOwn method names = .ok () ↔ ∀ name ∈ names, name ∉ ownParameters := by
  unfold refuseOwn
  cases h : names.find? fun name => ownParameters.contains name with
  | none => simpa using h
  | some name =>
    have hown : name ∈ ownParameters := by simpa using List.find?_some h
    have hmem := List.mem_of_find?_eq_some h
    exact ⟨nofun, fun hall => absurd hown (hall name hmem)⟩

/-- How an action is called: with how many positional arguments, and with which lexer arguments. -/
structure CallShape where
  arity : Nat
  keywords : List String
  required : List String
  anyKeyword : Bool
deriving DecidableEq, Inhabited

/-- The lexer arguments that are passed to an action. -/
def CallShape.select (shape : CallShape) (context : Arguments) : Arguments :=
  if shape.anyKeyword then context else context.filter fun a => shape.keywords.contains a.1

/-- What an action receives: the values of its positional parameters followed by those of the
variadic one, and the values of its keyword-only parameters followed by the other keywords. -/
structure Bound where
  positional : List Value
  keywords : Arguments

namespace Bound

def text (b : Bound) : List Char :=
  match b.positional with
  | .text cs :: _ => cs
  | _ => []

/-- The cursor that the action was given. -/
def cursor? (b : Bound) : Option Nat :=
  match b.positional with
  | _ :: .cursor id :: _ => some id
  | _ => none

end Bound

namespace Signature

def hasKind (s : Signature) (k : ParameterKind) : Bool := s.any fun p => p.kind == k

/-- The parameters that positional arguments fill one by one. -/
def fixed (s : Signature) : List Parameter :=
  s.filter fun p => p.kind == .positionalOnly || p.kind == .positional

def keywordOnly (s : Signature) : List Parameter := s.filter fun p => p.kind == .keywordOnly

/-- The shape of the calls to an action, if it can be called with one to three arguments. -/
def shape (s : Signature) (shown : String) : Except DefinitionFlaw CallShape :=
  let required := s.fixed.filter fun p => p.default.isNone
  let variadic := s.hasKind .variadic
  if s.fixed.isEmpty && !variadic then .error (.takesNoText shown)
  else if 3 < required.length then .error (.takesTooMuch shown required.length)
  else .ok {
    arity := if variadic then 3 else max required.length 1
    keywords := Names.ofList (s.keywordOnly.map (·.name))
    required := Names.ofList ((s.keywordOnly.filter fun p => p.default.isNone).map (·.name))
    anyKeyword := s.hasKind .keywords }

/-- A parameter with the value that it has been given. -/
structure Slot where
  parameter : Parameter
  value : Option Value

/-- A call while its keywords are being bound. -/
structure Filling where
  fixed : List Slot
  keywordOnly : List Slot
  others : Arguments

/-- Pairs parameters with the positional arguments given. -/
def fill : List Parameter → List Value → List Slot
  | [], _ => []
  | p :: ps, [] => ⟨p, none⟩ :: fill ps []
  | p :: ps, v :: vs => ⟨p, some v⟩ :: fill ps vs

/-- Gives a value to the parameter of a name, if there is one that keywords may name. -/
def give (name : String) (v : Value) : List Slot → Option (Except CallFlaw (List Slot))
  | [] => none
  | slot :: slots =>
    if slot.parameter.name = name ∧ slot.parameter.kind ≠ .positionalOnly then
      match slot.value with
      | some _ => some (.error (.repeatedArgument name))
      | none => some (.ok ({ slot with value := some v } :: slots))
    else (give name v slots).map fun r => r.map (slot :: ·)

/-- Binds one keyword: to the parameter of its name, else to the other keywords if they are taken. -/
def bindKeyword (takesOthers : Bool) (f : Filling) (keyword : String × Value) : Except CallFlaw Filling :=
  match give keyword.1 keyword.2 f.fixed with
  | some r => r.map fun slots => { f with fixed := slots }
  | none =>
    match give keyword.1 keyword.2 f.keywordOnly with
    | some r => r.map fun slots => { f with keywordOnly := slots }
    | none =>
      if takesOthers then .ok { f with others := f.others ++ [keyword] }
      else .error (.unexpectedKeyword keyword.1)

/-- The value of a slot: the one given, else the default. -/
def Slot.value? (slot : Slot) : Option Value := slot.value.or slot.parameter.default

def missing (slots : List Slot) : List String :=
  (slots.filter fun slot => slot.value?.isNone).map (·.parameter.name)

/-- Binds the arguments of a call. Of several flaws the first in this order is reported: a keyword,
too many positional arguments, a positional parameter without a value, a keyword-only one. -/
def bind (s : Signature) (positional : List Value) (keywords : Arguments) :
    Except CallFlaw Bound := do
  let start : Filling := ⟨fill s.fixed positional, fill s.keywordOnly [], []⟩
  let f ← keywords.foldlM (bindKeyword (s.hasKind .keywords)) start
  let extra := positional.drop s.fixed.length
  if !extra.isEmpty && !s.hasKind .variadic then
    throw (.tooManyArguments s.fixed.length positional.length)
  else if missing f.fixed ≠ [] then throw (.missingPositional (missing f.fixed))
  else if missing f.keywordOnly ≠ [] then throw (.missingKeywords (missing f.keywordOnly))
  else
    return {
      positional := f.fixed.filterMap Slot.value? ++ extra
      keywords := (f.keywordOnly.filterMap fun slot =>
        slot.value?.map fun v => (slot.parameter.name, v)) ++ f.others }

end Signature

end FirstMatch
