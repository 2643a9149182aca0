import FirstMatch.Rule

/-!
Rule tables. Rules are compiled in the order of their declaration, and the first error ends it. A
table knows which lexer arguments its actions take and which they require.
-/

namespace FirstMatch

/-- A declared rule, or a value that should be a pair of a pattern and an action. -/
inductive Declaration
  | rule (pattern : Value) (handler : Handler)
  | raw (v : Value)

/-- The rule of a declaration: a value must yield exactly two values. -/
def Declaration.rule? : Declaration → Except DefinitionFlaw Rule
  | rule pattern handler => .ok ⟨pattern, handler⟩
  | raw v =>
    match v.elements? with
    | some [pattern, action] => .ok ⟨pattern, .value action⟩
    | _ => .error (.noPair v.display)

/-- What a table is made from: declarations, a mapping from patterns to actions, or a value. -/
inductive RuleSource
  | declarations (ds : List Declaration)
  | mapping (entries : List (Value × Handler))
  | raw (v : Value)

namespace RuleSource

/-- Sets the action of a pattern, which keeps its first place in the order. -/
def put (entries : List (Value × Handler)) (pattern : Value) (handler : Handler) :
    List (Value × Handler) :=
  match entries with
  | [] => [(pattern, handler)]
  | (p, h) :: rest => if p.same pattern then (p, handler) :: rest else (p, h) :: put rest pattern handler

def mappingEntry (entries : List (Value × Handler)) (e : Value × Handler) :
    Except CallFlaw (List (Value × Handler)) :=
  match e.1.keyFlaw? with
  | some typeName => .error (.notKey typeName)
  | none => .ok (put entries e.1 e.2)

/-- The declarations in order. -/
def declared : RuleSource → Except CallFlaw (List Declaration)
  | declarations ds => .ok ds
  | mapping entries => do
    let es ← entries.foldlM mappingEntry []
    return es.map fun e => .rule e.1 e.2
  | raw (.mapping entries) => .ok (entries.map fun e => .rule e.1 (.value e.2))
  | raw v =>
    match v.elements? with
    | some vs => .ok (vs.map .raw)
    | none => .error (.notIterable v.typeName)

end RuleSource

structure RuleTable where
  rules : List CompiledRule

namespace RuleTable

/-- Compiles declarations, the first of which gets the given number. -/
def compileFrom (dialect : Regex.Dialect) (number : Nat) :
    List Declaration → Build (List CompiledRule)
  | [] => return []
  | d :: ds => do
    let rule ← Build.ofFlaw d.rule?
    let compiled ← rule.compile number dialect
    let rest ← compileFrom dialect (number + 1) ds
    return compiled :: rest

def ofSource (source : RuleSource) (dialect : Regex.Dialect := .bare) : Build RuleTable := do
  match source.declared with
  | .error flaw => throw (.call flaw)
  | .ok ds => return ⟨← compileFrom dialect 0 ds⟩

def size (t : RuleTable) : Nat := t.rules.length

def hasEof (t : RuleTable) : Bool := t.rules.any fun r => r.kind == .eof

/-- The lexer arguments that some action takes. -/
def argumentNames (t : RuleTable) : List String :=
  Names.ofList (t.rules.flatMap fun r => r.shape.keywords)

/-- The lexer arguments that some action requires. -/
def requiredArguments (t : RuleTable) : List String :=
  Names.ofList (t.rules.flatMap fun r => r.shape.required)

def acceptsAnyArgument (t : RuleTable) : Bool := t.rules.any fun r => r.shape.anyKeyword

/-- Refuses lexer arguments if one that is required is missing, or if no action takes one of them. -/
def checkArguments (t : RuleTable) (names : List String) : Except CallFlaw Unit :=
  let missing := Names.without t.requiredArguments names
  let unexpected := Names.without names t.argumentNames
  if missing ≠ [] then .error (.missingArguments missing)
  else if t.acceptsAnyArgument = false ∧ unexpected ≠ [] then .error (.unexpectedArguments unexpected)
  else .ok ()

/-- Refuses lexer arguments as a method that calls a lexer does: its own parameters come first. -/
def checkCall (t : RuleTable) (method : String) (names : List String) : Except CallFlaw Unit := do
  refuseOwn method names
  t.checkArguments names

/-- Arguments are accepted by a call if the table accepts them and none has a name of the method's own. -/
theorem checkCall_eq_ok_iff {t : RuleTable} {method : String} {names : List String} :
    t.checkCall method names = .ok () ↔
      (∀ name ∈ names, name ∉ ownParameters) ∧ t.checkArguments names = .ok () := by
  have hown : refuseOwn method names = .ok () ↔ ∀ name ∈ names, name ∉ ownParameters :=
    refuseOwn_eq_ok_iff
  rw [← hown, checkCall]
  cases refuseOwn method names with
  | error flaw => simp [bind, Except.bind]
  | ok _ => simp [bind, Except.bind]

/-- The rule at an index; negative ones count from the end. -/
def ruleAt (t : RuleTable) (index : Int) : Except Fault CompiledRule :=
  let i := if index < 0 then index + t.size else index
  if i < 0 then .error .outOfRange
  else match t.rules[i.toNat]? with
    | some r => .ok r
    | none => .error .outOfRange

def display (t : RuleTable) : String := s!"RuleTable({t.size} rules)"

end RuleTable

end FirstMatch
