import FirstMatch.Session

/-!
Running actions, steps and streams. One step tries the rules and then runs the script of the action
that fired; an ordinary error of the script becomes the outcome of the step, together with the span
and the rule. Scripts may take steps themselves, on the same cursor too, so running them is bounded by
the depth of such steps.
-/

namespace FirstMatch

/-- Answers the requests of scripts. -/
abbrev Performer := (q : Request) → Run q.Answer

/-- Runs a script with the given answers to its requests. -/
def Script.run {α : Type} (perform : Performer) : Script α → Run α
  | .done a => return a
  | .fail f => throw f
  | .ask q reply => do
    let answer ← (perform q).outcome
    (reply answer).run perform
  | .stall => Run.unfinished

/-- Calls the action of a rule for a match. -/
def CompiledRule.invoke (perform : Performer) (r : CompiledRule) (text : List Char) (cursor : Nat)
    (span : Span) (context : Arguments) : Run Value := do
  let script ← Run.ofCall (r.script text cursor span context)
  script.run perform

/-- Notes a match in the journal. -/
def Run.noteMatch (cursor : Nat) (r : CompiledRule) (text : List Char) (span : Span) : Run Unit :=
  modify fun s =>
    { s with journal := ⟨cursor, .rule r.kind r.priority, text, span⟩ :: s.journal }

/-- One step of a table on a cursor. -/
def RuleTable.stepWith (perform : Performer) (t : RuleTable) (cursor : Nat) (context : Arguments) :
    Run Outcome := do
  let s ← get
  let (attempt, d) := t.attempt (s.cursor cursor)
  set (s.setCursor cursor d)
  match attempt with
  | .exhausted => return .exhausted
  | .unmatched character location =>
    return .failed (.unmatched (← Run.newSerial) (character.map ([·])) location)
  | .overrun o => throw (.overrun o)
  | .tangled => throw .tangled
  | .fired rule text span =>
    Run.noteMatch cursor rule text span
    match ← (rule.invoke perform text cursor span context).outcome with
    | .ok result => return .ofResult result span
    | .error f =>
      if f.isOrdinary then return .failed (.action (← Run.newSerial) f span rule.priority true)
      else throw f

namespace Run

/-- The stream of a number; all numbers in use have one. -/
def stream (i : Nat) : Run Stream := do
  match (← get).stream? i with
  | some t => return t
  | none => throw (.raised "KeyError" none)

/-- Records the end or the failure that a step of a stream has met. -/
def settle (i : Nat) (o : Outcome) : Run Unit := do
  let t ← stream i
  match o with
  | .failed f => modify fun s => s.setStream i { t with error := some f }
  | .exhausted => modify fun s => s.setStream i { t with done := true }
  | _ => return ()

/-- One step of a stream. A stream that has failed or ended answers so again. -/
def streamStepWith (perform : Performer) (i : Nat) : Run Outcome := do
  let t ← stream i
  match t.error, t.done with
  | some f, _ => return .failed f
  | none, true => return .exhausted
  | none, false =>
    let o ← t.table.stepWith perform t.cursor t.context
    settle i o
    return o

/-- Steps a stream up to its next token, at most `turns` times. -/
def nextWith (perform : Performer) (i : Nat) : Nat → Run (Option (Value × Span))
  | 0 => unfinished
  | turns + 1 => do
    match ← streamStepWith perform i with
    | .emitted token span => return some (token, span)
    | .skipped _ => nextWith perform i turns
    | .failed f => throw f
    | .exhausted => return none

/-- Answers a request. `depth` bounds the steps within steps, and the matches that one request for a
token may pass over. -/
def perform : Nat → Performer
  | _, .advance c n => advance c n
  | _, .look c => return (← get).cursor c
  | _, .mark c => mark c
  | _, .cursorNamed name => cursorNamed name
  | _, .openText text => openCursor text
  | _, .openStream name c context => do
    let table ← lexer name
    ofCall (table.checkCall "__call__" (context.map (·.1)))
    openStream table c context
  | _, .streamNamed name => streamNamed name
  | _, .countCall action => do
    modify fun s => s.countCall action
    return (← get).callCount action
  | _, .cite f => modify fun s => s.cite f
  | 0, .step .. => unfinished
  | depth + 1, .step name c context => do
    let table ← engine name
    table.stepWith (perform depth) c context
  | 0, .streamStep _ => unfinished
  | depth + 1, .streamStep i => streamStepWith (perform depth) i
  | 0, .next _ => unfinished
  | depth + 1, .next i => nextWith (perform depth) i depth

end Run

end FirstMatch
