import FirstMatch.Proofs.NestedFailures
import FirstMatch.Proofs.MatchCount
import FirstMatch.Proofs.RenamedRecipes
import FirstMatch.Proofs.RenamedRuns

/-!
Steps that match nothing. Where input is left that no rule of a table matches, a step of it reports that, and
has done nothing but to number the error. So of the steps that callers ask of several tables on one cursor
those that matched nothing may as well be left out: the others come to the same.
-/

namespace FirstMatch

open Relator (BiUnique)
open Run (engineStep repeated perform)

namespace RuleTable

variable {table : RuleTable} {i : Nat} {context : Arguments} {s u : Session}

/-- Input is unmatched where some is left and no rule matches. -/
theorem attempt_unmatched_iff {c : Cursor} (hc : c.exhausted = true → c.ahead = []) :
    (∃ character location, (table.attempt c).1 = .unmatched character location) ↔
      c.ahead ≠ [] ∧ ∀ r ∈ table.rules, r.matchAt c none = none := by
  rw [← firstMatch_eq_none_iff]
  constructor
  · rintro ⟨character, location, h⟩
    obtain ⟨x, hx, -, -⟩ := attempt_unmatched h
    have hahead : c.ahead ≠ [] := fun hnil => by
      rw [hnil] at hx
      cases hx
    have hex : c.exhausted = false := Bool.eq_false_iff.mpr fun he => hahead (hc he)
    refine ⟨hahead, ?_⟩
    unfold attempt at h
    simp only [hex, Bool.false_eq_true, ↓reduceIte, Cursor.markIfEmpty_of_ne_nil hahead] at h
    split at h
    · split at h <;> cases h
    · cases h
    · assumption
  · rintro ⟨hahead, hnone⟩
    have hex : c.exhausted = false := Bool.eq_false_iff.mpr fun he => hahead (hc he)
    refine ⟨c.peek, c.location, ?_⟩
    unfold attempt
    simp only [hex, Bool.false_eq_true, ↓reduceIte, Cursor.markIfEmpty_of_ne_nil hahead, hnone]

/-- A table that matches nothing has left the session as it was. -/
theorem tried_of_unmatched {character : Option Char} {location : Span}
    (h : (table.attempt (s.cursor i)).1 = .unmatched character location) : s.tried table i = s := by
  have hattempt : table.attempt (s.cursor i) = (.unmatched character location, s.cursor i) :=
    Prod.ext h (attempt_snd_of_unmatched h)
  unfold Session.tried
  rw [hattempt]
  exact s.setCursor_self i

/-- A step that matches nothing does nothing but to number its error. -/
theorem stepWith_of_unmatched {character : Option Char} {location : Span}
    (h : (table.attempt (s.cursor i)).1 = .unmatched character location) (perform : Performer) :
    table.stepWith perform i context s =
      some (.ok (.failed (.unmatched s.nextSerial (character.map ([·])) location)),
        { s with nextSerial := s.nextSerial + 1 }) := by
  rw [stepWith_apply, h, tried_of_unmatched h]

/-- A step reports unmatched input where its own rules have matched nothing: an action that meets unmatched
input has failed itself. -/
theorem attempt_of_stepWith_unmatched {perform : Performer} {n : Nat} {character : Option (List Char)}
    {location : Span}
    (h : table.stepWith perform i context s = some (.ok (.failed (.unmatched n character location)), u)) :
    ∃ x, (table.attempt (s.cursor i)).1 = .unmatched x location ∧ character = x.map ([·]) ∧
      n = s.nextSerial ∧ u = { s with nextSerial := s.nextSerial + 1 } := by
  cases hattempt : (table.attempt (s.cursor i)).1 with
  | unmatched x place =>
    rw [stepWith_of_unmatched hattempt] at h
    cases h
    exact ⟨x, rfl, rfl, rfl, rfl⟩
  | exhausted =>
    rw [stepWith_apply, hattempt] at h
    cases h
  | overrun o =>
    rw [stepWith_apply, hattempt] at h
    cases h
  | tangled =>
    rw [stepWith_apply, hattempt] at h
    cases h
  | fired rule text span =>
    rw [stepWith_apply, hattempt] at h
    dsimp only at h
    split at h
    · cases h
    · next v _ _ => cases v <;> cases h
    · split at h <;> cases h

/-- A step ends with an error in two cases only: its match cannot be told, or its action was interrupted. -/
theorem kind_of_stepWith_error {perform : Performer} {f : Fault}
    (h : table.stepWith perform i context s = some (.error f, u)) :
    f = .tangled ∨ f.isOrdinary = false := by
  rw [stepWith_apply] at h
  split at h
  · cases h
  · cases h
  · next o hattempt => exact absurd hattempt (table.attempt_ne_overrun _ o)
  · cases h
    exact .inl rfl
  · split at h
    · cases h
    · cases h
    · next hordinary =>
      split at h
      · cases h
      · next hinterrupted =>
        cases h
        exact .inr (Bool.eq_false_iff.mpr hinterrupted)

end RuleTable

/-- An interruption is no value error. -/
theorem Fault.kind_ne_of_interrupted {f : Fault} (h : f.isOrdinary = false) : f.kind ≠ "ValueError" := by
  cases f with
  | raised kind message =>
    intro heq
    obtain rfl : kind = "ValueError" := heq
    cases h
  | _ => cases h

/-- A step that callers ask for: of a table, with lexer arguments. -/
abbrev StepCall := RuleTable × Arguments

/-- Steps, each with what it came to. -/
abbrev StepLog := List (StepCall × Except Fault Outcome)

/-- The log of steps on one cursor, and the session after the last of them. -/
def Run.interleaved (depth i : Nat) : List StepCall → Session → Option (StepLog × Session)
  | [], s => some ([], s)
  | call :: calls, s =>
    match engineStep depth call.1 i call.2 s with
    | none => none
    | some (r, t) => (interleaved depth i calls t).map fun p => ((call, r) :: p.1, p.2)

/-- The second log is the first without some steps that matched nothing. -/
inductive StepLog.LeavesOut : StepLog → StepLog → Prop
  | nil : LeavesOut [] []
  | keep (e : StepCall × Except Fault Outcome) {es fs : StepLog} (rest : LeavesOut es fs) :
      LeavesOut (e :: es) (e :: fs)
  | leave (call : StepCall) (n : Nat) (character : Option (List Char)) (location : Span)
      {es fs : StepLog} (rest : LeavesOut es fs) :
      LeavesOut ((call, .ok (.failed (.unmatched n character location))) :: es) fs

/-- Logs of the same steps, which came to the same under other numbers. -/
def StepLog.Renamed (R : Renaming) : StepLog → StepLog → Prop :=
  List.Forall₂ fun e f => f.1 = e.1 ∧ RenamedResult Outcome.Renamed R e.2 f.2

/-- Actions take the numbers of errors for names, and all numbers in the session have been given. -/
structure Session.Indifferent (s : Session) : Prop where
  tables : ∀ table, s.Holds table → table.Indifferent
  streams : ∀ j a, s.stream? j = some a → a.Renamed (.below s.nextSerial) a

theorem Session.Indifferent.renamed {s : Session} (h : s.Indifferent) :
    s.Renamed (.below s.nextSerial) s where
  cursors := rfl
  size := rfl
  streams j := by
    cases hj : s.stream? j with
    | none => exact .none
    | some a => exact .some (h.streams j a hj)
  lexers := rfl
  engines := rfl
  cursorNames := rfl
  streamNames := rfl
  feeds := rfl
  calls := rfl
  journal := rfl
  given := by
    rintro m n ⟨rfl, hm⟩
    exact ⟨hm, hm⟩
  unique := Renaming.unique_below _
  indifferent := h.tables

namespace Run

variable {depth i : Nat} {s t u : Session}

theorem interleaved_cons {table : RuleTable} {context : Arguments} {r : Except Fault Outcome}
    (h : engineStep depth table i context s = some (r, t)) (calls : List StepCall) :
    interleaved depth i ((table, context) :: calls) s =
      (interleaved depth i calls t).map fun p => (((table, context), r) :: p.1, p.2) := by
  simp [interleaved, h]

/-- The first step and those after it. -/
theorem interleaved_cons_eq_some {call : StepCall} {calls : List StepCall} {log : StepLog}
    (h : interleaved depth i (call :: calls) s = some (log, u)) :
    ∃ r t rest, engineStep depth call.1 i call.2 s = some (r, t) ∧
      interleaved depth i calls t = some (rest, u) ∧ log = (call, r) :: rest := by
  unfold interleaved at h
  split at h
  · cases h
  · next r t hstep =>
    obtain ⟨⟨rest, u'⟩, hrest, heq⟩ := Option.map_eq_some_iff.mp h
    cases heq
    exact ⟨r, t, rest, hstep, hrest, rfl⟩

/-- The steps that are kept go on from the same session, as each step that is left out has only spent a
number. -/
theorem interleaved_leaveOut {R : Renaming} {calls : List StepCall} {log kept : StepLog}
    (hlog : interleaved depth i calls s = some (log, u)) (hkept : log.LeavesOut kept)
    (hst : s.Renamed R t) (tables : ∀ call ∈ calls, call.1.Indifferent)
    (contexts : ∀ call ∈ calls, RenamedArguments R call.2 call.2) :
    ∃ S log' v, R ≤ S ∧ interleaved depth i (kept.map (·.1)) t = some (log', v) ∧
      kept.Renamed S log' ∧ u.Renamed S v := by
  induction calls generalizing s t log kept R with
  | nil =>
    cases hlog
    cases hkept
    exact ⟨R, [], t, le_refl R, rfl, .nil, hst⟩
  | cons call calls ih =>
    obtain ⟨table, context⟩ := call
    obtain ⟨r, s', rest, hstep, hrest, rfl⟩ := interleaved_cons_eq_some hlog
    obtain ⟨htable, tables⟩ := List.forall_mem_cons.mp tables
    obtain ⟨hcontext, contexts⟩ := List.forall_mem_cons.mp contexts
    cases hkept with
    | leave _ n character location hkept =>
      -- Only the full run has taken this step, which has spent a number there.
      obtain ⟨x, -, -, -, rfl⟩ := RuleTable.attempt_of_stepWith_unmatched hstep
      exact ih hrest hkept hst.spent tables contexts
    | keep _ hkept =>
      have hsame := renames_stepWith (indifferent_perform depth) htable i hcontext R (le_refl R) s t hst
      change Option.Rel _ (engineStep depth table i context s) (engineStep depth table i context t) at hsame
      rw [hstep] at hsame
      generalize hstep' : engineStep depth table i context t = p at hsame
      cases hsame with
      | @some _ p hp =>
        obtain ⟨r', t'⟩ := p
        obtain ⟨S, hRS, hresult, hst'⟩ := hp
        obtain ⟨T, log', v, hST, hlog', hrests, huv⟩ := ih hrest hkept hst' tables fun call hcall =>
          (contexts call hcall).mono hRS
        have hmono (o p : Outcome) : o.Renamed S p → o.Renamed T p := .mono hST
        refine ⟨T, ((table, context), r') :: log', v, hRS.trans hST, ?_,
          .cons ⟨rfl, hresult.mono hmono hST⟩ hrests, huv⟩
        rw [List.map_cons, interleaved_cons hstep', hlog']
        rfl

/-- A step that has matched nothing does so again and again. -/
theorem repeated_unmatched {table : RuleTable} {context : Arguments} {character : Option Char}
    {location : Span} (h : (table.attempt (s.cursor i)).1 = .unmatched character location) (k : Nat) :
    repeated (engineStep depth table i context) k s =
      some ((List.range' s.nextSerial k).map fun n =>
          .ok (.failed (.unmatched n (character.map ([·])) location)),
        { s with nextSerial := s.nextSerial + k }) := by
  induction k generalizing s with
  | zero => rfl
  | succ k ih =>
    have hstep : engineStep depth table i context s = _ :=
      RuleTable.stepWith_of_unmatched h (perform depth)
    have hrest := ih (s := { s with nextSerial := s.nextSerial + 1 }) h
    have hcount : s.nextSerial + 1 + k = s.nextSerial + (k + 1) := by omega
    rw [repeated_succ_of_some hstep, hrest, List.range'_succ]
    dsimp only [Option.map_some]
    rw [hcount]
    rfl

end Run

/-- A step reports unmatched input exactly where some is left and no rule matches it. It has changed nothing
then but for the number of its error, and when it is repeated it reports the same under the next numbers. No
match goes beyond the end, and no step ends with a value error. So of steps of several tables on one cursor,
in any order and with any actions, those that matched nothing may be left out: the others come to the same
outcomes and to the same session, but for the numbers of errors. -/
theorem unmatched_steps_idle {text : List Char} {i : Nat} {s : Session} (hs : s.Reachable text i)
    (depth : Nat) :
    (∀ (table : RuleTable) (context : Arguments),
      ((∃ n character location u, engineStep depth table i context s =
          some (.ok (.failed (.unmatched n character location)), u)) ↔
        (s.cursor i).ahead ≠ [] ∧ ∀ r ∈ table.rules, r.matchAt (s.cursor i) none = none) ∧
      (∀ n character location u, engineStep depth table i context s =
          some (.ok (.failed (.unmatched n character location)), u) →
        u = { s with nextSerial := s.nextSerial + 1 } ∧ u.cursor i = s.cursor i ∧
        ∀ k, repeated (engineStep depth table i context) k s =
          some ((List.range' n k).map fun m => .ok (.failed (.unmatched m character location)),
            { s with nextSerial := s.nextSerial + k })) ∧
      (∀ o, (table.attempt (s.cursor i)).1 ≠ .overrun o) ∧
      ∀ f u, engineStep depth table i context s = some (.error f, u) → f.kind ≠ "ValueError") ∧
    (s.Indifferent → ∀ (calls : List StepCall) (log kept : StepLog) (u : Session),
      (∀ call ∈ calls, call.1.Indifferent ∧ RenamedArguments (.below s.nextSerial) call.2 call.2) →
      Run.interleaved depth i calls s = some (log, u) → log.LeavesOut kept →
      ∃ R log' v, (∀ n < s.nextSerial, R n n) ∧
        Run.interleaved depth i (kept.map (·.1)) s = some (log', v) ∧
        kept.Renamed R log' ∧ u.Renamed R v ∧ v.cursor i = u.cursor i) := by
  obtain ⟨-, -, hsound⟩ := hs.cursor
  constructor
  · intro table context
    refine ⟨?_, fun n character location u h => ?_, table.attempt_ne_overrun _, fun f u h => ?_⟩
    · rw [← table.attempt_unmatched_iff hsound.ended]
      constructor
      · rintro ⟨n, character, location, u, h⟩
        obtain ⟨x, hx, -⟩ := RuleTable.attempt_of_stepWith_unmatched h
        exact ⟨x, location, hx⟩
      · rintro ⟨x, location, hx⟩
        exact ⟨_, _, _, _, RuleTable.stepWith_of_unmatched hx (perform depth)⟩
    · obtain ⟨x, hx, rfl, rfl, rfl⟩ := RuleTable.attempt_of_stepWith_unmatched h
      exact ⟨rfl, rfl, Run.repeated_unmatched hx⟩
    · rcases RuleTable.kind_of_stepWith_error h with rfl | hinterrupted
      · decide
      · exact Fault.kind_ne_of_interrupted hinterrupted
  · intro hin calls log kept u hcalls hlog hkept
    obtain ⟨R, log', v, hle, hlog', hsame, huv⟩ := Run.interleaved_leaveOut hlog hkept hin.renamed
      (fun call hcall => (hcalls call hcall).1) fun call hcall => (hcalls call hcall).2
    exact ⟨R, log', v, fun n hn => hle n n ⟨rfl, hn⟩, hlog', hsame, huv, huv.cursor i⟩

/-- The digit one. -/
def oneDigit : RuleTable :=
  ⟨[⟨0, .regex .pattern ['1'] ⟨.char 49 .exact, 1⟩, .string, ⟨1, [], [], false⟩⟩]⟩

/-- The letter `a`, whose action steps on in search of a digit and returns what that has come to. -/
def letterThenDigit : RuleTable :=
  ⟨[⟨0, .regex .pattern ['a'] ⟨.char 97 .exact, 1⟩,
    Recipe.action 1 "digit" 0 (Action.standardSignature 2) (.step "digit" []), ⟨2, [], [], false⟩⟩]⟩

/-- Before two letters, after some errors. -/
def beforeLetters (errors : Nat) : Session :=
  { Session.empty with
    cursors := #[.ofText ['a', 'b']]
    engines := [("digit", oneDigit)]
    nextSerial := errors }

def letterSpan : Span := ⟨⟨1, 1⟩, ⟨1, 1⟩, (0, 1)⟩

/-- Behind the first of them, where a digit has been missed. -/
def behindLetter (errors : Nat) : Session :=
  { beforeLetters (errors + 1) with
    cursors := #[(Cursor.ofText ['a', 'b']).move 1]
    calls := [(0, 1)]
    cited := [errors]
    journal := [⟨0, .rule .pattern 0, ['a'], letterSpan⟩] }

theorem oneDigit_indifferent : oneDigit.Indifferent :=
  RuleTable.indifferent_of_numberless fun _ hr => List.mem_singleton.mp hr ▸ .string

theorem letterThenDigit_indifferent : letterThenDigit.Indifferent :=
  RuleTable.indifferent_of_numberless fun _ hr =>
    List.mem_singleton.mp hr ▸ .recipe 1 "digit" 0 rfl rfl

theorem beforeLetters_indifferent (errors : Nat) : (beforeLetters errors).Indifferent where
  tables table held := by
    rcases held with ⟨_, hlexer⟩ | ⟨_, hengine⟩ | ⟨j, a, ha, -⟩
    · cases hlexer
    · cases List.mem_singleton.mp hengine
      exact oneDigit_indifferent
    · cases ha
  streams j a ha := by cases ha

def missedAt (number col : Nat) (letter : Char) : Fault :=
  .unmatched number (some [letter]) (.spot ⟨1, col⟩ (col - 1))

theorem step_letterThenDigit (errors : Nat) :
    engineStep 2 letterThenDigit 0 [] (beforeLetters errors) =
      some (.ok (.emitted (Outcome.failed (missedAt errors 2 'b')).record letterSpan),
        behindLetter errors) := rfl

/-- A digit is looked for in vain before each of two letters. Without the first of these steps the letter
yields the same token and the other step fails alike, but for the numbers of the errors. -/
theorem unmatched_steps_idle_digits :
    (beforeLetters 0).Reachable ['a', 'b'] 0 ∧
    repeated (engineStep 2 oneDigit 0 []) 2 (beforeLetters 0) =
      some ([.ok (.failed (missedAt 0 1 'a')), .ok (.failed (missedAt 1 1 'a'))], beforeLetters 2) ∧
    ∃ R u v,
      Run.interleaved 2 0 [(oneDigit, []), (letterThenDigit, []), (oneDigit, [])] (beforeLetters 0) =
        some ([((oneDigit, []), .ok (.failed (missedAt 0 1 'a'))),
          ((letterThenDigit, []),
            .ok (.emitted (Outcome.failed (missedAt 1 2 'b')).record letterSpan)),
          ((oneDigit, []), .ok (.failed (missedAt 2 2 'b')))], u) ∧
      Run.interleaved 2 0 [(letterThenDigit, []), (oneDigit, [])] (beforeLetters 0) =
        some ([((letterThenDigit, []),
            .ok (.emitted (Outcome.failed (missedAt 0 2 'b')).record letterSpan)),
          ((oneDigit, []), .ok (.failed (missedAt 1 2 'b')))], v) ∧
      R 2 1 ∧ u.Renamed R v ∧ v.cursor 0 = u.cursor 0 := by
  have hs : (beforeLetters 0).Reachable ['a', 'b'] 0 :=
    ⟨{ Session.empty with engines := (beforeLetters 0).engines }, rfl, .refl⟩
  obtain ⟨hsteps, hlaw⟩ := unmatched_steps_idle hs 2
  obtain ⟨-, hidle, -⟩ := hsteps oneDigit []
  obtain ⟨-, -, hagain⟩ := hidle 0 (some ['a']) (.spot ⟨1, 1⟩ 0) _ rfl
  have hfirst : engineStep 2 oneDigit 0 [] (beforeLetters 0) =
      some (.ok (.failed (missedAt 0 1 'a')), beforeLetters 1) := rfl
  have hlast (errors : Nat) : engineStep 2 oneDigit 0 [] (behindLetter errors) =
      some (.ok (.failed (missedAt (errors + 1) 2 'b')),
        { behindLetter errors with nextSerial := errors + 2 }) := rfl
  have hkept (errors : Nat) :
      Run.interleaved 2 0 [(letterThenDigit, []), (oneDigit, [])] (beforeLetters errors) =
        some ([((letterThenDigit, []),
            .ok (.emitted (Outcome.failed (missedAt errors 2 'b')).record letterSpan)),
          ((oneDigit, []), .ok (.failed (missedAt (errors + 1) 2 'b')))],
          { behindLetter errors with nextSerial := errors + 2 }) := by
    rw [Run.interleaved_cons (step_letterThenDigit errors), Run.interleaved_cons (hlast errors)]
    rfl
  have hrun := Run.interleaved_cons hfirst [(letterThenDigit, []), (oneDigit, [])]
  rw [hkept 1] at hrun
  have hcalls : ∀ call ∈ [(oneDigit, []), (letterThenDigit, []), (oneDigit, [])],
      call.1.Indifferent ∧ RenamedArguments (.below 0) call.2 call.2 := by
    intro call hcall
    simp only [List.mem_cons, List.not_mem_nil, or_false] at hcall
    rcases hcall with rfl | rfl | rfl
    · exact ⟨oneDigit_indifferent, .nil⟩
    · exact ⟨letterThenDigit_indifferent, .nil⟩
    · exact ⟨oneDigit_indifferent, .nil⟩
  obtain ⟨R, log', v, -, hlog', hsame, huv, hcursor⟩ :=
    hlaw (beforeLetters_indifferent 0) _ _ _ _ hcalls hrun (.leave _ _ _ _ (.keep _ (.keep _ .nil)))
  cases (hkept 0).symm.trans hlog'
  obtain - | ⟨-, - | ⟨⟨-, hresult⟩, -⟩⟩ := hsame
  have hnumber : R 2 1 := by
    cases hresult with
    | ok hfailed =>
      cases hfailed with
      | failed hfault =>
        cases hfault with
        | unmatched number => exact number
  exact ⟨hs, hagain 2, R, _, _, hrun, hkept 0, hnumber, huv, hcursor⟩

end FirstMatch
