import FirstMatch.Proofs.Delimiters
import FirstMatch.Proofs.FirstMatches
import FirstMatch.Proofs.NestedFailures
import FirstMatch.Proofs.StreamFrames

/-!
Nested comments. The action of an opening delimiter runs the lexer for comments on its own cursor, adds up
the tokens, and is done with the one that makes the sum zero. The lexer does not read ahead, so the cursor
is left right behind the delimiter of that token, and at the end of the text it has not been marked yet.
-/

namespace FirstMatch

open CommentUnit (units spell Closes)
open Script (request)

/-- The rule of a host for comments: its pattern is the opening delimiter, and its action balances the
delimiters that the lexer for comments finds. -/
def commentRule (turns : Nat) (name : String) (id : Nat) (lexer message : String) : Rule where
  pattern := .text ['/', '\\', '*']
  handler := .action
    (Recipe.action turns name id (Action.standardSignature 2) (.balance lexer .skip message))

/-- A stream of the lexer for comments goes on from a cursor. -/
structure Session.InComment (s : Session) (i j : Nat) (c : Cursor) : Prop where
  cursor : s.cursors[i]? = some c
  fresh : c.exhausted = false
  stream : s.stream? j = some ⟨commentTable, i, [], false, none⟩

namespace CommentUnit

variable {u : CommentUnit} {us : List CommentUnit} {c : Cursor}

/-- The action of the rule for a unit returns what the lexer makes of it. -/
theorem invoke_rule (u : CommentUnit) (perform : Performer) (i : Nat) (span : Span) (s : Session) :
    u.rule.invoke perform u.text i span [] s = some (.ok u.token, s) := by
  cases u <;> rfl

theorem token_cases (u : CommentUnit) : u.token = .int u.change ∨ u.token = .skip ∧ u.change = 0 := by
  cases u with
  | other c => exact .inr ⟨rfl, rfl⟩
  | _ => exact .inl rfl

/-- The rule of the next unit fires, and the cursor moves behind the unit. -/
theorem attempt_of_units (h : units c.ahead = u :: us) (fresh : c.exhausted = false) :
    commentTable.attempt c = (.fired u.rule u.text (c.spanOf u.text.length), c.move u.text.length) := by
  obtain ⟨hfirst, htext, -⟩ := firstMatch_of_units (c := c.markIfEmpty) h
  have hfired := RuleTable.attempt_of_firstMatch fresh hfirst
  obtain ⟨n, -, hfirst', -, -, -, hafter⟩ := RuleTable.of_fired hfired
  obtain rfl : u.text.length = n := by
    rw [hfirst] at hfirst'
    cases hfirst'
    rfl
  have hmarked : c.markIfEmpty = c := Cursor.markIfEmpty_of_ne_nil fun hnil => by
    rw [hnil] at h
    cases h
  rw [hmarked] at hafter htext
  refine Prod.ext ?_ hafter
  rw [hfired, Attempt.ofMatch, htext]

/-- Behind the last unit no rule matches, and the cursor is marked. -/
theorem attempt_of_units_nil (h : units c.ahead = []) (fresh : c.exhausted = false) :
    commentTable.attempt c = (.exhausted, { c with exhausted := true }) := by
  have hnil : c.ahead = [] := by rw [← spell_units c.ahead, h]; rfl
  obtain ⟨behind, ahead, place, exhausted⟩ := c
  cases hnil
  cases fresh
  rfl

end CommentUnit

namespace Session.InComment

variable {s : Session} {i j : Nat} {c : Cursor}

/-- Where the stream tries its table, it records the outcome. -/
theorem streamStepWith_eq (h : s.InComment i j c) {perform : Performer} {o : Outcome}
    (hstep : commentTable.stepWith perform i [] s = some (.ok o, s.tried commentTable i)) :
    Run.streamStepWith perform j s = some
      (.ok o, (s.tried commentTable i).recorded j ⟨commentTable, i, [], false, none⟩ o) := by
  have hstream : (s.tried commentTable i).stream? j = some ⟨commentTable, i, [], false, none⟩ := by
    rw [Session.stream?_tried, h.stream]
  rw [Run.streamStepWith_of_live h.stream rfl, hstep]
  dsimp only
  rw [hstream]

/-- The stream takes a step for the next unit. -/
theorem step (h : s.InComment i j c) {u : CommentUnit} {us : List CommentUnit}
    (hu : units c.ahead = u :: us) (perform : Performer) :
    ∃ t, Run.streamStepWith perform j s = some (.ok (.ofResult u.token (c.spanOf u.text.length)), t) ∧
      t.InComment i j (c.move u.text.length) ∧ units (c.move u.text.length).ahead = us := by
  obtain ⟨-, -, hrest⟩ := CommentUnit.firstMatch_of_units hu
  have hattempt := CommentUnit.attempt_of_units hu h.fresh
  obtain ⟨hcursor, -⟩ := Session.tried_eq commentTable h.cursor
  have hstep : commentTable.stepWith perform i [] s =
      some (.ok (.ofResult u.token (c.spanOf u.text.length)), s.tried commentTable i) := by
    rw [RuleTable.stepWith_apply, Session.cursor_of_getElem? h.cursor, hattempt]
    dsimp only
    rw [u.invoke_rule]
  have hsame : (s.tried commentTable i).recorded j ⟨commentTable, i, [], false, none⟩
      (.ofResult u.token (c.spanOf u.text.length)) = s.tried commentTable i := by
    cases u <;> rfl
  refine ⟨s.tried commentTable i, ?_, ⟨?_, h.fresh, ?_⟩, hrest⟩
  · rw [h.streamStepWith_eq hstep, hsame]
  · rw [hcursor, hattempt]
  · rw [Session.stream?_tried, h.stream]

/-- At the end of the text the stream ends, and the cursor is marked. -/
theorem step_end (h : s.InComment i j c) (hu : units c.ahead = []) (perform : Performer) :
    ∃ t, Run.streamStepWith perform j s = some (.ok .exhausted, t) ∧
      t.cursors[i]? = some { c with exhausted := true } := by
  have hattempt := CommentUnit.attempt_of_units_nil hu h.fresh
  obtain ⟨hcursor, -⟩ := Session.tried_eq commentTable h.cursor
  have hstep : commentTable.stepWith perform i [] s = some (.ok .exhausted, s.tried commentTable i) := by
    rw [RuleTable.stepWith_apply, Session.cursor_of_getElem? h.cursor, hattempt]
  refine ⟨_, h.streamStepWith_eq hstep, ?_⟩
  change (s.tried commentTable i).cursors[i]? = _
  rw [hcursor, hattempt]

end Session.InComment

namespace Recipe

/-- How the loop over the tokens goes on after an answer, with `turns` turns left. -/
def balanceReply (turns j : Nat) (message : String) (depth : Int) :
    Except Fault (Option (Value × Span)) → Script Unit
  | .error f => .fail f
  | .ok none => .fail (.raised "ValueError" (some message))
  | .ok (some (token, _)) =>
    match token.number? with
    | some n =>
      if depth + n = 0 then .done ()
      else Script.iterate (balanceTurn j message) turns (depth + n)
    | none => .fail (.call (.notSummable token.typeName))

theorem iterate_balanceTurn (turns j : Nat) (message : String) (depth : Int) :
    Script.iterate (balanceTurn j message) (turns + 1) depth =
      .ask (.next j) (balanceReply turns j message depth) := by
  refine congrArg (Script.ask _) (funext fun answer => ?_)
  rcases answer with f | _ | ⟨token, span⟩
  · rfl
  · rfl
  · dsimp only [Script.bind, balanceReply]
    cases token.number? with
    | none => rfl
    | some n =>
      dsimp only
      split <;> rfl

end Recipe

/-- What the loop comes to over the units ahead of a cursor. It ends with the unit that closes all comments,
and the cursor stands behind that; else it fails, and the cursor is marked at the end. -/
structure Balances (i : Nat) (c : Cursor) (message : String) (depth : Int) (us : List CommentUnit)
    (x : Option (Except Fault Unit × Session)) : Prop where
  closed : ∀ n, Closes depth us n → ∃ t, x = some (.ok (), t) ∧
    t.cursors[i]? = some (c.move (spell (us.take n)).length)
  unclosed : (¬ ∃ n, Closes depth us n) → ∃ t,
    x = some (.error (.raised "ValueError" (some message)), t) ∧
      t.cursors[i]? = some { c.move (spell us).length with exhausted := true }

namespace Balances

variable {i : Nat} {c : Cursor} {message : String} {depth : Int} {u : CommentUnit}
  {us : List CommentUnit} {x : Option (Except Fault Unit × Session)} {t : Session}

theorem nil (hdepth : depth ≠ 0) (h : t.cursors[i]? = some { c with exhausted := true }) :
    Balances i c message depth [] (some (.error (.raised "ValueError" (some message)), t)) where
  closed _ hn := absurd hn (CommentUnit.not_closes_nil hdepth)
  unclosed _ := ⟨t, rfl, h⟩

theorem of_closing (hdepth : depth ≠ 0) (hzero : depth + u.change = 0)
    (h : t.cursors[i]? = some (c.move u.text.length)) :
    Balances i c message depth (u :: us) (some (.ok (), t)) where
  closed n hn := by
    obtain ⟨k, rfl, ⟨-, rfl⟩ | ⟨hne, -⟩⟩ := (CommentUnit.closes_cons hdepth).mp hn
    · refine ⟨t, rfl, ?_⟩
      simpa [CommentUnit.spell] using h
    · exact absurd hzero hne
  unclosed hnot := absurd ⟨1, (CommentUnit.closes_cons hdepth).mpr ⟨0, rfl, .inl ⟨hzero, rfl⟩⟩⟩ hnot

theorem cons (hdepth : depth ≠ 0) (hne : depth + u.change ≠ 0)
    (h : Balances i (c.move u.text.length) message (depth + u.change) us x) :
    Balances i c message depth (u :: us) x where
  closed n hn := by
    obtain ⟨k, rfl, ⟨hzero, -⟩ | ⟨-, hk⟩⟩ := (CommentUnit.closes_cons hdepth).mp hn
    · exact absurd hzero hne
    · obtain ⟨t, hx, hcursor⟩ := h.closed k hk
      refine ⟨t, hx, ?_⟩
      rw [hcursor, Cursor.move_move, List.take_succ_cons, CommentUnit.spell_cons, List.length_append]
  unclosed hnot := by
    obtain ⟨t, hx, hcursor⟩ := h.unclosed fun ⟨k, hk⟩ =>
      hnot ⟨k + 1, (CommentUnit.closes_cons hdepth).mpr ⟨k, rfl, .inr ⟨hne, hk⟩⟩⟩
    refine ⟨t, hx, ?_⟩
    rw [hcursor, Cursor.move_move, CommentUnit.spell_cons, List.length_append]

end Balances

namespace Run

open Recipe (balanceReply)

/-- The loop waits for the next token, which may be `most` steps ahead. -/
def awaiting (depth j : Nat) (message : String) (d : Int) (most turns : Nat) : Run Unit := do
  let answer ← (nextWith (perform depth) j most).outcome
  (balanceReply turns j message d answer).run (perform (depth + 1))

theorem awaiting_apply (depth j : Nat) (message : String) (d : Int) (most turns : Nat) (s : Session) :
    awaiting depth j message d most turns s =
      match nextWith (perform depth) j most s with
      | none => none
      | some (answer, t) => (balanceReply turns j message d answer).run (perform (depth + 1)) t := by
  unfold awaiting
  rw [bind_apply, outcome_apply]
  cases nextWith (perform depth) j most s <;> rfl

/-- A turn of the loop asks for the next token. -/
theorem run_balanceTurn (depth j : Nat) (message : String) (d : Int) (turns : Nat) (s : Session) :
    (Script.iterate (Recipe.balanceTurn j message) (turns + 1) d).run (perform (depth + 1)) s =
      awaiting depth j message d depth turns s := by
  rw [Recipe.iterate_balanceTurn]
  rfl

/-- The loop balances the units ahead. -/
theorem balances_awaiting {i j depth most turns : Nat} {c : Cursor} {s : Session} {d : Int}
    {us : List CommentUnit} (message : String) (h : s.InComment i j c) (hus : units c.ahead = us)
    (hd : d ≠ 0) (hmost : us.length < most) (hturns : us.length ≤ turns) (hdepth : us.length < depth) :
    Balances i c message d us (awaiting depth j message d most turns s) := by
  -- A unit that is skipped takes one of the steps left to the token; a delimiter ends the turn.
  induction us generalizing c s d most turns with
  | nil =>
    obtain ⟨most, rfl⟩ := Nat.exists_eq_add_one.mpr hmost
    obtain ⟨t, hstep, hcursor⟩ := h.step_end hus (perform depth)
    have hrun : awaiting depth j message d (most + 1) turns s =
        some (.error (.raised "ValueError" (some message)), t) := by
      rw [awaiting_apply, nextWith_succ, hstep]
      rfl
    rw [hrun]
    exact .nil hd hcursor
  | cons u us ih =>
    obtain ⟨most, rfl⟩ := Nat.exists_eq_add_one.mpr (Nat.zero_lt_of_lt hmost)
    obtain ⟨turns, rfl⟩ := Nat.exists_eq_add_one.mpr (Nat.lt_of_lt_of_le (Nat.succ_pos _) hturns)
    obtain ⟨t, hstep, ht, hrest⟩ := h.step hus (perform depth)
    rw [List.length_cons] at hmost hturns hdepth
    rcases u.token_cases with htoken | ⟨htoken, hchange⟩
    · have hrun : awaiting depth j message d (most + 1) (turns + 1) s =
          if d + u.change = 0 then some (.ok (), t)
          else awaiting depth j message (d + u.change) depth turns t := by
        rw [awaiting_apply, nextWith_succ, hstep, htoken]
        change (if d + u.change = 0 then Script.done () else _ : Script Unit).run _ t = _
        split
        · rfl
        · exact run_balanceTurn ..
      rw [hrun]
      split
      · next hzero => exact .of_closing hd hzero ht.cursor
      · next hne => exact .cons hd hne (ih ht hrest hne (by omega) (by omega) (by omega))
    · have hrun : awaiting depth j message d (most + 1) (turns + 1) s =
          awaiting depth j message d most (turns + 1) t := by
        rw [awaiting_apply, nextWith_succ, hstep, htoken, awaiting_apply]
        rfl
      have hsame : d + u.change = d := by rw [hchange, Int.add_zero]
      rw [hrun]
      refine .cons hd (hsame.symm ▸ hd) ?_
      rw [hsame]
      exact ih ht hrest hd (by omega) (by omega) (by omega)

end Run

open Run (awaiting)

/-- One script after the other. -/
theorem Script.run_bind {α β : Type} (perform : Performer) (p : Script α) (k : α → Script β) :
    (p.bind k).run perform = p.run perform >>= fun a => (k a).run perform := by
  induction p with
  | done a => rfl
  | fail f => rfl
  | stall => rfl
  | ask q reply ih =>
    change (perform q).outcome >>= (fun answer => ((reply answer).bind k).run perform) =
      ((perform q).outcome >>= fun answer => (reply answer).run perform) >>= _
    simp only [ih, LawfulMonad.bind_assoc]

section

variable {dialect : Regex.Dialect} {turns id i depth : Nat} {number : Int}
  {name lexer message : String} {rule : CompiledRule}
  {warnings : List EmptyMatch} {text : List Char} {span : Span} {context : Arguments} {s : Session}

theorem of_compile_commentRule
    (h : ((commentRule turns name id lexer message).compile number dialect).result =
      (.ok rule, warnings)) :
    rule = ⟨number, .regex .pattern ['/', '\\', '*'] (.pair '/' '*'),
      Recipe.action turns name id (Action.standardSignature 2) (.balance lexer .skip message),
      ⟨2, [], [], false⟩⟩ := by
  have hcompiled : ((commentRule turns name id lexer message).compile number dialect).result =
      (.ok ⟨number, .regex .pattern ['/', '\\', '*'] (.pair '/' '*'),
        Recipe.action turns name id (Action.standardSignature 2) (.balance lexer .skip message),
        ⟨2, [], [], false⟩⟩, []) := rfl
  exact Except.ok.inj (Prod.mk.inj (h.symm.trans hcompiled)).1

/-- The rule fires at an opening delimiter only. -/
theorem opening_of_fired {host : RuleTable} {c : Cursor}
    (h : ((commentRule turns name id lexer message).compile number dialect).result =
      (.ok rule, warnings))
    (fired : (host.attempt c).1 = .fired rule text span) :
    ∃ r, c.ahead = '/' :: '*' :: r ∧ c.exhausted = false ∧ text = ['/', '*'] ∧ span = c.spanOf 2 ∧
      (host.attempt c).2 = c.move 2 := by
  obtain ⟨n, hex, hfirst, -, rfl, rfl, hafter⟩ := RuleTable.of_fired fired
  obtain ⟨-, hmatch⟩ := RuleTable.mem_of_firstMatch hfirst
  have hrun : (Program.pair '/' '*').run c.ahead = some (.length n) := by
    rw [of_compile_commentRule h] at hmatch
    exact hmatch
  by_cases hahead : ∃ r, c.ahead = '/' :: '*' :: r
  · obtain ⟨r, hr⟩ := hahead
    rw [hr, Program.run_pair_self] at hrun
    cases hrun
    rw [Cursor.markIfEmpty_of_ne_nil (by simp [hr])] at hafter
    exact ⟨r, hr, hex, by rw [hr]; rfl, rfl, hafter⟩
  · rw [Program.run_pair_eq_none fun r hr => hahead ⟨r, hr⟩] at hrun
    cases hrun

/-- The session after the action has opened its stream. -/
def Session.commentOpened (s : Session) (id i : Nat) : Session :=
  { s.countCall id with streams := s.streams.push ⟨commentTable, i, [], false, none⟩ }

/-- What the action does. -/
def commentScript (turns id i : Nat) (lexer message : String) (text : List Char) : Script Value :=
  (request (.countCall id)).bind fun _ =>
    (Recipe.balanced turns lexer message ⟨[.text text, .cursor i], []⟩).bind fun _ => .done Value.skip

theorem script_commentRule
    (h : ((commentRule turns name id lexer message).compile number dialect).result =
      (.ok rule, warnings)) :
    rule.script text i span context = .ok (commentScript turns id i lexer message text) := by
  have hselect : CallShape.select ⟨2, [], [], false⟩ context = [] := by simp [CallShape.select]
  rw [of_compile_commentRule h]
  unfold CompiledRule.script
  dsimp only
  rw [hselect]
  rfl

/-- The action loops over the tokens of the stream that it has opened. -/
theorem invoke_commentRule
    (h : ((commentRule (turns + 1) name id lexer message).compile number dialect).result =
      (.ok rule, warnings))
    (hlexer : s.lexers.lookup lexer = some commentTable) :
    rule.invoke (Run.perform (depth + 1)) text i span context s =
      (awaiting depth s.streams.size message 1 depth turns (s.commentOpened id i)).map fun p =>
        (p.1.map fun _ => .skip, p.2) := by
  have hopen : Run.perform (depth + 1) (.openStream lexer i []) (s.countCall id) =
      some (.ok s.streams.size, s.commentOpened id i) := by
    have hcounted : (s.countCall id).lexers.lookup lexer = some commentTable := hlexer
    refine (Run.perform_openStream_apply lexer i [] (s.countCall id)).trans ?_
    rw [hcounted]
    rfl
  have hreach : Script.Reaches (Run.perform (depth + 1))
      (commentScript (turns + 1) id i lexer message text) s
      ((Script.iterate (Recipe.balanceTurn s.streams.size message) (turns + 1) 1).bind fun _ =>
        .done Value.skip) (s.commentOpened id i) :=
    .answered rfl (.answered hopen (.here _ _))
  rw [CompiledRule.invoke_of_script (script_commentRule h), hreach.run_eq, Script.run_bind,
    Run.bind_apply, Run.run_balanceTurn]
  rcases awaiting depth s.streams.size message 1 depth turns (s.commentOpened id i) with
    _ | ⟨_ | _, t⟩ <;> rfl

end

/-- The action of a match balances the units behind the opening delimiter. -/
theorem balances_invoke {dialect : Regex.Dialect} {turns id i depth : Nat} {number : Int}
    {name lexer message : String} {host : RuleTable} {rule : CompiledRule} {warnings : List EmptyMatch} {r : List Char}
    {s : Session} {c : Cursor} (text : List Char) (span : Span) (context : Arguments)
    (h : ((commentRule turns name id lexer message).compile number dialect).result =
      (.ok rule, warnings))
    (hlexer : s.lexers.lookup lexer = some commentTable) (hc : s.cursors[i]? = some c)
    (fresh : c.exhausted = false) (hafter : (host.attempt c).2 = c.move 2)
    (hahead : c.ahead = '/' :: '*' :: r) (hturns : c.ahead.length ≤ turns)
    (hdepth : c.ahead.length ≤ depth) :
    ∃ x, Balances i (c.move 2) message 1 (units r) x ∧
      rule.invoke (Run.perform depth) text i span context (s.tried host i) =
        x.map fun p => (p.1.map fun _ => .skip, p.2) := by
  have hlength : c.ahead.length = r.length + 2 := by rw [hahead]; rfl
  have hunits : (units r).length ≤ r.length := CommentUnit.length_units_le r
  obtain ⟨turns, rfl⟩ : ∃ m, turns = m + 1 := Nat.exists_eq_add_one.mpr (by omega)
  obtain ⟨depth, rfl⟩ : ∃ m, depth = m + 1 := Nat.exists_eq_add_one.mpr (by omega)
  obtain ⟨hcursor, -, hlexers, -⟩ := Session.tried_eq host hc
  have hin : ((s.tried host i).commentOpened id i).InComment i (s.tried host i).streams.size
      (c.move 2) := by
    refine ⟨?_, fresh, ?_⟩
    · rw [← hafter]
      exact hcursor
    · simp [Session.stream?, Session.commentOpened]
  have hrest : (c.move 2).ahead = r := by
    change c.ahead.drop 2 = r
    rw [hahead]
    rfl
  exact ⟨_, Run.balances_awaiting message hin (congrArg units hrest) Int.one_ne_zero (by omega)
    (by omega) (by omega), invoke_commentRule h (hlexers ▸ hlexer)⟩

/-- Nested comments are read correctly, whatever the text and wherever a host fires its rule for them, given
as many turns and as much depth as characters are left. The units behind the opening delimiter are taken from
the left. If there is one that closes all comments, the match is skipped, its span is that of the delimiter,
and the cursor stands right behind the unit. It has not been marked there, so at the end of the text the host
still fires its rule for the end. If there is none, the step fails with the error of the action, and the
cursor is marked at the end of the text. -/
theorem nested_comments {dialect : Regex.Dialect} {turns id i depth : Nat} {number : Int}
    {name lexer message : String}
    {host body : RuleTable} {rule : CompiledRule} {warnings : List EmptyMatch} {text : List Char}
    {span : Span} {s : Session} {c : Cursor} (context : Arguments)
    (hbody : (RuleTable.ofSource (.declarations commentBody) dialect).result = (.ok body, []))
    (hrule : ((commentRule turns name id lexer message).compile number dialect).result =
      (.ok rule, warnings))
    (hlexer : s.lexers.lookup lexer = some body) (hc : s.cursors[i]? = some c)
    (fired : (host.attempt c).1 = .fired rule text span)
    (hturns : c.ahead.length ≤ turns) (hdepth : c.ahead.length ≤ depth) :
    ∃ r, c.ahead = '/' :: '*' :: r ∧
      span = ⟨⟨c.place.line, c.place.col⟩, ⟨c.place.line, c.place.col + 1⟩,
        (c.place.byte, c.place.byte + 2)⟩ ∧
      (∀ n, Closes 1 (units r) n → ∃ d u,
        host.stepWith (Run.perform depth) i context s = some (.ok (.skipped span), u) ∧
        u.cursors[i]? = some d ∧ d = c.move (2 + (spell ((units r).take n)).length) ∧
        r = spell ((units r).take n) ++ d.ahead ∧ d.exhausted = false ∧
        (host.Built → host.EndsInEof → d.ahead = [] →
          ∃ eof, (host.attempt d).1 = .fired eof [] d.location ∧ eof.kind = .eof)) ∧
      ((¬ ∃ n, Closes 1 (units r) n) → ∃ serial d u,
        host.stepWith (Run.perform depth) i context s = some (.ok (.failed
          (.action serial (.raised "ValueError" (some message)) span rule.priority true)), u) ∧
        u.cursors[i]? = some d ∧ d = { c.move c.ahead.length with exhausted := true } ∧
        d.ahead = []) := by
  cases hbody.symm.trans (ofSource_commentBody dialect)
  obtain ⟨r, hahead, fresh, rfl, hspan, hafter⟩ := opening_of_fired hrule fired
  obtain ⟨x, hbalances, hinvoke⟩ := balances_invoke ['/', '*'] span context hrule hlexer hc fresh
    hafter hahead hturns hdepth
  have hcursor := Session.cursor_of_getElem? hc
  refine ⟨r, hahead, ?_, fun n hn => ?_, fun hnot => ?_⟩
  · rw [hspan, Cursor.spanOf, Cursor.move, hahead]
    rfl
  · obtain ⟨u, hrun, hu⟩ := hbalances.closed n hn
    have hstep : host.stepWith (Run.perform depth) i context s = some (.ok (.skipped span), u) := by
      rw [RuleTable.stepWith_apply, hcursor, fired]
      dsimp only
      rw [hinvoke, hrun]
      rfl
    rw [Cursor.move_move] at hu
    have hsplit : r = spell ((units r).take n) ++
        (c.move (2 + (spell ((units r).take n)).length)).ahead := by
      change r = _ ++ c.ahead.drop _
      rw [hahead, ← List.drop_drop]
      exact (CommentUnit.spell_take_append_drop r n).symm
    exact ⟨_, u, hstep, hu, rfl, hsplit, fresh, fun built hends hnil => built.fires_eof hends fresh hnil⟩
  · obtain ⟨u, hrun, hu⟩ := hbalances.unclosed hnot
    have hcall : rule.invoke (Run.perform depth) ['/', '*'] i span context (s.tried host i) =
        some (.error (.raised "ValueError" (some message)), u) := by
      rw [hinvoke, hrun]
      rfl
    have hstep := RuleTable.stepWith_of_error (hcursor.symm ▸ fired) hcall rfl
    have hlength : 2 + r.length = c.ahead.length := by
      rw [hahead]
      exact Nat.add_comm ..
    rw [Cursor.move_move, CommentUnit.spell_units, hlength] at hu
    exact ⟨_, _, _, hstep, hu, rfl, List.drop_length⟩

/-- A host that reads comments up to the end. -/
def commentHost : List Declaration := [
  .rule (.text ['/', '\\', '*']) (commentRule 8 "comment" 0 "body" "Unterminated comment").handler,
  .rule (.kind .eof) (.action .string)]

def hostRule : CompiledRule :=
  ⟨0, .regex .pattern ['/', '\\', '*'] (.pair '/' '*'),
    Recipe.action 8 "comment" 0 (Action.standardSignature 2) (.balance "body" .skip "Unterminated comment"),
    ⟨2, [], [], false⟩⟩

def hostEnd : CompiledRule := ⟨1, .eof, .string, ⟨1, [], [], false⟩⟩

def hostTable : RuleTable := ⟨[hostRule, hostEnd]⟩

/-- A comment within a comment. Its delimiters share characters with their neighbours. -/
def slashes : List Char := ['/', '*', '/', '*', '*', '/', '*', '/']

/-- A slash right behind the delimiter does not close the comment. -/
def straySlash : List Char := ['/', '*', '/']

def hostSession (text : List Char) : Session :=
  { Session.empty with cursors := #[.ofText text], lexers := [("body", commentTable)] }

/-- The one comment is skipped up to the end of the text, where the host's rule for the end still fires; the
other one is not closed. -/
theorem nested_comments_slashes :
    hostTable.Built ∧ hostTable.EndsInEof ∧
    units ['/', '*', '*', '/', '*', '/'] = [.opening, .closing, .closing] ∧
    (∃ u, hostTable.stepWith (Run.perform 8) 0 [] (hostSession slashes) =
        some (.ok (.skipped ⟨⟨1, 1⟩, ⟨1, 2⟩, (0, 2)⟩), u) ∧
      u.cursors[0]? = some ((Cursor.ofText slashes).move 8) ∧
      ∃ eof, (hostTable.attempt ((Cursor.ofText slashes).move 8)).1 =
        .fired eof [] ⟨⟨1, 9⟩, ⟨1, 9⟩, (8, 8)⟩ ∧ eof.kind = .eof) ∧
    ∃ serial u, hostTable.stepWith (Run.perform 8) 0 [] (hostSession straySlash) =
        some (.ok (.failed (.action serial (.raised "ValueError" (some "Unterminated comment"))
          ⟨⟨1, 1⟩, ⟨1, 2⟩, (0, 2)⟩ 0 true)), u) ∧
      u.cursors[0]? = some { (Cursor.ofText straySlash).move 3 with exhausted := true } := by
  have hbuilt : hostTable.Built := ⟨.bare, .declarations commentHost, [], rfl⟩
  have hends : hostTable.EndsInEof := by
    refine ⟨[hostRule], hostEnd, [], rfl, rfl, fun q hq => ?_⟩
    obtain rfl := List.mem_singleton.mp hq
    refine ⟨nofun, fun source program htrigger => ?_⟩
    cases htrigger
    rfl
  have hrule : ((commentRule 8 "comment" 0 "body" "Unterminated comment").compile 0).result =
      (.ok hostRule, []) := rfl
  have hclosed : Closes 1 [.opening, .closing, .closing] 3 := ⟨by decide, by decide, by decide⟩
  have hopen : ¬ ∃ n, Closes 1 [.other '/'] n := by
    rintro ⟨n, hn⟩
    obtain ⟨k, -, ⟨hzero, -⟩ | ⟨-, hk⟩⟩ := (CommentUnit.closes_cons (by decide)).mp hn
    · exact absurd hzero (by decide)
    · exact CommentUnit.not_closes_nil (by decide) hk
  refine ⟨hbuilt, hends, rfl, ?_, ?_⟩
  · have hcursor : (hostSession slashes).cursors[0]? = some (.ofText slashes) := rfl
    have fired : (hostTable.attempt (.ofText slashes)).1 =
        .fired hostRule ['/', '*'] ⟨⟨1, 1⟩, ⟨1, 2⟩, (0, 2)⟩ := rfl
    have hlength : (Cursor.ofText slashes).ahead.length ≤ 8 := by decide
    obtain ⟨r, hahead, -, hskips, -⟩ :=
      nested_comments [] (ofSource_commentBody .bare) hrule rfl hcursor fired hlength hlength
    cases hahead
    obtain ⟨d, u, hstep, hu, rfl, -, -, hfires⟩ := hskips 3 hclosed
    exact ⟨u, hstep, hu, hfires hbuilt hends rfl⟩
  · have hcursor : (hostSession straySlash).cursors[0]? = some (.ofText straySlash) := rfl
    have fired : (hostTable.attempt (.ofText straySlash)).1 =
        .fired hostRule ['/', '*'] ⟨⟨1, 1⟩, ⟨1, 2⟩, (0, 2)⟩ := rfl
    have hlength : (Cursor.ofText straySlash).ahead.length ≤ 8 := by decide
    obtain ⟨r, hahead, -, -, hfails⟩ :=
      nested_comments [] (ofSource_commentBody .bare) hrule rfl hcursor fired hlength hlength
    cases hahead
    obtain ⟨serial, d, u, hstep, hu, rfl, -⟩ := hfails hopen
    exact ⟨serial, u, hstep, hu⟩

end FirstMatch
