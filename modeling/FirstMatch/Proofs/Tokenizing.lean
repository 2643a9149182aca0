import FirstMatch.Proofs.Reading

/-!
Collecting the tokens of a stream comes to the reading of the text. A session stands somewhere in the
text while the stream goes on; one step of the stream takes off what one turn of the reading does.
-/

namespace FirstMatch

namespace Session

/-- The stream goes on: its cursor is at a place with the rest of the text ahead. `spent` says whether
the pass at the end of the text has been made. -/
structure Stands (t : RuleTable) (cursor stream : Nat) (context : Arguments) (s s₀ : Session)
    (p : Place) (rest : List Char) (spent : Bool) : Prop where
  cursor_eq : ∃ behind, s.cursors[cursor]? = some ⟨behind, rest, p, spent⟩
  stream_eq : s.streams[stream]? = some ⟨t, cursor, context, false, none⟩
  lexers_eq : s.lexers = s₀.lexers
  engines_eq : s.engines = s₀.engines

theorem cursor_of_getElem? {s : Session} {i : Nat} {c : Cursor} (h : s.cursors[i]? = some c) :
    s.cursor i = c := by
  rw [cursor, h, Option.getD_some]

theorem getElem?_setCursor {s : Session} {i : Nat} {c : Cursor} (h : s.cursors[i]? = some c)
    (d : Cursor) : (s.setCursor i d).cursors[i]? = some d := by
  obtain ⟨hi, -⟩ := Array.getElem?_eq_some_iff.mp h
  simp [setCursor, hi]

/-- What trying a table leaves as it is, and the cursor that it leaves. -/
theorem tried_eq {s : Session} {i : Nat} {c : Cursor} (t : RuleTable)
    (h : s.cursors[i]? = some c) :
    (s.tried t i).cursors[i]? = some (t.attempt c).2 ∧ (s.tried t i).streams = s.streams ∧
      (s.tried t i).lexers = s.lexers ∧ (s.tried t i).engines = s.engines := by
  unfold tried
  rw [cursor_of_getElem? h]
  cases t.attempt c with
  | mk a d =>
    cases a with
    | fired r text span => exact ⟨getElem?_setCursor h d, rfl, rfl, rfl⟩
    | _ => exact ⟨getElem?_setCursor h d, rfl, rfl, rfl⟩

end Session

namespace Run

variable {perform : Performer} {j : Nat} {s u : Session} {a : Stream}

theorem stream_of_getElem? (h : s.streams[j]? = some a) : stream j s = some (.ok a, s) := by
  unfold stream
  rw [get_bind_apply, Session.stream?, h]
  rfl

/-- A step of a stream that goes on is a step of its table, of which an end or a failure is
recorded. -/
theorem streamStepWith_of_ok {v : Session} {o : Outcome} (h : s.streams[j]? = some a)
    (hdone : a.done = false) (herror : a.error = none)
    (hstep : a.table.stepWith perform a.cursor a.context s = some (.ok o, u))
    (hsettle : settle j o u = some (.ok (), v)) :
    streamStepWith perform j s = some (.ok o, v) := by
  unfold streamStepWith
  rw [bind_of_ok (stream_of_getElem? h)]
  simp only [herror, hdone]
  rw [bind_of_ok hstep, bind_of_ok hsettle]
  rfl

theorem streamStepWith_of_error {f : Fault} (h : s.streams[j]? = some a) (hdone : a.done = false)
    (herror : a.error = none)
    (hstep : a.table.stepWith perform a.cursor a.context s = some (.error f, u)) :
    streamStepWith perform j s = some (.error f, u) := by
  unfold streamStepWith
  rw [bind_of_ok (stream_of_getElem? h)]
  simp only [herror, hdone]
  rw [bind_of_error hstep]

theorem settle_failed (h : u.streams[j]? = some a) (f : Fault) :
    settle j (.failed f) u = some (.ok (), u.setStream j { a with error := some f }) := by
  unfold settle
  rw [bind_of_ok (stream_of_getElem? h)]
  rfl

theorem settle_exhausted (h : u.streams[j]? = some a) :
    settle j .exhausted u = some (.ok (), u.setStream j { a with done := true }) := by
  unfold settle
  rw [bind_of_ok (stream_of_getElem? h)]
  rfl

theorem settle_ofResult (h : u.streams[j]? = some a) (v : Value) (span : Span) :
    settle j (.ofResult v span) u = some (.ok (), u) := by
  unfold settle Outcome.ofResult
  rw [bind_of_ok (stream_of_getElem? h)]
  cases v <;> rfl

end Run

namespace RuleTable

/-- A reading from a place on, if the pass at the end has been made or not. -/
def readingFrom (t : RuleTable) (act : Act) (p : Place) (rest : List Char) (spent : Bool) : Reading :=
  if spent then ⟨[], .complete, p, rest⟩ else t.reading act p rest

/-- How many matches there can be at most. -/
def passesLeft (rest : List Char) (spent : Bool) : Nat := rest.length + if spent then 0 else 1

/-- The span of the first characters of a text at a place. -/
def spanFrom (p : Place) (text : List Char) (n : Nat) : Span :=
  .between p (p.last (text.take n)) (p.after (text.take n))

/-- One step: what a result or an end of it says about the reading. -/
inductive Turned (t : RuleTable) (act : Act) (cursor stream : Nat) (context : Arguments)
    (s₀ : Session) (w : Reading) (passes : Nat) : Except Fault Outcome → Session → Prop
  | on {v : Value} {span : Span} {u : Session} {p : Place} {rest : List Char} {spent : Bool}
      (stands : u.Stands t cursor stream context s₀ p rest spent)
      (fewer : passesLeft rest spent < passes)
      (reading : w = (t.readingFrom act p rest spent).emit v span) :
      Turned t act cursor stream context s₀ w passes (.ok (.ofResult v span)) u
  | complete {u : Session} (tokens : w.tokens = []) (raises : w.ending.Raises none)
      (leaves : w.Leaves cursor stream none u) :
      Turned t act cursor stream context s₀ w passes (.ok .exhausted) u
  | failed {u : Session} {f : Fault} (tokens : w.tokens = []) (raises : w.ending.Raises (some f))
      (leaves : w.Leaves cursor stream (some f) u) :
      Turned t act cursor stream context s₀ w passes (.ok (.failed f)) u
  | broken {u : Session} {f : Fault} (tokens : w.tokens = []) (raises : w.ending.Raises (some f))
      (leaves : w.Leaves cursor stream (some f) u) :
      Turned t act cursor stream context s₀ w passes (.error f) u

/-- One request for a token: the first token of the reading, or the end of one without tokens. -/
inductive Fetched (t : RuleTable) (act : Act) (cursor stream : Nat) (context : Arguments)
    (s₀ : Session) (w : Reading) (passes : Nat) :
    Except Fault (Option (Value × Span)) → Session → Prop
  | token {e : Value × Span} {u : Session} {p : Place} {rest : List Char} {spent : Bool}
      (stands : u.Stands t cursor stream context s₀ p rest spent)
      (fewer : passesLeft rest spent < passes)
      (reading : w = { t.readingFrom act p rest spent with
        tokens := e :: (t.readingFrom act p rest spent).tokens }) :
      Fetched t act cursor stream context s₀ w passes (.ok (some e)) u
  | stop {f : Option Fault} {u : Session} (tokens : w.tokens = []) (raises : w.ending.Raises f)
      (leaves : w.Leaves cursor stream f u) :
      Fetched t act cursor stream context s₀ w passes (Fault.unless f none) u

section

variable {t : RuleTable} {perform : Performer} {i j : Nat} {context : Arguments}
  {s₀ s : Session} {act : Act} {p : Place} {rest : List Char} {spent : Bool}

/-- The session after a stream has recorded its end or its failure. -/
theorem leaves_setStream {w : Reading} {u : Session} {c : Cursor} {a b : Stream}
    {f : Option Fault} (hc : u.cursors[i]? = some c) (ha : u.streams[j]? = some a)
    (hplace : c.place = w.place) (hahead : c.ahead = w.rest)
    (hover : f = none → c.exhausted = true) (hdone : b.done = f.isNone)
    (herror : b.error = if f = some .tangled then none else f) :
    w.Leaves i j f (u.setStream j b) := by
  have hcursor : (u.setStream j b).cursor i = c := Session.cursor_of_getElem? hc
  obtain ⟨hj, -⟩ := Array.getElem?_eq_some_iff.mp ha
  refine ⟨?_, ?_, ?_, b, ?_, hdone, herror⟩
  · rw [hcursor, hplace]
  · rw [hcursor, hahead]
  · rwa [hcursor]
  · simp [Session.setStream, Session.stream?, hj]

theorem passesLeft_drop_lt {n : Nat} (hpos : rest ≠ [] → 0 < n) :
    passesLeft (rest.drop n) rest.isEmpty < passesLeft rest false := by
  cases rest with
  | nil => simp [passesLeft]
  | cons c cs =>
    have hn := hpos nofun
    simp only [passesLeft, List.isEmpty_cons, List.length_drop, List.length_cons]
    omega

/-- The reading of a text that begins with a match. -/
theorem reading_of_length {k n : Nat} {r : CompiledRule}
    (hlead : t.leading rest = some (k, r, .length n)) (hpos : rest ≠ [] → 0 < n) :
    t.reading act p rest =
      match act r (rest.take n) (spanFrom p rest n) with
      | .ok v => .emit v (spanFrom p rest n)
          (t.readingFrom act (p.after (rest.take n)) (rest.drop n) rest.isEmpty)
      | .error f => ⟨[], .failed f (spanFrom p rest n) k, p.after (rest.take n), rest.drop n⟩ := by
  cases rest with
  | nil =>
    have hspan : spanFrom p [] n = p.spot := by
      simp only [spanFrom, List.take_nil]
      rfl
    rw [reading, hlead, hspan, List.take_nil, List.drop_nil]
    rfl
  | cons c cs =>
    obtain ⟨m, rfl⟩ : ∃ m, n = m + 1 := Nat.exists_eq_succ_of_ne_zero (hpos (List.cons_ne_nil c cs)).ne'
    rw [reading, hlead]
    rfl

theorem turned_of_length (hcalls : t.Computes perform i j context s₀ act) (hbuilt : t.Built)
    (hs : s.Stands t i j context s₀ p rest false) {k n : Nat} {r : CompiledRule}
    (hlead : t.leading rest = some (k, r, .length n)) (hpos : rest ≠ [] → 0 < n) :
    ∃ o u, Run.streamStepWith perform j s = some (o, u) ∧
      Turned t act i j context s₀ (t.reading act p rest) (passesLeft rest false) o u := by
  obtain ⟨behind, hcursor⟩ := hs.cursor_eq
  obtain ⟨hrule, hmatch⟩ := mem_of_leading hlead
  have hattempt := t.attempt_eq (c := ⟨behind, rest, p, false⟩) rfl
  simp only [hlead] at hattempt
  obtain ⟨hcursor', hstreams, hlexers, hengines⟩ := Session.tried_eq t hcursor
  obtain ⟨u, hu, hkept⟩ := hcalls.call r (List.mem_of_getElem? hrule)
    (rest.take n) (spanFrom p rest n) (s.tried t i) (hlexers.trans hs.lexers_eq)
    (hengines.trans hs.engines_eq)
  have hucursor := hkept.cursor_eq.trans hcursor'
  have hustream := (hkept.stream_eq.trans (congrArg (·[j]?) hstreams)).trans hs.stream_eq
  rw [hattempt] at hucursor
  have hstep := stepWith_apply perform t i context s
  rw [Session.cursor_of_getElem? hcursor, hattempt] at hstep
  dsimp only at hstep
  have hspan : Cursor.spanOf ⟨behind, rest, p, false⟩ n = spanFrom p rest n := rfl
  rw [hspan, hu] at hstep
  have hreading : t.reading act p rest = _ := reading_of_length hlead hpos
  cases hact : act r (rest.take n) (spanFrom p rest n) with
  | ok v =>
    rw [hact] at hstep hreading
    refine ⟨_, u, Run.streamStepWith_of_ok hs.stream_eq rfl rfl hstep
      (Run.settle_ofResult hustream v _), ?_⟩
    refine .on ⟨⟨_, hucursor⟩, hustream, ?_, ?_⟩ ?_ hreading
    · exact (hkept.lexers_eq.trans hlexers).trans hs.lexers_eq
    · exact (hkept.engines_eq.trans hengines).trans hs.engines_eq
    · change passesLeft (rest.drop n) (false || rest.isEmpty) < _
      rw [Bool.false_or]
      exact passesLeft_drop_lt hpos
  | error f =>
    have hordinary := hcalls.ordinary r (List.mem_of_getElem? hrule) _ _ f hact
    rw [hact] at hstep hreading
    simp only [hordinary, ↓reduceIte, hbuilt.priority hrule] at hstep
    refine ⟨_, _, Run.streamStepWith_of_ok hs.stream_eq rfl rfl hstep
      (Run.settle_failed (u := { u with nextSerial := u.nextSerial + 1 }) hustream _), ?_⟩
    rw [hreading]
    refine .failed rfl ⟨u.nextSerial, rfl⟩ ?_
    exact leaves_setStream hucursor hustream rfl rfl (absurd · (Option.some_ne_none _)) rfl (by simp)

/-- A step from where a stream stands takes off one turn of the reading. -/
theorem turned_of_stands (hcalls : t.Computes perform i j context s₀ act) (hbuilt : t.Built)
    (hconsumes : t.Consumes) (hs : s.Stands t i j context s₀ p rest spent) :
    ∃ o u, Run.streamStepWith perform j s = some (o, u) ∧
      Turned t act i j context s₀ (t.readingFrom act p rest spent) (passesLeft rest spent) o u := by
  obtain ⟨behind, hcursor⟩ := hs.cursor_eq
  obtain ⟨hcursor', hstreams, hlexers, hengines⟩ := Session.tried_eq t hcursor
  have hstream := (congrArg (·[j]?) hstreams).trans hs.stream_eq
  have hstep := stepWith_apply perform t i context s
  rw [Session.cursor_of_getElem? hcursor] at hstep
  cases spent with
  | true =>
    have hattempt : t.attempt ⟨behind, rest, p, true⟩ = (.exhausted, ⟨behind, rest, p, true⟩) := rfl
    rw [hattempt] at hstep hcursor'
    refine ⟨_, _, Run.streamStepWith_of_ok hs.stream_eq rfl rfl hstep
      (Run.settle_exhausted hstream), ?_⟩
    exact .complete rfl rfl (leaves_setStream hcursor' hstream rfl rfl (fun _ => rfl) rfl rfl)
  | false =>
    have hattempt := t.attempt_eq (c := ⟨behind, rest, p, false⟩) rfl
    change ∃ o u, _ ∧ Turned t act i j context s₀ (t.reading act p rest) _ o u
    cases hlead : t.leading rest with
    | none =>
      simp only [hlead] at hattempt
      cases rest with
      | nil =>
        dsimp only at hattempt
        rw [hattempt] at hstep hcursor'
        refine ⟨_, _, Run.streamStepWith_of_ok hs.stream_eq rfl rfl hstep
          (Run.settle_exhausted hstream), ?_⟩
        rw [reading, hlead]
        exact .complete rfl rfl (leaves_setStream hcursor' hstream rfl rfl (fun _ => rfl) rfl rfl)
      | cons c cs =>
        dsimp only at hattempt
        rw [hattempt] at hstep hcursor'
        refine ⟨_, _, Run.streamStepWith_of_ok hs.stream_eq rfl rfl hstep
          (Run.settle_failed
            (u := { s.tried t i with nextSerial := s.nextSerial + 1 }) hstream _), ?_⟩
        rw [reading, hlead]
        refine .failed rfl ⟨s.nextSerial, rfl⟩ ?_
        exact leaves_setStream hcursor' hstream rfl rfl (absurd · (Option.some_ne_none _)) rfl (by simp)
    | some found =>
      obtain ⟨k, r, m⟩ := found
      cases m with
      | tangled =>
        simp only [hlead] at hattempt
        rw [hattempt] at hstep hcursor'
        refine ⟨_, _, Run.streamStepWith_of_error hs.stream_eq rfl rfl hstep, ?_⟩
        have hreading : t.reading act p rest = ⟨[], .tangled, p, rest⟩ := by
          cases rest <;> rw [reading, hlead]
        rw [hreading]
        refine .broken rfl rfl ⟨?_, ?_, (absurd · (Option.some_ne_none _)), _, hstream, rfl, by simp⟩
        · rw [Session.cursor_of_getElem? hcursor']
          rfl
        · rw [Session.cursor_of_getElem? hcursor']
          rfl
      | length n =>
        exact turned_of_length hcalls hbuilt hs hlead fun hne =>
          hbuilt.length_pos hconsumes hlead hne

/-- Results that are skipped are passed over, of which there are fewer than turns. -/
theorem fetched_of_stands (hcalls : t.Computes perform i j context s₀ act) (hbuilt : t.Built)
    (hconsumes : t.Consumes) {turns : Nat} (hturns : passesLeft rest spent < turns)
    (hs : s.Stands t i j context s₀ p rest spent) :
    ∃ r u, Run.nextWith perform j turns s = some (r, u) ∧
      Fetched t act i j context s₀ (t.readingFrom act p rest spent) (passesLeft rest spent) r u := by
  induction turns generalizing s p rest spent with
  | zero => exact absurd hturns (Nat.not_lt_zero _)
  | succ turns ih =>
    obtain ⟨o, u, hstep, hturned⟩ := turned_of_stands hcalls hbuilt hconsumes hs
    unfold Run.nextWith
    cases hturned with
    | complete tokens raises leaves =>
      rw [Run.bind_of_ok hstep]
      exact ⟨_, u, rfl, .stop (f := none) tokens raises leaves⟩
    | @failed _ f tokens raises leaves =>
      rw [Run.bind_of_ok hstep]
      exact ⟨_, u, rfl, .stop (f := some f) tokens raises leaves⟩
    | @broken _ f tokens raises leaves =>
      rw [Run.bind_of_error hstep]
      exact ⟨_, u, rfl, .stop (f := some f) tokens raises leaves⟩
    | @on v span _ p' rest' spent' stands fewer reading =>
      rw [Run.bind_of_ok hstep]
      by_cases hv : v = .skip
      · subst hv
        obtain ⟨r, u', hnext, hfetched⟩ := ih (by omega) stands
        refine ⟨r, u', hnext, ?_⟩
        rw [Reading.emit_skip] at reading
        rw [reading]
        cases hfetched with
        | token stands fewer' reading => exact .token stands (fewer'.trans fewer) reading
        | stop tokens raises leaves => exact .stop tokens raises leaves
      · rw [Outcome.ofResult_of_ne hv]
        rw [Reading.emit_of_ne hv] at reading
        exact ⟨_, u, rfl, .token stands fewer reading⟩

/-- Collecting all tokens from where a stream stands. -/
theorem pairsFrom_of_stands {depth : Nat} (hcalls : t.Computes (Run.perform depth) i j context s₀ act)
    (hbuilt : t.Built) (hconsumes : t.Consumes) (hdepth : passesLeft rest spent < depth)
    {turns : Nat} (hturns : passesLeft rest spent < turns)
    (hs : s.Stands t i j context s₀ p rest spent) (before : List (Value × Span)) :
    ∃ f u, Run.pairsFrom depth j turns before s =
        some (Fault.unless f (before.reverse ++ (t.readingFrom act p rest spent).tokens), u) ∧
      (t.readingFrom act p rest spent).ending.Raises f ∧
      (t.readingFrom act p rest spent).Leaves i j f u := by
  induction turns generalizing s p rest spent before with
  | zero => exact absurd hturns (Nat.not_lt_zero _)
  | succ turns ih =>
    obtain ⟨r, u, hnext, hfetched⟩ := fetched_of_stands hcalls hbuilt hconsumes hdepth hs
    unfold Run.pairsFrom Run.next
    cases hfetched with
    | @token e _ p' rest' spent' stands fewer reading =>
      rw [Run.bind_of_ok hnext]
      obtain ⟨f, u', hpairs, hraises, hleaves⟩ :=
        ih (fewer.trans hdepth) (by omega) stands (e :: before)
      refine ⟨f, u', ?_, ?_, ?_⟩
      · rw [reading]
        rw [List.reverse_cons, List.append_assoc, List.singleton_append] at hpairs
        exact hpairs
      · rw [reading]
        exact hraises
      · rw [reading]
        exact ⟨hleaves.place_eq, hleaves.ahead_eq, hleaves.exhausted, hleaves.recorded⟩
    | @stop f _ tokens raises leaves =>
      refine ⟨f, u, ?_, raises, leaves⟩
      rw [tokens, List.append_nil]
      cases f with
      | none =>
        rw [Run.bind_of_ok hnext]
        rfl
      | some f =>
        rw [Run.bind_of_error hnext]
        rfl

end

end RuleTable

/-- Calling a lexer on a text and collecting its tokens comes to the reading of the text: the same
tokens with the same spans or the same error, from the same place. The one error that is neither of
unmatched input nor of an action belongs to the pattern engine: a reading that ends tangled comes with
the error that the engine raises by itself when a group of the match starts behind its end. The cursor
then stands before that match, and the stream does not remember the error. -/
theorem tokenize_reading {t : RuleTable} (hbuilt : t.Built) (hconsumes : t.Consumes)
    {context : Arguments} (haccepted : t.checkCall "tokenize" (context.map (·.1)) = .ok ())
    (text : List Char) (s : Session) {depth : Nat} (hdepth : text.length + 2 ≤ depth) {act : Act}
    (hcalls : t.Computes (Run.perform depth) s.cursors.size s.streams.size context s act) :
    ∃ f u, Run.tokenize depth t (Run.openSource (.text text)) context s =
        some (Fault.unless f (t.reading act .start text).tokens, u) ∧
      (t.reading act .start text).ending.Raises f ∧
      (t.reading act .start text).Leaves s.cursors.size s.streams.size f u := by
  let u : Session := { s with
    cursors := s.cursors.push (.ofText text)
    streams := s.streams.push ⟨t, s.cursors.size, context, false, none⟩ }
  have haccepts := RuleTable.checkCall_eq_ok_iff.mp haccepted
  have hchecked : t.checkCall "__call__" (context.map (·.1)) = .ok () :=
    RuleTable.checkCall_eq_ok_iff.mpr haccepts
  have hown : Run.ofCall (refuseOwn "tokenize" (context.map (·.1))) s = some (.ok (), s) := by
    rw [refuseOwn_eq_ok_iff.mpr haccepts.1]
    rfl
  have hcall : Run.callLexer t (Run.openSource (.text text)) context s =
      some (.ok s.streams.size, u) := by
    unfold Run.callLexer
    rw [hchecked]
    rfl
  have hstands : u.Stands t s.cursors.size s.streams.size context s .start text false :=
    ⟨⟨[], by simp [u, Cursor.ofText]⟩, by simp [u], rfl, rfl⟩
  have hpasses : RuleTable.passesLeft text false < depth := by
    simp only [RuleTable.passesLeft, Bool.false_eq_true, ↓reduceIte]
    omega
  unfold Run.tokenize
  rw [Run.bind_of_ok hown, Run.bind_of_ok hcall]
  exact RuleTable.pairsFrom_of_stands hcalls hbuilt hconsumes hpasses hpasses hstands []

/-- An action that takes the text only. -/
def plainAction (display : String) (body : List Char → Script Value) : Action :=
  ⟨display, [⟨.positionalOnly, "text", none⟩], fun b => body b.text⟩

/-- Dashes are tokens, blanks are skipped, and the end is refused. -/
def dashes : List Declaration := [
  .rule (.text ['-']) (.action (plainAction "dash" fun text => .done (.text text))),
  .rule (.kind .whitespace) (.action (plainAction "blank" fun _ => .done .skip)),
  .rule (.kind .eof) (.action (plainAction "end" fun _ => .fail (.raised "ValueError" none)))]

def dashTable : RuleTable := ⟨[
  ⟨0, .regex .pattern ['-'] ⟨.char 45 .exact, 1⟩,
    plainAction "dash" fun text => .done (.text text), ⟨1, [], [], false⟩⟩,
  ⟨1, .whitespace, plainAction "blank" fun _ => .done .skip, ⟨1, [], [], false⟩⟩,
  ⟨2, .eof, plainAction "end" fun _ => .fail (.raised "ValueError" none), ⟨1, [], [], false⟩⟩]⟩

def dashAct : Act := fun r text _ =>
  match r.kind with
  | .whitespace => .ok .skip
  | .eof => .error (.raised "ValueError" none)
  | _ => .ok (.text text)

/-- Both dashes are read, and then the end is refused. -/
theorem tokenize_reading_dashes :
    dashTable.Built ∧ dashTable.Consumes ∧ dashTable.checkCall "tokenize" [] = .ok () ∧
    dashTable.Computes (Run.perform 5) 0 0 [] .empty dashAct ∧
    (dashTable.reading dashAct .start "- -".toList).tokens.length = 2 ∧
    ∃ n u, Run.tokenize 5 dashTable (Run.openSource (.text "- -".toList)) [] .empty =
      some (.error (.action n (.raised "ValueError" none) (.spot ⟨1, 4⟩ 3) 2 true), u) := by
  have hbuilt : dashTable.Built := ⟨.bare, .declarations dashes, [], rfl⟩
  have hconsumes : dashTable.Consumes := by
    intro r hr source program htrigger c cs hrun
    simp only [dashTable, List.mem_cons, List.not_mem_nil, or_false] at hr
    rcases hr with rfl | rfl | rfl
    · cases htrigger
      exact Trigger.run_single_ne_zero (fun _ _ _ => rfl) 1 (c :: cs) hrun
    · cases htrigger
    · cases htrigger
  have hcalls : dashTable.Computes (Run.perform 5) 0 0 [] .empty dashAct := by
    refine ⟨fun r hr text span s _ _ => ⟨s, ?_, rfl, rfl, rfl, rfl⟩, fun r _ text span f hf => ?_⟩
    · simp only [dashTable, List.mem_cons, List.not_mem_nil, or_false] at hr
      rcases hr with rfl | rfl | rfl <;> rfl
    · unfold dashAct at hf
      split at hf <;> cases hf
      rfl
  have hreading : dashTable.reading dashAct .start "- -".toList =
      ⟨[(.text ['-'], ⟨⟨1, 1⟩, ⟨1, 1⟩, (0, 1)⟩), (.text ['-'], ⟨⟨1, 3⟩, ⟨1, 3⟩, (2, 3)⟩)],
        .failed (.raised "ValueError" none) (.spot ⟨1, 4⟩ 3) 2, ⟨3, 3, 1, 4⟩, []⟩ := by
    change dashTable.reading dashAct .start ['-', ' ', '-'] = _
    rw [RuleTable.reading]
    change Reading.emit _ _ (RuleTable.reading _ _ _ [' ', '-']) = _
    rw [RuleTable.reading]
    change Reading.emit _ _ (Reading.emit _ _ (RuleTable.reading _ _ _ ['-'])) = _
    rw [RuleTable.reading]
    change Reading.emit _ _ (Reading.emit _ _ (Reading.emit _ _ (RuleTable.reading _ _ _ []))) = _
    rw [RuleTable.reading]
    rfl
  have haccepted : dashTable.checkCall "tokenize" (([] : Arguments).map (·.1)) = .ok () := rfl
  have hdepth : "- -".toList.length + 2 ≤ 5 := by decide
  obtain ⟨f, u, hrun, hraises, -⟩ :=
    tokenize_reading hbuilt hconsumes haccepted "- -".toList .empty hdepth hcalls
  rw [hreading] at hraises
  obtain ⟨n, rfl⟩ := hraises
  exact ⟨hbuilt, hconsumes, rfl, hcalls, by rw [hreading]; rfl, n, u, hrun⟩

end FirstMatch
