import FirstMatch.Proofs.Location
import FirstMatch.Proofs.StreamSteps

/-!
Failures within nested matches. The action of a match may read another stream on the same cursor, whose
match may do so again, to any depth. If the innermost step fails and nobody handles its error, each match
reports the failure within it: the errors form a chain from the outermost match to the innermost, and the
streams fail with a link of it each.
-/

namespace FirstMatch

open Run (perform Steps)

/-- From a script another one is reached once some of its requests have been answered. -/
inductive Script.Reaches {α : Type} (perform : Performer) :
    Script α → Session → Script α → Session → Prop
  | here (p : Script α) (s : Session) : Reaches perform p s p s
  | answered {q : Request} {reply : Except Fault q.Answer → Script α} {s t u : Session}
      {r : Except Fault q.Answer} {p : Script α} (answer : perform q s = some (r, t))
      (rest : Reaches perform (reply r) t p u) : Reaches perform (.ask q reply) s p u

/-- A match whose action has been called and has not returned. -/
structure ActiveMatch where
  stream : Nat
  rule : Int
  span : Span

/-- How the innermost step fails: no rule matches, or an action raises an error of its own. -/
inductive InnermostFailure
  | unmatched (stream : Nat)
  | raised (x : Fault)

namespace Run

/-- A stream on a cursor is about to take a step, after matches that it has skipped. -/
def AboutToStep (depth i j : Nat) (s : Session) (a : Stream) (t : Session) : Prop :=
  ∃ spans : List Span, spans.length < depth ∧
    Steps (perform depth) j s (spans.map .skipped) t ∧
    t.stream? j = some a ∧ a.answer? = none ∧ a.cursor = i

/-- Asking a stream on cursor `i` for a token comes to a failing step within nested matches, outermost
first; `found` is the cursor as the failure finds it. The action of each match that is not the innermost
has asked the stream of the next one for a token, and it lets the error of that pass. -/
inductive Breaks (i : Nat) :
    Nat → Nat → Session → List ActiveMatch → InnermostFailure → Cursor → Prop
  | unmatched {depth j : Nat} {s t : Session} {a : Stream} {character : Option Char} {location : Span}
      (turn : AboutToStep depth i j s a t)
      (none : (a.table.attempt (t.cursor i)).1 = .unmatched character location) :
      Breaks i (depth + 1) j s [] (.unmatched j) (t.cursor i)
  | raised {depth j : Nat} {s t u : Session} {a : Stream} {rule : CompiledRule} {text : List Char}
      {span : Span} {x : Fault} (turn : AboutToStep depth i j s a t)
      (fired : (a.table.attempt (t.cursor i)).1 = .fired rule text span)
      (call : rule.invoke (perform depth) text i span a.context (t.tried a.table i) =
        some (.error x, u)) (ordinary : x.isOrdinary) :
      Breaks i (depth + 1) j s [⟨j, rule.priority, span⟩] (.raised x) (u.cursor i)
  | within {depth j k : Nat} {s t v : Session} {a : Stream} {rule : CompiledRule} {text : List Char}
      {span : Span} {p : Script Value} {reply : Except Fault (Option (Value × Span)) → Script Value}
      {actives : List ActiveMatch} {failure : InnermostFailure} {found : Cursor}
      (turn : AboutToStep depth i j s a t)
      (fired : (a.table.attempt (t.cursor i)).1 = .fired rule text span)
      (script : rule.script text i span a.context = .ok p)
      (asks : p.Reaches (perform depth) (t.tried a.table i) (.ask (.next k) reply) v)
      (passes : ∀ f, reply (.error f) = .fail f)
      (inner : Breaks i depth k v actives failure found) :
      Breaks i (depth + 1) j s (⟨j, rule.priority, span⟩ :: actives) failure found

end Run

/-- An error and those that it was caused by, one after the other. -/
def Fault.originals : Fault → List Fault
  | action n cause location rule caused => action n cause location rule caused :: cause.originals
  | f => [f]

/-- The error of the first match, caused by that of the next, and so on up to an error within the last. -/
def Fault.Wraps : Fault → List ActiveMatch → Fault → Prop
  | f, [], inner => f = inner
  | action _ cause location rule caused, l :: ls, inner =>
    location = l.span ∧ rule = l.rule ∧ caused = true ∧ cause.Wraps ls inner
  | _, _ :: _, _ => False

theorem Fault.wraps_nil (f : Fault) : f.Wraps [] f := by
  cases f <;> rfl

/-- The error of the innermost step, where no rule matches about the character at the cursor. -/
def InnermostFailure.Is (found : Cursor) : InnermostFailure → Fault → Prop
  | unmatched _, f => ∃ n, f = .unmatched n (found.peek.map ([·])) found.location
  | raised x, f => f = x

/-- The streams of active matches and the one in which no rule matches. -/
def InnermostFailure.streams (actives : List ActiveMatch) : InnermostFailure → List Nat
  | unmatched j => actives.map (·.stream) ++ [j]
  | raised _ => actives.map (·.stream)

namespace Script.Reaches

variable {α : Type} {p q : Script α} {s t : Session} {perform : Performer}

/-- What is left to run is what the whole comes to. -/
theorem run_eq (h : Reaches perform p s q t) : p.run perform s = q.run perform t := by
  induction h with
  | here p s => rfl
  | @answered q reply s t u r p answer rest ih =>
    have houtcome : (perform q).outcome s = some (.ok r, t) := by
      rw [Run.outcome_apply, answer]
      rfl
    exact (Run.bind_of_ok houtcome _).trans ih

theorem works {depth : Nat} (h : Reaches (Run.perform depth) p s q t) : s.Works t := by
  induction h with
  | here p s => exact .refl
  | answered answer rest ih => exact (Run.moves_perform depth _ answer).trans ih

end Script.Reaches

/-- A script that lets an error pass ends with it. -/
theorem Script.run_of_passes {α : Type} {perform : Performer} {q : Request}
    {reply : Except Fault q.Answer → Script α} {s t : Session} {f : Fault}
    (passes : ∀ f, reply (.error f) = .fail f) (h : perform q s = some (.error f, t)) :
    (Script.ask q reply).run perform s = some (.error f, t) := by
  have houtcome : (perform q).outcome s = some (.ok (.error f), t) := by
    rw [Run.outcome_apply, h]
    rfl
  have hrun : (Script.ask q reply).run perform s = (reply (.error f)).run perform t :=
    Run.bind_of_ok houtcome _
  rw [hrun, passes]
  rfl

theorem CompiledRule.invoke_of_script {r : CompiledRule} {text : List Char} {i : Nat} {span : Span}
    {context : Arguments} {p : Script Value} (h : r.script text i span context = .ok p)
    (perform : Performer) (s : Session) :
    r.invoke perform text i span context s = p.run perform s := by
  unfold invoke
  rw [h]
  rfl

/-- What is consumed on the way moves a cursor forward. -/
theorem Session.Leads.byte_le {s t : Session} {i : Nat} (h : s.Leads t) (hi : i < s.cursors.size) :
    i < t.cursors.size ∧ ((s.cursor i).place.byte : Int) ≤ (t.cursor i).place.byte := by
  obtain ⟨ht, es, -, hmoves⟩ := h.moves hi
  exact ⟨ht, hmoves.tiles.le⟩

/-- Only a cursor at the end is marked. -/
theorem Cursor.markIfEmpty_of_ne_nil {c : Cursor} (h : c.ahead ≠ []) : c.markIfEmpty = c := by
  rw [markIfEmpty, isEmpty, List.isEmpty_eq_false_iff.mpr h, Bool.or_false]

namespace RuleTable

variable {table : RuleTable} {perform : Performer} {i : Nat} {context : Arguments} {s u : Session}

/-- A cursor at which no rule matches stays as it is. -/
theorem attempt_snd_of_unmatched {c : Cursor} {character : Option Char} {location : Span}
    (h : (table.attempt c).1 = .unmatched character location) : (table.attempt c).2 = c := by
  rcases table.attempt_cases c with ⟨rule, n, -, -, -, ha⟩ | ⟨-, hd⟩
  · rw [ha] at h
    cases h
  · obtain ⟨x, hx, -, -⟩ := attempt_unmatched h
    refine hd.trans (Cursor.markIfEmpty_of_ne_nil fun hnil => ?_)
    rw [hnil] at hx
    cases hx

/-- The bytes of a match lie between the cursor before it and the cursor after it. -/
theorem bytes_of_fired {rule : CompiledRule} {text : List Char} {span : Span}
    (fired : (table.attempt (s.cursor i)).1 = .fired rule text span) (hi : i < s.cursors.size) :
    span.bytes.1 = (s.cursor i).place.byte ∧ span.bytes.1 ≤ span.bytes.2 ∧
      ((s.tried table i).cursor i).place.byte = span.bytes.2 := by
  obtain ⟨n, -, -, -, -, rfl, hafter⟩ := of_fired fired
  rw [Session.cursor_tried_self hi, hafter]
  have hbyte := (s.cursor i).byte_move n
  refine ⟨rfl, ?_, rfl⟩
  simp only [Cursor.spanOf, Span.between]
  omega

/-- A step whose action raises an error fails with it as the cause. -/
theorem stepWith_of_error {rule : CompiledRule} {text : List Char} {span : Span} {x : Fault}
    (fired : (table.attempt (s.cursor i)).1 = .fired rule text span)
    (call : rule.invoke perform text i span context (s.tried table i) = some (.error x, u))
    (ordinary : x.isOrdinary) : table.stepWith perform i context s =
      some (.ok (.failed (.action u.nextSerial x span rule.priority true)),
        { u with nextSerial := u.nextSerial + 1 }) := by
  rw [stepWith_apply, fired]
  dsimp only
  rw [call]
  dsimp only
  rw [if_pos ordinary]

end RuleTable

namespace Run

variable {perform : Performer} {depth i j : Nat} {s t u : Session} {a : Stream}

/-- Asking for a token passes over matches that are skipped. -/
theorem nextWith_of_skips {spans : List Span} (h : Steps perform j s (spans.map .skipped) t)
    (turns : Nat) : nextWith perform j (spans.length + turns) s = nextWith perform j turns t := by
  induction spans generalizing s with
  | nil =>
    cases h
    rw [List.length_nil, Nat.zero_add]
  | cons span spans ih =>
    cases h with
    | cons first rest =>
      rw [List.length_cons, Nat.add_right_comm, nextWith_succ, first]
      exact ih rest

/-- A stream whose step fails raises the error and remembers it. -/
theorem AboutToStep.next_of_failed (h : AboutToStep depth i j s a t) {f : Fault}
    (hstep : a.table.stepWith (Run.perform depth) i a.context t = some (.ok (.failed f), u)) :
    ∃ b, u.stream? j = some b ∧
      Run.perform (depth + 1) (.next j) s =
        some (.error f, u.setStream j { b with error := some f }) := by
  obtain ⟨spans, hturns, hskips, ha, hlive, rfl⟩ := h
  have hworks := works_stepWith (moves_perform depth) (.inr (.inr ⟨j, a, ha, rfl⟩)) hstep
  obtain ⟨b, hb, -⟩ := hworks.stream_kept ha
  obtain ⟨turns, hdepth⟩ := Nat.exists_eq_add_of_lt hturns
  refine ⟨b, hb, ?_⟩
  calc nextWith (Run.perform depth) j depth s
      = nextWith (Run.perform depth) j (spans.length + (turns + 1)) s := by
        rw [← Nat.add_assoc, ← hdepth]
    _ = nextWith (Run.perform depth) j (turns + 1) t := nextWith_of_skips hskips _
    _ = _ := by
        rw [nextWith_succ, streamStepWith_of_live ha hlive, hstep]
        dsimp only
        rw [hb]
        rfl

/-- A stream that is about to take a step has moved its cursor forward at most. -/
theorem AboutToStep.byte_le (h : AboutToStep depth i j s a t) (hi : i < s.cursors.size) :
    i < t.cursors.size ∧ ((s.cursor i).place.byte : Int) ≤ (t.cursor i).place.byte := by
  obtain ⟨spans, -, hskips, -⟩ := h
  exact (works_of_steps hskips).leads.byte_le hi

/-- What is left of nested matches after the innermost step has failed: an error for each, a stream that
has failed with it, and the cursor. -/
structure Report (i : Nat) (s t : Session) (f : Fault) (actives : List ActiveMatch)
    (failure : InnermostFailure) (found : Cursor) : Prop where
  wraps : ∃ inner, f.Wraps actives inner ∧ failure.Is found inner
  failed : ∀ k ∈ failure.streams actives, ∃ g b,
    ((failure.streams actives).zip f.originals).lookup k = some g ∧
      t.stream? k = some b ∧ b.error = some g
  ranges : ∀ l ∈ actives, ((s.cursor i).place.byte : Int) ≤ l.span.bytes.1 ∧
    l.span.bytes.1 ≤ l.span.bytes.2 ∧ l.span.bytes.2 ≤ found.place.byte
  disjoint : (actives.map fun l => l.span.bytes).Pairwise fun q r => q.2 ≤ r.1
  forward : ((s.cursor i).place.byte : Int) ≤ found.place.byte
  cursor : t.cursor i = found

theorem streams_cons (failure : InnermostFailure) (l : ActiveMatch) (actives : List ActiveMatch) :
    failure.streams (l :: actives) = l.stream :: failure.streams actives := by
  cases failure <;> rfl

/-- The first stream has been noted to have failed, and the others had been before. -/
theorem failed_setStream {b : Stream} (hb : u.stream? j = some b) {f : Fault} {js : List Nat}
    {fs : List Fault} (hrest : ∀ k ∈ js, ∃ g d, (js.zip fs).lookup k = some g ∧
      u.stream? k = some d ∧ d.error = some g) :
    ∀ k ∈ j :: js, ∃ g d, ((j :: js).zip (f :: fs)).lookup k = some g ∧
      (u.setStream j { b with error := some f }).stream? k = some d ∧ d.error = some g := by
  intro k hk
  by_cases hkj : k = j
  · subst hkj
    exact ⟨f, _, List.lookup_cons_self, stream_setStream hb _, rfl⟩
  · have hne : (k == j) = false := beq_eq_false_iff_ne.mpr hkj
    obtain ⟨g, d, hg, hd, herror⟩ := hrest k ((List.mem_cons.mp hk).resolve_left hkj)
    refine ⟨g, d, ?_, ?_, herror⟩
    · rw [List.zip_cons_cons, List.lookup_cons, hne]
      exact hg
    · simp only [Session.setStream, Session.stream?] at hd ⊢
      rwa [Array.getElem?_setIfInBounds_ne (Ne.symm hkj)]

/-- The innermost failure is reported, and each match around it adds its error. -/
theorem report_of_breaks {actives : List ActiveMatch} {failure : InnermostFailure} {found : Cursor}
    (h : Breaks i depth j s actives failure found) (hi : i < s.cursors.size) :
    ∃ f t, Run.perform depth (.next j) s = some (.error f, t) ∧ f.isOrdinary ∧
      Report i s t f actives failure found := by
  induction h with
  | @unmatched depth j s t a character location turn none =>
    obtain ⟨ht, hforward⟩ := turn.byte_le hi
    have hstep : a.table.stepWith (Run.perform depth) i a.context t =
        some (.ok (.failed (.unmatched t.nextSerial (character.map ([·])) location)),
          { t.tried a.table i with nextSerial := t.nextSerial + 1 }) := by
      rw [RuleTable.stepWith_apply, none]
    obtain ⟨b, hb, hnext⟩ := turn.next_of_failed hstep
    refine ⟨_, _, hnext, rfl, ⟨_, rfl, t.nextSerial, ?_⟩, ?_, List.forall_mem_nil _, .nil, hforward, ?_⟩
    · obtain ⟨x, hx, rfl, rfl⟩ := RuleTable.attempt_unmatched none
      rw [Cursor.peek, hx]
      rfl
    · exact failed_setStream hb (List.forall_mem_nil _)
    · exact (Session.cursor_tried_self ht a.table).trans (RuleTable.attempt_snd_of_unmatched none)
  | @raised depth j s t u a rule text span x turn fired call ordinary =>
    obtain ⟨ht, hforward⟩ := turn.byte_le hi
    have hstep := RuleTable.stepWith_of_error fired call ordinary
    obtain ⟨b, hb, hnext⟩ := turn.next_of_failed hstep
    obtain ⟨hstart, hspan, hend⟩ := RuleTable.bytes_of_fired fired ht
    have htried : i < (t.tried a.table i).cursors.size := by rwa [Session.size_tried]
    have hworks : (t.tried a.table i).Works u :=
      moves_invoke (moves_perform depth) rule text i span a.context call
    obtain ⟨-, hcalled⟩ := hworks.leads.byte_le htried
    refine ⟨_, _, hnext, rfl, ⟨x, ⟨rfl, rfl, rfl, x.wraps_nil⟩, rfl⟩, ?_, fun l hl => ?_,
      List.pairwise_singleton _ _, ?_, rfl⟩
    · exact failed_setStream hb (List.forall_mem_nil _)
    · obtain rfl := List.mem_singleton.mp hl
      dsimp only
      omega
    · omega
  | @within depth j k s t v a rule text span p reply actives failure found turn fired script asks
      passes inner ih =>
    obtain ⟨ht, hforward⟩ := turn.byte_le hi
    obtain ⟨hstart, hspan, hend⟩ := RuleTable.bytes_of_fired fired ht
    have htried : i < (t.tried a.table i).cursors.size := by rwa [Session.size_tried]
    obtain ⟨hv, hasked⟩ := asks.works.leads.byte_le htried
    obtain ⟨f, u, hinner, hordinary, report⟩ := ih hv
    have hcall : rule.invoke (Run.perform depth) text i span a.context (t.tried a.table i) =
        some (.error f, u) := by
      rw [CompiledRule.invoke_of_script script, asks.run_eq]
      exact Script.run_of_passes passes hinner
    obtain ⟨b, hb, hnext⟩ := turn.next_of_failed (RuleTable.stepWith_of_error fired hcall hordinary)
    obtain ⟨innermost, hwraps, his⟩ := report.wraps
    refine ⟨_, _, hnext, rfl, ⟨innermost, ⟨rfl, rfl, rfl, hwraps⟩, his⟩, ?_,
      List.forall_mem_cons.mpr ⟨?_, fun l hl => ?_⟩, ?_, ?_, report.cursor⟩
    · rw [streams_cons]
      exact failed_setStream hb report.failed
    · have hreached := report.forward
      dsimp only
      omega
    · obtain ⟨hlow, hrange⟩ := report.ranges l hl
      exact ⟨by omega, hrange⟩
    · rw [List.map_cons]
      refine List.pairwise_cons.mpr ⟨fun r hr => ?_, report.disjoint⟩
      obtain ⟨l, hl, rfl⟩ := List.mem_map.mp hr
      obtain ⟨hlow, -⟩ := report.ranges l hl
      dsimp only
      omega
    · have hreached := report.forward
      omega

end Run

/-- Errors survive nesting. To whatever depth matches are nested on one cursor, each in the action of the
one before it, which reads the next stream and lets its errors pass: if the innermost step fails, the
outermost stream raises an error that was caused by an error for each active match, from the outermost to
the innermost and with the rule and the span of the match, and last by that of the innermost step. Each of
the streams has failed with its own of these errors, or with the outermost one if it has several. The
ranges of the matches follow each other, and the cursor stands where the failure found it. -/
theorem errors_survive_nesting {i depth j : Nat} {s : Session} {actives : List ActiveMatch}
    {failure : InnermostFailure} {found : Cursor} (hi : i < s.cursors.size)
    (h : Run.Breaks i depth j s actives failure found) :
    ∃ f inner t, Run.perform depth (.next j) s = some (.error f, t) ∧
      f.Wraps actives inner ∧ failure.Is found inner ∧
      (∀ k ∈ failure.streams actives, ∃ g b,
        ((failure.streams actives).zip f.originals).lookup k = some g ∧
          t.stream? k = some b ∧ b.error = some g) ∧
      (∀ l ∈ actives, l.span.bytes.1 ≤ l.span.bytes.2 ∧ l.span.bytes.2 ≤ found.place.byte) ∧
      ((actives.map fun l => l.span.bytes).Pairwise fun q r => q.2 ≤ r.1) ∧
      t.cursor i = found := by
  obtain ⟨f, t, hrun, -, report⟩ := Run.report_of_breaks h hi
  obtain ⟨inner, hwraps, his⟩ := report.wraps
  exact ⟨f, inner, t, hrun, hwraps, his, report.failed, fun l hl => (report.ranges l hl).2,
    report.disjoint, report.cursor⟩

open Script (request)

/-- Opens a lexer on the cursor and asks it for one token. -/
def readOn (lexer : String) : Action where
  display := "readOn"
  signature := Action.standardSignature 2
  body b := do
    let stream ← request (.openStream lexer (b.cursor?.getD 0) [])
    let _ ← request (.next stream)
    return .null

/-- A bracket, behind which another lexer reads on. -/
def bracketRule (code : Nat) (source : List Char) (lexer : String) : CompiledRule :=
  ⟨0, .regex .pattern source ⟨.char code .exact, 1⟩, readOn lexer, ⟨2, [], [], false⟩⟩

def squareRule : CompiledRule := bracketRule 91 ['\\', '['] "round"

def roundRule : CompiledRule := bracketRule 40 ['\\', '('] "letter"

def letterOnly : RuleTable := ⟨[bracketRule 97 ['a'] "letter"]⟩

def bracketsText : List Char := ['[', '(', 'x']

def squareSpan : Span := ⟨⟨1, 1⟩, ⟨1, 1⟩, (0, 1)⟩

def roundSpan : Span := ⟨⟨1, 2⟩, ⟨1, 2⟩, (1, 2)⟩

/-- A stream before two brackets. -/
def squareSession : Session :=
  { Session.empty with
    cursors := #[.ofText bracketsText]
    streams := #[⟨⟨[squareRule]⟩, 0, [], false, none⟩]
    lexers := [("round", ⟨[roundRule]⟩), ("letter", letterOnly)] }

/-- Behind the first bracket, whose action has opened a stream. -/
def roundSession : Session :=
  { squareSession with
    cursors := #[(Cursor.ofText bracketsText).move 1]
    streams := squareSession.streams.push ⟨⟨[roundRule]⟩, 0, [], false, none⟩
    journal := [⟨0, .rule .pattern 0, ['['], squareSpan⟩] }

/-- Behind the second bracket. -/
def letterSession : Session :=
  { roundSession with
    cursors := #[(Cursor.ofText bracketsText).move 2]
    streams := roundSession.streams.push ⟨letterOnly, 0, [], false, none⟩
    journal := ⟨0, .rule .pattern 0, ['('], roundSpan⟩ :: roundSession.journal }

/-- Two brackets are open where a letter is missing. -/
theorem errors_survive_nesting_brackets :
    0 < squareSession.cursors.size ∧
    Run.Breaks 0 4 0 squareSession [⟨0, 0, squareSpan⟩, ⟨1, 0, roundSpan⟩] (.unmatched 2)
      (letterSession.cursor 0) ∧
    ∃ f inner t, Run.perform 4 (.next 0) squareSession = some (.error f, t) ∧
      f.Wraps [⟨0, 0, squareSpan⟩, ⟨1, 0, roundSpan⟩] inner ∧
      (∃ n, inner = .unmatched n (some ['x']) (.spot ⟨1, 3⟩ 2)) ∧
      (∀ k ∈ [0, 1, 2], ∃ g b, ([0, 1, 2].zip f.originals).lookup k = some g ∧
        t.stream? k = some b ∧ b.error = some g) ∧
      t.cursor 0 = (Cursor.ofText bracketsText).move 2 := by
  have letter : Run.Breaks 0 2 2 letterSession [] (.unmatched 2) (letterSession.cursor 0) :=
    .unmatched (a := ⟨letterOnly, 0, [], false, none⟩) ⟨[], by decide, .nil _, rfl, rfl, rfl⟩ rfl
  have round : Run.Breaks 0 3 1 roundSession [⟨1, 0, roundSpan⟩] (.unmatched 2)
      (letterSession.cursor 0) := by
    have turn : Run.AboutToStep 2 0 1 roundSession ⟨⟨[roundRule]⟩, 0, [], false, none⟩ roundSession :=
      ⟨[], by decide, .nil _, rfl, rfl, rfl⟩
    have fired : (RuleTable.attempt ⟨[roundRule]⟩ (roundSession.cursor 0)).1 =
        .fired roundRule ['('] roundSpan := rfl
    exact .within turn fired rfl (.answered (t := letterSession) rfl (.here _ _)) (fun _ => rfl) letter
  have square : Run.Breaks 0 4 0 squareSession [⟨0, 0, squareSpan⟩, ⟨1, 0, roundSpan⟩] (.unmatched 2)
      (letterSession.cursor 0) := by
    have turn : Run.AboutToStep 3 0 0 squareSession ⟨⟨[squareRule]⟩, 0, [], false, none⟩
        squareSession := ⟨[], by decide, .nil _, rfl, rfl, rfl⟩
    have fired : (RuleTable.attempt ⟨[squareRule]⟩ (squareSession.cursor 0)).1 =
        .fired squareRule ['['] squareSpan := rfl
    exact .within turn fired rfl (.answered (t := roundSession) rfl (.here _ _)) (fun _ => rfl) round
  obtain ⟨f, inner, t, hrun, hwraps, his, hfailed, -, -, hcursor⟩ :=
    errors_survive_nesting (by decide) square
  exact ⟨by decide, square, f, inner, t, hrun, hwraps, his, hfailed, hcursor⟩

end FirstMatch
