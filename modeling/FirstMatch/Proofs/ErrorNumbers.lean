import FirstMatch.Proofs.StreamFrames
import Mathlib.Data.List.Forall2
import Mathlib.Logic.Relator
import Mathlib.Order.Basic

/-!
The numbers of errors are names. Two runs may number the errors of the engine differently, as long as the
numbers of the one stand for those of the other, one for one. Where no action makes anything of a number
but to tell errors apart, such runs come to the same results under other numbers.
-/

namespace FirstMatch

open Relator (BiUnique)

/-- Numbers of one run stand for numbers of another. -/
abbrev Renaming := Nat → Nat → Prop

namespace Renaming

/-- One more number stands for one more. -/
def extend (R : Renaming) (m n : Nat) : Renaming := fun a b => R a b ∨ a = m ∧ b = n

/-- The numbers below a bound stand for themselves. -/
def below (bound : Nat) : Renaming := fun a b => a = b ∧ a < bound

theorem le_extend (R : Renaming) (m n : Nat) : R ≤ R.extend m n := fun _ _ h => .inl h

theorem extend_self (R : Renaming) (m n : Nat) : R.extend m n m n := .inr ⟨rfl, rfl⟩

theorem unique_below (bound : Nat) : BiUnique (below bound) :=
  ⟨fun _ _ _ h g => h.1.trans g.1.symm, fun _ _ _ h g => h.1.symm.trans g.1⟩

/-- Numbers that stand for none so far may be given to each other. -/
theorem unique_extend {R : Renaming} (h : BiUnique R) {m n : Nat} (hm : ∀ b, ¬R m b)
    (hn : ∀ a, ¬R a n) : BiUnique (R.extend m n) := by
  constructor
  · rintro a b c (hac | ⟨ha, hc⟩) (hbc | ⟨hb, hc'⟩)
    · exact h.1 hac hbc
    · exact absurd (hc' ▸ hac) (hn a)
    · exact absurd (hc ▸ hbc) (hn b)
    · exact ha.trans hb.symm
  · rintro a b c (hab | ⟨ha, hb⟩) (hac | ⟨ha', hc⟩)
    · exact h.2 hab hac
    · exact absurd (ha' ▸ hab) (hm b)
    · exact absurd (ha ▸ hac) (hm c)
    · exact hb.trans hc.symm

end Renaming

/-- The same error under another number, and its cause likewise. -/
inductive Fault.Renamed (R : Renaming) : Fault → Fault → Prop
  | unmatched {m n : Nat} (number : R m n) (character : Option (List Char)) (location : Span) :
      Renamed R (.unmatched m character location) (.unmatched n character location)
  | action {m n : Nat} {f g : Fault} (number : R m n) (cause : Renamed R f g) (location : Span)
      (rule : Int) (caused : Bool) :
      Renamed R (.action m f location rule caused) (.action n g location rule caused)
  | other (f : Fault) (unnumbered : f.serial? = none) : Renamed R f f

/-- A value that has no parts and is no error. -/
def Value.isAtom : Value → Bool
  | list _ | tuple _ | mapping _ | fault _ => false
  | _ => true

namespace Value

mutual

/-- The same value but for the numbers of the errors in it. -/
inductive Renamed (R : Renaming) : Value → Value → Prop
  | list {vs ws : List Value} (items : RenamedAll R vs ws) : Renamed R (.list vs) (.list ws)
  | tuple {vs ws : List Value} (items : RenamedAll R vs ws) : Renamed R (.tuple vs) (.tuple ws)
  | mapping {es fs : List (Value × Value)} (entries : RenamedEntries R es fs) :
      Renamed R (.mapping es) (.mapping fs)
  | fault {f g : Fault} (renamed : f.Renamed R g) : Renamed R (.fault f) (.fault g)
  | atom (v : Value) (atom : v.isAtom = true) : Renamed R v v

inductive RenamedAll (R : Renaming) : List Value → List Value → Prop
  | nil : RenamedAll R [] []
  | cons {v w : Value} {vs ws : List Value} (head : Renamed R v w) (tail : RenamedAll R vs ws) :
      RenamedAll R (v :: vs) (w :: ws)

inductive RenamedEntries (R : Renaming) : List (Value × Value) → List (Value × Value) → Prop
  | nil : RenamedEntries R [] []
  | cons {k l v w : Value} {es fs : List (Value × Value)} (key : Renamed R k l) (value : Renamed R v w)
      (tail : RenamedEntries R es fs) : RenamedEntries R ((k, v) :: es) ((l, w) :: fs)

end

end Value

/-- Lexer arguments with the same names, whose values are the same but for the numbers of errors. -/
def RenamedArguments (R : Renaming) : Arguments → Arguments → Prop :=
  List.Forall₂ fun a b => a.1 = b.1 ∧ a.2.Renamed R b.2

inductive Outcome.Renamed (R : Renaming) : Outcome → Outcome → Prop
  | emitted {v w : Value} (token : v.Renamed R w) (location : Span) :
      Renamed R (.emitted v location) (.emitted w location)
  | skipped (location : Span) : Renamed R (.skipped location) (.skipped location)
  | exhausted : Renamed R .exhausted .exhausted
  | failed {f g : Fault} (fault : f.Renamed R g) : Renamed R (.failed f) (.failed g)

/-- Results that are related, or the same error under other numbers. -/
inductive RenamedResult {α β : Type} (A : Renaming → α → β → Prop) (R : Renaming) :
    Except Fault α → Except Fault β → Prop
  | ok {a : α} {b : β} (related : A R a b) : RenamedResult A R (.ok a) (.ok b)
  | error {f g : Fault} (renamed : f.Renamed R g) : RenamedResult A R (.error f) (.error g)

namespace Request

/-- A request that passes neither values nor errors. -/
def isPlain : Request → Bool
  | openStream .. | step .. | cite _ => false
  | _ => true

/-- The same request but for the numbers of errors in what it passes. -/
inductive Renamed (R : Renaming) : Request → Request → Prop
  | plain (q : Request) (plain : q.isPlain = true) : Renamed R q q
  | openStream (lexer : String) (cursor : Nat) {c d : Arguments} (arguments : RenamedArguments R c d) :
      Renamed R (.openStream lexer cursor c) (.openStream lexer cursor d)
  | step (engine : String) (cursor : Nat) {c d : Arguments} (arguments : RenamedArguments R c d) :
      Renamed R (.step engine cursor c) (.step engine cursor d)
  | cite {f g : Fault} (renamed : f.Renamed R g) : Renamed R (.cite f) (.cite g)

/-- A token with its span, or none, and the same under other numbers. -/
def SameToken (R : Renaming) : Option (Value × Span) → Option (Value × Span) → Prop :=
  Option.Rel fun a b => a.1.Renamed R b.1 ∧ a.2 = b.2

/-- The same answer to a request but for the numbers of errors. -/
def Answered (R : Renaming) : (q r : Request) → q.Answer → r.Answer → Prop
  | .advance .., .advance .., a, b => a = b
  | .look _, .look _, a, b => a = b
  | .mark _, .mark _, a, b => a = b
  | .cursorNamed _, .cursorNamed _, a, b => a = b
  | .openText _, .openText _, a, b => a = b
  | .openStream .., .openStream .., a, b => a = b
  | .step .., .step .., o, p => o.Renamed R p
  | .streamStep _, .streamStep _, o, p => o.Renamed R p
  | .next _, .next _, a, b => SameToken R a b
  | .streamNamed _, .streamNamed _, a, b => a = b
  | .countCall _, .countCall _, a, b => a = b
  | .cite _, .cite _, _, _ => True
  | _, _, _, _ => False

/-- A request that passes neither values nor errors, and whose answer does not either. -/
def isBare : Request → Bool
  | advance .. | look _ | mark _ | cursorNamed _ | openText _ | streamNamed _ | countCall _ => true
  | _ => false

theorem isPlain_of_isBare {q : Request} (h : q.isBare = true) : q.isPlain = true := by
  cases q with
  | openStream lexer cursor context => cases h
  | step engine cursor context => cases h
  | cite fault => cases h
  | _ => rfl

theorem eq_of_answered {q : Request} (h : q.isBare = true) {a b : q.Answer}
    (hab : q.Answered R q a b) : a = b := by
  cases q with
  | openStream lexer cursor context => cases h
  | step engine cursor context => cases h
  | streamStep stream => cases h
  | next stream => cases h
  | cite fault => cases h
  | _ => exact hab

end Request

/-- Scripts that do the same under other numbers: also after answers under numbers that have been given
meanwhile, one for one. -/
inductive Script.Renamed {α β : Type} (A : Renaming → α → β → Prop) :
    Renaming → Script α → Script β → Prop
  | done {R : Renaming} {a : α} {b : β} (related : A R a b) : Renamed A R (.done a) (.done b)
  | fail {R : Renaming} {f g : Fault} (renamed : f.Renamed R g) : Renamed A R (.fail f) (.fail g)
  | ask {R : Renaming} {q r : Request} {reply : Except Fault q.Answer → Script α}
      {reply' : Except Fault r.Answer → Script β} (request : q.Renamed R r)
      (replies : ∀ S, R ≤ S → BiUnique S → ∀ a b, RenamedResult (fun S => q.Answered S r) S a b →
        Renamed A S (reply a) (reply' b)) :
      Renamed A R (.ask q reply) (.ask r reply')
  | stall {R : Renaming} : Renamed A R .stall .stall

/-- Calls that come to related results, or have the same flaw. -/
inductive SameCall {α β : Type} (A : α → β → Prop) :
    Except CallFlaw α → Except CallFlaw β → Prop
  | ok {a : α} {b : β} (related : A a b) : SameCall A (.ok a) (.ok b)
  | error (flaw : CallFlaw) : SameCall A (.error flaw) (.error flaw)

/-- The call of a rule's action takes the numbers of errors for names: with the same arguments under other
numbers it does the same under these. -/
def CompiledRule.Indifferent (r : CompiledRule) : Prop :=
  ∀ R, BiUnique R → ∀ c d, RenamedArguments R c d → ∀ text i span,
    SameCall (Script.Renamed Value.Renamed R) (r.script text i span c) (r.script text i span d)

/-- All actions of the table take the numbers of errors for names. -/
def RuleTable.Indifferent (t : RuleTable) : Prop := ∀ r ∈ t.rules, r.Indifferent

/-- A stream of the same table on the same cursor, with the same record under other numbers. -/
structure Stream.Renamed (R : Renaming) (a b : Stream) : Prop where
  table : b.table = a.table
  cursor : b.cursor = a.cursor
  context : RenamedArguments R a.context b.context
  done : b.done = a.done
  error : Option.Rel (Fault.Renamed R) a.error b.error

/-- The same session under other numbers, all of which have been given. Which errors have been reported is
noted for callers only. -/
structure Session.Renamed (R : Renaming) (s t : Session) : Prop where
  cursors : t.cursors = s.cursors
  size : t.streams.size = s.streams.size
  streams : ∀ j, Option.Rel (Stream.Renamed R) (s.stream? j) (t.stream? j)
  lexers : t.lexers = s.lexers
  engines : t.engines = s.engines
  cursorNames : t.cursorNames = s.cursorNames
  streamNames : t.streamNames = s.streamNames
  feeds : t.feeds = s.feeds
  calls : t.calls = s.calls
  journal : t.journal = s.journal
  given : ∀ m n, R m n → m < s.nextSerial ∧ n < t.nextSerial
  unique : BiUnique R
  indifferent : ∀ table, s.Holds table → table.Indifferent

theorem rel_mono {α β : Type} {A B : α → β → Prop} (hAB : ∀ a b, A a b → B a b) {x : Option α}
    {y : Option β} (h : Option.Rel A x y) : Option.Rel B x y := by
  cases h with
  | none => exact .none
  | some hab => exact .some (hAB _ _ hab)

section

variable {R S : Renaming}

theorem Fault.Renamed.mono {f g : Fault} (hRS : R ≤ S) (h : f.Renamed R g) : f.Renamed S g := by
  induction h with
  | unmatched number character location => exact .unmatched (hRS _ _ number) character location
  | action number _ location rule caused ih => exact .action (hRS _ _ number) ih location rule caused
  | other f unnumbered => exact .other f unnumbered

theorem Fault.Renamed.isOrdinary {f g : Fault} (h : f.Renamed R g) : g.isOrdinary = f.isOrdinary := by
  cases h <;> rfl

namespace Value

mutual

theorem Renamed.mono {v w : Value} (hRS : R ≤ S) : Renamed R v w → Renamed S v w
  | .list items => .list (items.mono hRS)
  | .tuple items => .tuple (items.mono hRS)
  | .mapping entries => .mapping (entries.mono hRS)
  | .fault renamed => .fault (renamed.mono hRS)
  | .atom v atom => .atom v atom

theorem RenamedAll.mono {vs ws : List Value} (hRS : R ≤ S) : RenamedAll R vs ws → RenamedAll S vs ws
  | .nil => .nil
  | .cons head tail => .cons (head.mono hRS) (tail.mono hRS)

theorem RenamedEntries.mono {es fs : List (Value × Value)} (hRS : R ≤ S) :
    RenamedEntries R es fs → RenamedEntries S es fs
  | .nil => .nil
  | .cons key value tail => .cons (key.mono hRS) (value.mono hRS) (tail.mono hRS)

end

end Value

theorem RenamedArguments.mono {c d : Arguments} (hRS : R ≤ S) (h : RenamedArguments R c d) :
    RenamedArguments S c d :=
  h.imp fun _ _ hab => ⟨hab.1, hab.2.mono hRS⟩

theorem RenamedArguments.names {c d : Arguments} (h : RenamedArguments R c d) :
    d.map (·.1) = c.map (·.1) := by
  induction h with
  | nil => rfl
  | cons hab _ ih => rw [List.map_cons, List.map_cons, hab.1, ih]

theorem Outcome.Renamed.mono {o p : Outcome} (hRS : R ≤ S) (h : o.Renamed R p) : o.Renamed S p := by
  cases h with
  | emitted token location => exact .emitted (token.mono hRS) location
  | skipped location => exact .skipped location
  | exhausted => exact .exhausted
  | failed fault => exact .failed (fault.mono hRS)

theorem Outcome.renamed_ofResult {v w : Value} (h : v.Renamed R w) (span : Span) :
    (ofResult v span).Renamed R (ofResult w span) := by
  cases h with
  | atom v atom =>
    cases v with
    | skip => exact .skipped span
    | _ => exact .emitted (.atom _ atom) span
  | list items => exact .emitted (.list items) span
  | tuple items => exact .emitted (.tuple items) span
  | mapping entries => exact .emitted (.mapping entries) span
  | fault renamed => exact .emitted (.fault renamed) span

theorem RenamedResult.mono {α β : Type} {A : Renaming → α → β → Prop} {x : Except Fault α}
    {y : Except Fault β} (hA : ∀ a b, A R a b → A S a b) (hRS : R ≤ S) (h : RenamedResult A R x y) :
    RenamedResult A S x y := by
  cases h with
  | ok related => exact .ok (hA _ _ related)
  | error renamed => exact .error (renamed.mono hRS)

theorem Stream.Renamed.mono {a b : Stream} (hRS : R ≤ S) (h : a.Renamed R b) : a.Renamed S b :=
  { h with
    context := h.context.mono hRS
    error := rel_mono (fun _ _ => Fault.Renamed.mono hRS) h.error }

end

end FirstMatch
