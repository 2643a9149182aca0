import FirstMatch.Outcome
import FirstMatch.Signature

/-!
Scripts: what an action does, as a tree of requests. A script ends with a result or an error, or asks
for something and goes on with the answer, which may be an error too. Cursors and streams are named by
number. Loops are unrolled; a script that has used up its turns stalls and has no result.
-/

namespace FirstMatch

/-- What a script may ask for while it runs. -/
inductive Request
  | advance (cursor : Nat) (n : Int)
  | look (cursor : Nat)
  | mark (cursor : Nat)
  | cursorNamed (name : String)
  | openText (text : List Char)
  | openStream (lexer : String) (cursor : Nat) (context : Arguments)
  | step (engine : String) (cursor : Nat) (context : Arguments)
  | streamStep (stream : Nat)
  | next (stream : Nat)
  | streamNamed (name : String)
  | countCall (action : Nat)
  | cite (fault : Fault)

/-- The type of the answer to a request. -/
@[reducible] def Request.Answer : Request → Type
  | advance .. => Place
  | look _ => Cursor
  | mark _ => Bool
  | cursorNamed _ | openText _ | openStream .. | streamNamed _ | countCall _ => Nat
  | step .. | streamStep _ => Outcome
  | next _ => Option (Value × Span)
  | cite _ => Unit

inductive Script (α : Type) : Type
  | done (a : α)
  | fail (fault : Fault)
  | ask (request : Request) (reply : Except Fault request.Answer → Script α)
  | stall

namespace Script

def bind {α β : Type} : Script α → (α → Script β) → Script β
  | done a, k => k a
  | fail f, _ => fail f
  | ask q reply, k => ask q fun answer => (reply answer).bind k
  | stall, _ => stall

instance : Monad Script where
  pure := done
  bind := bind

/-- Asks for something; an error ends the script. -/
def request (q : Request) : Script q.Answer :=
  ask q fun answer =>
    match answer with
    | .ok a => done a
    | .error f => fail f

/-- Goes on with another script where this one would end with an ordinary error. -/
def orElse {α : Type} : Script α → Script α → Script α
  | done a, _ => done a
  | fail f, other => if f.isOrdinary then other else fail f
  | ask q reply, other => ask q fun answer => (reply answer).orElse other
  | stall, _ => stall

/-- Runs a loop of at most `turns` turns; a turn answers with the state of the next turn or with the
result. -/
def iterate {σ α : Type} (turn : σ → Script (σ ⊕ α)) : Nat → σ → Script α
  | 0, _ => stall
  | turns + 1, s =>
    (turn s).bind fun
      | .inl t => iterate turn turns t
      | .inr a => done a

end Script

end FirstMatch
