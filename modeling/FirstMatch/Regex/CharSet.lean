import FirstMatch.Regex.Escape

/-!
Sets of characters in brackets. A closing bracket that comes first is a member; a hyphen between two
characters makes a range, and one that comes last is a member.
-/

namespace FirstMatch.Regex.Reader

def setToken : Token → Reader Meaning
  | .plain c => do
    if c = '$' then note .member
    return .code c.toNat
  | .escape c => setEscape c

/-- An anchor or a reference has no meaning in a set and does not occur there. -/
def setItem (ascii : Bool) : Meaning → List SetItem
  | .code n => [.single n]
  | .named kind negated => [.named ⟨kind, negated, ascii⟩]
  | .anchor _ | .reference _ => []

/-- The members from here to the closing bracket; `start` is where the set opened, and `items` are
the members before, latest first. -/
def setItems (ascii : Bool) (start : Nat) : Nat → List SetItem → Reader (List SetItem)
  | 0, _ => throw .tooDeep
  | fuel + 1, items => do
    match ← next with
    | none => failAt .unterminatedSet start
    | some this =>
      if this = .plain ']' ∧ items ≠ [] then return items.reverse
      else
        let low ← setToken this
        if ← accept '-' then
          match ← next with
          | none => failAt .unterminatedSet start
          | some that =>
            if that = .plain ']' then
              return (items.reverse ++ setItem ascii low ++ [.single 45])
            else
              let high ← setToken that
              let refuse := failBack (.badRange this.text that.text)
                (this.text.length + 1 + that.text.length)
              match low, high with
              | .code lo, .code hi =>
                if hi < lo then refuse
                else setItems ascii start fuel (.range lo hi :: items)
              | _, _ => refuse
        else setItems ascii start fuel (setItem ascii low ++ items)

/-- A set whose opening bracket has just been read. -/
def charSet (flags : List Flag) : Reader Regex := do
  let start := (← tell) - 1
  let negated ← accept '^'
  let items ← setItems (flags.contains .ascii) start ((← get).rest.length + 1) []
  return ofMembers (caseRule flags) negated items

end FirstMatch.Regex.Reader
