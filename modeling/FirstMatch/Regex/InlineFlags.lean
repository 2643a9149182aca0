import FirstMatch.Regex.Reader

/-!
Flags in a pattern: a group of them at the start of the pattern sets them for all of it, a group with
a colon sets or unsets them for its own body.
-/

namespace FirstMatch.Regex

inductive FlagGroup
  | whole (on : List Flag)
  | body (on off : List Flag)
deriving DecidableEq

namespace Reader

def isLetter : Token → Bool
  | .plain c => Unicode.isLetter c.toNat
  | .escape _ => false

/-- Refuses what stands where a flag or the end of the flags should. -/
def refuseFlag {α : Type} (t : Token) (missing : Problem) : Reader α :=
  failBack (if isLetter t then .unknownFlag else missing) t.text.length

/-- The flags turned on, beginning with `flag`, and the token after them. -/
def flagsOn : Nat → Flag → List Flag → Reader (List Flag × Token)
  | 0, _, _ => throw .tooDeep
  | fuel + 1, flag, before => do
    let on := before ++ [flag]
    if flag = .locale then failBack .localeFlag 0
    else if flag.isAlphabet && on.any (fun f => f.isAlphabet && f != flag) then
      failBack .alphabetFlags 0
    else
      match ← next with
      | none => failBack .missingFlagEnd 0
      | some t =>
        if t = .plain ')' ∨ t = .plain '-' ∨ t = .plain ':' then return (on, t)
        else match t.flag with
          | some f => flagsOn fuel f on
          | none => refuseFlag t .missingFlagEnd

/-- The flags turned off, beginning with `flag`, up to the colon. -/
def flagsOff : Nat → Flag → List Flag → Reader (List Flag)
  | 0, _, _ => throw .tooDeep
  | fuel + 1, flag, before => do
    if flag.isAlphabet then failBack .alphabetOff 0
    else
      match ← next with
      | none => failBack .missingColon 0
      | some t =>
        if t = .plain ':' then return before ++ [flag]
        else match t.flag with
          | some f => flagsOff fuel f (before ++ [flag])
          | none => refuseFlag t .missingColon

/-- What follows the flags turned on: a colon, or a hyphen and the flags turned off. -/
def flagBody (fuel : Nat) (on : List Flag) (t : Token) : Reader FlagGroup := do
  if on.contains .template then failBack .templateOn 1
  else if t = .plain '-' then
    match ← next with
    | none => failBack .missingFlag 0
    | some u =>
      match u.flag with
      | none => refuseFlag u .missingFlag
      | some f =>
        let off ← flagsOff fuel f []
        if off.contains .template then failBack .templateOff 1
        else if on.any off.contains then failBack .flagOnAndOff 1
        else return .body on off
  else return .body on []

/-- A group of flags whose first token, a flag or a hyphen, has just been read. -/
def flagGroup (t : Token) : Reader FlagGroup := do
  let fuel := (← get).rest.length + 1
  match t.flag with
  | some f =>
    let (on, u) ← flagsOn fuel f []
    if u = .plain ')' then return .whole on else flagBody fuel on u
  | none => flagBody fuel [] t

end Reader

end FirstMatch.Regex
