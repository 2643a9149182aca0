/-!
The kinds of rules: those with a pattern, and the three sentinels that stand in place of one.
-/

namespace FirstMatch

/-- `wildcard` matches any single character, `whitespace` a single blank, and `eof` matches once,
without characters, when the input is exhausted. -/
inductive RuleKind
  | pattern
  | wildcard
  | eof
  | whitespace
deriving DecidableEq

namespace RuleKind

def sentinels : List RuleKind := [wildcard, eof, whitespace]

def name : RuleKind → String
  | pattern => "PATTERN"
  | wildcard => "WILDCARD"
  | eof => "EOF"
  | whitespace => "WHITESPACE"

def number : RuleKind → Nat
  | pattern => 1
  | wildcard => 2
  | eof => 3
  | whitespace => 4

def ofName? (s : String) : Option RuleKind :=
  [pattern, wildcard, eof, whitespace].find? fun k => k.name == s

def display (k : RuleKind) : String := s!"<RuleKind.{k.name}: {k.number}>"

end RuleKind

end FirstMatch
