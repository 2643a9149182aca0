import FirstMatch.Place

/-!
The span of a match: the points of its first and its last character, and its range of bytes, whose
end is exclusive. A span of no characters stops where it starts.
-/

namespace FirstMatch

/-- A line and a column. -/
structure Point where
  line : Int
  col : Int
deriving DecidableEq, Inhabited

structure Span where
  start : Point
  stop : Point
  bytes : Int × Int
deriving DecidableEq, Inhabited

def Place.point (p : Place) : Point := ⟨p.line, p.col⟩

namespace Point

def text (p : Point) : String := s!"{p.line}:{p.col}"

def display (p : Point) : String := s!"({p.line}, {p.col})"

end Point

namespace Span

/-- The span without characters at a point. -/
def spot (p : Point) (byte : Int) : Span := ⟨p, p, (byte, byte)⟩

/-- The span of a match that begins at `first`, whose last character is at `last`, and that leaves
the text at `after`. -/
def between (first last after : Place) : Span :=
  ⟨first.point, last.point, (first.byte, after.byte)⟩

/-- A span in messages: one point when it stops where it starts. -/
def text (s : Span) : String :=
  if s.start = s.stop then s.start.text else s!"{s.start.text}-{s.stop.text}"

def display (s : Span) : String :=
  s!"SrcLoc(start={s.start.display}, end={s.stop.display}, byte_range=({s.bytes.1}, {s.bytes.2}))"

end Span

/-- The span without characters at a place. -/
def Place.spot (p : Place) : Span := Span.spot p.point p.byte

end FirstMatch
