/-! Places in a source text. Lines and columns count from one, columns in characters. -/
namespace Fragment.Source

/-- A position. -/
structure Position where
  line : Nat
  column : Nat
  deriving DecidableEq

/-- The position after a character. -/
def Position.next (p : Position) (c : Char) : Position :=
  if c = '\n' then ⟨p.line + 1, 1⟩ else ⟨p.line, p.column + 1⟩

/-- The position after some characters. -/
def Position.advance (p : Position) (cs : List Char) : Position := cs.foldl Position.next p

/-- The stretch from `start` up to, not including, `stop`. -/
structure Extent where
  start : Position
  stop : Position
  deriving DecidableEq

/-- The stretch from the start of one to the stop of another. -/
def Extent.join (a b : Extent) : Extent := ⟨a.start, b.stop⟩

end Fragment.Source
