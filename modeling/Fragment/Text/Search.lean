/-! Finding, cutting and replacing pieces of a text, as lists of characters. -/
namespace Fragment.Text

/-- The first position, counted from `at`, where `piece` starts in `cs`. -/
def findFrom? (piece : List Char) (pos : Nat) : List Char → Option Nat
  | [] => if piece.isEmpty then some pos else none
  | c :: rest => if piece.isPrefixOf (c :: rest) then some pos else findFrom? piece (pos + 1) rest

/-- The least position from `start` on where `piece` occurs in `cs`. -/
def find? (piece cs : List Char) (start : Nat) : Option Nat := findFrom? piece start (cs.drop start)

/-- The greatest position at which `piece` starts in `cs`, counted from `pos`, or else `found`. -/
def findLastFrom? (piece : List Char) (pos : Nat) (found : Option Nat) : List Char → Option Nat
  | [] => if piece.isEmpty then some pos else found
  | c :: rest =>
    findLastFrom? piece (pos + 1) (if piece.isPrefixOf (c :: rest) then some pos else found) rest

/-- The greatest position where `piece` occurs wholly before position `stop`. -/
def findLast? (piece cs : List Char) (stop : Nat) : Option Nat :=
  findLastFrom? piece 0 none (cs.take stop)

/-- Whether `piece` occurs in `cs`. -/
def contains (piece cs : List Char) : Bool := (find? piece cs 0).isSome

/-- The parts of `cs` between the occurrences of `piece`, taken from the left without overlap.
`skip` characters still belong to the occurrence just found. -/
def splitFrom (piece : List Char) (part : List Char) (skip : Nat) : List Char → List (List Char)
  | [] => [part.reverse]
  | c :: rest =>
    match skip with
    | n + 1 => splitFrom piece part n rest
    | 0 =>
      if piece.isPrefixOf (c :: rest) then part.reverse :: splitFrom piece [] (piece.length - 1) rest
      else splitFrom piece (c :: part) 0 rest

/-- The parts of `cs` between the occurrences of a non-empty `piece`. -/
def splitOn (piece cs : List Char) : List (List Char) := splitFrom piece [] 0 cs

/-- `cs` with the first occurrence of `piece` replaced. -/
def replaceFirst (piece text : List Char) : List Char → List Char
  | [] => if piece.isEmpty then text else []
  | c :: rest =>
    if piece.isPrefixOf (c :: rest) then text ++ (c :: rest).drop piece.length
    else c :: replaceFirst piece text rest

/-- `cs` with the occurrences of a non-empty `piece` replaced, taken from the left without overlap.
`skip` characters still belong to the occurrence just found. -/
def replaceFrom (piece text : List Char) (skip : Nat) : List Char → List Char
  | [] => []
  | c :: rest =>
    match skip with
    | n + 1 => replaceFrom piece text n rest
    | 0 =>
      if piece.isPrefixOf (c :: rest) then text ++ replaceFrom piece text (piece.length - 1) rest
      else c :: replaceFrom piece text 0 rest

/-- `cs` with every occurrence of `piece` replaced; an empty piece occurs before each character
and at the end. -/
def replaceAll (piece text cs : List Char) : List Char :=
  if piece.isEmpty then text ++ cs.flatMap fun c => c :: text
  else replaceFrom piece text 0 cs

/-- The characters from `start` up to `stop`. -/
def slice (cs : List Char) (start stop : Nat) : List Char := (cs.take stop).drop start

end Fragment.Text
