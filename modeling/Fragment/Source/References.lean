import Fragment.Text.Blank
import Fragment.Text.Case

/-! References to libraries at the head of a file.
A reference is a comment line of the form `/// <reference lib="name" />`. Only the blank lines and
comment lines before everything else are looked at. -/
namespace Fragment.Source

/-- What follows a word. -/
def afterWord? (word : String) (cs : List Char) : Option (List Char) :=
  if word.toList.isPrefixOf cs then some (cs.drop word.length) else none

/-- What follows a run of white space that is not empty. -/
def afterBlanks? (cs : List Char) : Option (List Char) :=
  match cs with
  | c :: rest => if Text.isBlank c then some (Text.trimStart rest) else none
  | [] => none

def isQuote (c : Char) : Bool := c = '"' || c = '\''

/-- What follows a quote of either sort. -/
def afterQuote? : List Char → Option (List Char)
  | c :: rest => if isQuote c then some rest else none
  | [] => none

/-- The name that a comment line refers to. -/
def reference? (line : List Char) : Option String := do
  let rest ← afterWord? "///" line
  let rest ← afterWord? "<reference" (Text.trimStart rest)
  let rest ← afterBlanks? rest
  let rest ← afterWord? "lib" rest
  let rest ← afterWord? "=" (Text.trimStart rest)
  let rest ← afterQuote? (Text.trimStart rest)
  let name := rest.takeWhile (!isQuote ·)
  if name.isEmpty then none
  let rest ← afterQuote? (rest.drop name.length)
  let _ ← afterWord? "/>" (Text.trimStart rest)
  return Text.lower (String.ofList (Text.trim name))

/-- The references among the leading blank and comment lines. -/
def referencesIn : List (List Char) → List String
  | [] => []
  | line :: rest =>
    let line := Text.trim line
    if line.isEmpty then referencesIn rest
    else if "//".toList.isPrefixOf line then (reference? line).toList ++ referencesIn rest
    else []

/-- The libraries that a text refers to, in order. -/
def references (text : String) : List String := referencesIn (Text.lines text.toList)

end Fragment.Source
