import Fragment.Source.Extent

/-! Diagnostics: messages about a source text or its configuration, with a place. -/
namespace Fragment

/-- A place in a file, as far as it is known. -/
structure Span where
  file : Option String := none
  line : Option Int := none
  column : Option Int := none
  endLine : Option Int := none
  endColumn : Option Int := none

namespace Span

/-- The place of an extent in a file. -/
def ofExtent (file : Option String) (e : Source.Extent) : Span :=
  ⟨file, some e.start.line, some e.start.column, some e.stop.line, some e.stop.column⟩

/-- The same place in a file, unless it names one already. -/
def withFile (s : Span) (file : Option String) : Span := { s with file := s.file.or file }

/-- A known text that is not empty. -/
def knownText (t : Option String) : Option String := t.filter (· ≠ "")

/-- The place as `file:line:column`. -/
def short (s : Span) : String :=
  (knownText s.file).getD "<unknown>" ++ ":" ++ (s.line.elim "?" toString) ++ ":" ++
    (s.column.elim "?" toString)

end Span

/-- A message about a program. -/
structure Diagnostic where
  message : String
  code : Option String := none
  phase : Option String := none
  severity : String := "error"
  span : Span := {}
  notes : List String := []

namespace Diagnostic

/-- The diagnostic in one line, and a line for each note. -/
def render (d : Diagnostic) : String :=
  let code := (Span.knownText d.code).elim "" (" " ++ ·)
  d.span.short ++ " - " ++ d.severity ++ code ++ ": " ++ d.message ++
    String.join (d.notes.map ("\n  note: " ++ ·))

/-- The diagnostics in order, each on its own line. -/
def renderAll (ds : List Diagnostic) : String := String.intercalate "\n" (ds.map render)

def hasErrors (ds : List Diagnostic) : Bool := ds.any (·.severity = "error")

/-- Whether `a` stands before `b` or in the same place: files by name, then lines and columns, where
an unknown line or column stands behind all that occur. -/
def notAfter (a b : Diagnostic) : Bool :=
  let key (d : Diagnostic) : String × Int × Int :=
    (d.span.file.getD "", d.span.line.getD (Nat.pow 2 30), d.span.column.getD (Nat.pow 2 30))
  let (fa, la, ca) := key a
  let (fb, lb, cb) := key b
  if fa < fb then true else if fb < fa then false
  else if la < lb then true else if lb < la then false
  else ca ≤ cb

/-- The diagnostics by place; those of one place keep their order. -/
def sort (ds : List Diagnostic) : List Diagnostic := ds.mergeSort notAfter

end Diagnostic

end Fragment
