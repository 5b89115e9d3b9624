import Fragment.Data

/-! Parameters of a fragment, and the values that a control for one may hold. -/
namespace Fragment

/-- What a parameter takes. -/
inductive ParameterKind where
  | numeric
  | textual
  deriving DecidableEq

namespace ParameterKind

def name : ParameterKind → String
  | .numeric => "numeric"
  | .textual => "textual"

def ofName? : String → Option ParameterKind
  | "numeric" => some .numeric
  | "textual" => some .textual
  | _ => none

end ParameterKind

/-- A parameter of a fragment. -/
structure Parameter where
  name : String
  kind : ParameterKind

/-- What a control holds: one value, or a range to sweep. The bounds of a range stay as given. -/
inductive ParameterValue where
  | literal (value : Data)
  | range (low high : Data)

namespace ParameterValue

def isNumeric : Data → Bool
  | .number _ => true
  | _ => false

def isText : Data → Bool
  | .text _ => true
  | _ => false

/-- The value that a parameter starts with. -/
def default (p : Parameter) : ParameterValue :=
  match p.kind with
  | .numeric => .literal (.number (.int 0))
  | .textual => .literal (.text "")

/-- Whether a parameter can take a value. -/
def isValid (p : Parameter) (v : ParameterValue) : Bool :=
  match p.kind, v with
  | .numeric, .range low high => isNumeric low && isNumeric high
  | .numeric, .literal value => isNumeric value
  | .textual, .literal value => isText value
  | .textual, .range _ _ => false

/-- The value as a tagged list. -/
def toWire : ParameterValue → List Data
  | .literal value => [.text "literal", value]
  | .range low high => [.text "number-range", low, high]

/-- Reads a tagged list. -/
def ofWire (data : Data) : Except Fault ParameterValue := do
  match data with
  | .list (tag :: args) =>
    match tag with
    | .text "literal" =>
      match args with
      | [value] =>
        if isNumeric value || isText value then return .literal value
        throw (.argument ("literal value must be a number or a string, got " ++ value.shown))
      | _ =>
        let count := args.length
        throw (.argument s!"'literal' takes exactly one value, got {count}")
    | .text "number-range" =>
      match args with
      | [low, high] =>
        match low, high with
        | .number a, .number b =>
          if (← a.isNaN) then throw (.argument "range bounds must not be NaN")
          if (← b.isNaN) then throw (.argument "range bounds must not be NaN")
          return .range low high
        | _, _ => throw (.argument ("range bounds must be numbers, got " ++ low.shown ++ " and " ++ high.shown))
      | _ =>
        let count := args.length
        throw (.argument s!"'number-range' takes a minimum and a maximum, got {count} value(s)")
    | tag => throw (.argument ("unknown parameter value tag " ++ tag.shown))
  | data => throw (.argument ("parameter value must be a tagged sequence, got " ++ data.shown))

end ParameterValue

end Fragment
