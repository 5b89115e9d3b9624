import Fragment.Double.Layout
import Fragment.Number
import Fragment.Text.Quoted

/-! Plain data from outside: option values and parameter values on the wire. -/
namespace Fragment

/-- A tree of plain data. -/
inductive Data where
  | null
  | bool (b : Bool)
  | number (n : Number)
  | text (t : String)
  | list (items : List Data)
  | record (fields : List (String × Data))

namespace Data

mutual

/-- The data as messages show it. -/
def shown : Data → String
  | .null => "None"
  | .bool b => if b then "True" else "False"
  | .number n => n.valueText
  | .text t => Text.quoted t
  | .list items => "[" ++ shownItems items ++ "]"
  | .record fields => "\x7b" ++ shownFields fields ++ "\x7d"

/-- The items of a list, separated by commas. -/
def shownItems : List Data → String
  | [] => ""
  | [item] => shown item
  | item :: rest => shown item ++ ", " ++ shownItems rest

/-- The fields of a record, separated by commas. -/
def shownFields : List (String × Data) → String
  | [] => ""
  | [(key, value)] => Text.quoted key ++ ": " ++ shown value
  | (key, value) :: rest => Text.quoted key ++ ": " ++ shown value ++ ", " ++ shownFields rest

end

/-- The data as a text of its own: a text stands for itself. -/
def plain : Data → String
  | .text t => t
  | d => d.shown

end Data

end Fragment
