import Fragment.Number

/-! Values of running code, and the store that holds its arrays and objects.
Arrays, objects, functions and promises are known by reference: two of them are the same value when
their references are. -/
namespace Fragment

/-- A value of running code. -/
inductive Value where
  | undefined
  | bool (b : Bool)
  | number (n : Number)
  | text (s : String)
  | array (ref : Nat)
  | object (ref : Nat)
  | function (ref : Nat)
  | promise (ref : Nat)

namespace Value

def int (n : Int) : Value := .number (.int n)

def float (x : Float) : Value := .number (.float x)

end Value

/-- The fields of an object, in the order in which they were added. -/
abbrev Fields := List (String × Value)

namespace Fields

def get? (fields : Fields) (key : String) : Option Value := fields.lookup key

/-- Sets a field in its place, or adds it at the end. -/
def set : Fields → String → Value → Fields
  | [], key, v => [(key, v)]
  | (k, old) :: rest, key, v => if k == key then (k, v) :: rest else (k, old) :: set rest key v

end Fields

/-- The arrays and objects that exist, each at the place its reference names. -/
structure Store where
  arrays : Array (Array Value) := #[]
  objects : Array Fields := #[]

namespace Store

/-- The elements of an array. -/
def array (s : Store) (ref : Nat) : Array Value := s.arrays.getD ref #[]

/-- The fields of an object. -/
def object (s : Store) (ref : Nat) : Fields := s.objects.getD ref []

/-- Changes the elements of an array. -/
def modifyArray (s : Store) (ref : Nat) (f : Array Value → Array Value) : Store :=
  { s with arrays := s.arrays.modify ref f }

/-- Changes the fields of an object. -/
def modifyObject (s : Store) (ref : Nat) (f : Fields → Fields) : Store :=
  { s with objects := s.objects.modify ref f }

/-- A new array. -/
def newArray (s : Store) (items : Array Value) : Value × Store :=
  (.array s.arrays.size, { s with arrays := s.arrays.push items })

/-- A new object. -/
def newObject (s : Store) (fields : Fields) : Value × Store :=
  (.object s.objects.size, { s with objects := s.objects.push fields })

end Store

/-- What an operation gives: a value, or the elements of a new array. -/
inductive Produced where
  | value (v : Value)
  | array (items : Array Value)

end Fragment
