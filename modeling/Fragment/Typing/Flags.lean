/-! Flags of types and of symbols, as bits of a number. -/
namespace Fragment.Typing

/-- What a type is, as a set of bits. -/
abbrev TypeFlags := Nat

namespace TypeFlags

def any : TypeFlags := 1
def unknown : TypeFlags := 2
def string : TypeFlags := 4
def number : TypeFlags := 8
def boolean : TypeFlags := 16
def enum : TypeFlags := 32
def stringLiteral : TypeFlags := 128
def numberLiteral : TypeFlags := 256
def booleanLiteral : TypeFlags := 512
def enumLiteral : TypeFlags := 1024
def void : TypeFlags := 16384
def undefined : TypeFlags := 32768
def never : TypeFlags := 131072
def typeParameter : TypeFlags := 262144
def object : TypeFlags := 524288
def union : TypeFlags := 1048576
def intersection : TypeFlags := 2097152

def anyOrUnknown : TypeFlags := any ||| unknown
def literal : TypeFlags := stringLiteral ||| numberLiteral ||| booleanLiteral
def stringLike : TypeFlags := string ||| stringLiteral
def numberLike : TypeFlags := number ||| numberLiteral ||| enum ||| enumLiteral
def booleanLike : TypeFlags := boolean ||| booleanLiteral
def voidLike : TypeFlags := void ||| undefined
def primitive : TypeFlags :=
  string ||| number ||| boolean ||| enum ||| literal ||| enumLiteral ||| void ||| undefined
def structured : TypeFlags := object ||| union ||| intersection

/-- Whether two sets of flags have one in common. -/
def meets (f g : TypeFlags) : Bool := f &&& g ≠ 0

end TypeFlags

/-- What a symbol is, as a set of bits. -/
abbrev SymbolFlags := Nat

namespace SymbolFlags

def functionVariable : SymbolFlags := 1
def blockVariable : SymbolFlags := 2
def property : SymbolFlags := 4
def enumMember : SymbolFlags := 8
def function : SymbolFlags := 16
def interface : SymbolFlags := 64
def constEnum : SymbolFlags := 128
def regularEnum : SymbolFlags := 256
def typeLiteral : SymbolFlags := 2048
def method : SymbolFlags := 8192
def typeParameter : SymbolFlags := 262144
def typeAlias : SymbolFlags := 524288
def optional : SymbolFlags := 16777216
def transient : SymbolFlags := 33554432

def variableLike : SymbolFlags := functionVariable ||| blockVariable
def enum : SymbolFlags := constEnum ||| regularEnum

/-- Symbols that have a value. -/
def value : SymbolFlags := variableLike ||| property ||| enumMember ||| function ||| enum ||| method

/-- Symbols that name a type. -/
def type : SymbolFlags := interface ||| enum ||| typeLiteral ||| typeParameter ||| typeAlias

def meets (f g : SymbolFlags) : Bool := f &&& g ≠ 0

/-- The flags of `f` that are not in `g`. -/
def without (f g : SymbolFlags) : SymbolFlags := f - (f &&& g)

/-- The kinds of symbol with which a declaration of this kind cannot share its name. -/
def excludes (f : SymbolFlags) : SymbolFlags :=
  if f = blockVariable then value
  else if f = functionVariable then without value functionVariable
  else if f = function then without value function
  else if f = interface then without type interface
  else if f = typeAlias then type
  else if f = constEnum then without (value ||| type) constEnum
  else if f = regularEnum then without (value ||| type) regularEnum
  else 0

end SymbolFlags

end Fragment.Typing
