/-! Failures of running code.
A fault is what ends the evaluation of a value or of generated code. Those with a text are raised
by the library of the language, the others by the machine that runs the code. -/
namespace Fragment

/-- Why an evaluation stopped. -/
inductive Fault where
  /-- An operation on operands of the wrong kind, or a call with the wrong number of arguments. -/
  | kind
  /-- A read or write of a property of a value that has none. -/
  | member (message : String)
  /-- A value that a conversion refuses. -/
  | value (message : String)
  /-- A value that a function of the library refuses. -/
  | argument (message : String)
  /-- An integer too large for a double or a character. -/
  | overflow
  /-- A name that has no value. -/
  | name
  /-- A variable of the running function that has no value yet. -/
  | unboundLocal
  /-- A negative power of zero. -/
  | division
  /-- A position before the start of a list or text. -/
  | index
  /-- A missing key. -/
  | key
  /-- A library that has no bindings. -/
  | library (name : String)
  /-- A promise that was awaited before. -/
  | awaitedTwice
  /-- A value that contains itself, or a call chain without end. -/
  | recursion
  /-- More memory than there is. -/
  | memory
  /-- The evaluation used up its fuel. -/
  | exhausted
  deriving DecidableEq

end Fragment
