import Fragment.Diagnostic

/-! Why a compilation request fails as a whole. -/
namespace Fragment

/-- The failure of a request, with what a host needs to explain it. -/
inductive CompileError where
  /-- A failure of no particular kind. -/
  | general (message : String)
  /-- The fragment is not exactly one expression statement. -/
  | structural (message : String) (statementKind : Option String) (span : Span)
  /-- The fragment's type has no call signature, or several. -/
  | signature (type : String) (count : Int)
  /-- A parameter is neither a number nor a text. -/
  | parameterType (name type : String)
  /-- The result is no plain object. -/
  | returnShape (type : String)
  /-- A field of the result is not a number. -/
  | resultField (name type : String)
  /-- Diagnostics were reported. -/
  | diagnostics (list : List Diagnostic)
  /-- Code was not produced as it should be, or a file was asked for that does not exist. -/
  | emission (message : String)

namespace CompileError

def message : CompileError → String
  | .general m => m
  | .structural m _ _ => m
  | .signature type count =>
    if count = 0 then s!"fragment of type '{type}' is not callable"
    else s!"fragment of type '{type}' has {count} call signatures; exactly one is required"
  | .parameterType name type =>
    s!"parameter '{name}' has type '{type}'; only 'number' and 'string' are supported"
  | .returnShape type => s!"fragment must return an object of numeric fields, not '{type}'"
  | .resultField name type =>
    s!"result field '{name}' has type '{type}'; result fields must be numeric"
  | .diagnostics list =>
    let count := list.length
    let plural := if count = 1 then "" else "s"
    s!"{count} diagnostic{plural}:\n" ++ Diagnostic.renderAll list
  | .emission m => m

/-- The short name of the kind of failure. -/
def kind : CompileError → String
  | .general _ => "fragment"
  | .structural .. => "structural"
  | .signature .. => "signature"
  | .parameterType .. => "parameter-type"
  | .returnShape _ => "return-shape"
  | .resultField .. => "result-field-type"
  | .diagnostics _ => "diagnostics"
  | .emission _ => "emit"

end CompileError

end Fragment
