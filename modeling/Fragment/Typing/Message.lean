/-! What the checker has to say about a program. -/
namespace Fragment.Typing

/-- A message with its arguments. -/
inductive Message where
  | cannotFindName (name : String)
  | onlyRefersToType (name : String)
  | refersToValue (name : String)
  | duplicateIdentifier (name : String)
  | cannotRedeclare (name : String)
  | duplicateImplementation
  | usedBeforeDeclaration (name : String)
  | cannotFindGlobalType (name : String)
  | cannotFindModule (name : String)
  | classNotSupported
  | constEnumAsValue
  | initializerNotConstant
  | requiresTypeArguments (type : String) (count : Nat)
  | notGeneric (type : String)
  | notAssignable (source target : String)
  | propertyMissing (name source target : String)
  | propertyOptional (name source target : String)
  | propertyTypesDiffer (name : String)
  | excessProperty (name target : String)
  | duplicateProperty
  | conversionMistake (source target : String)
  | noSuchProperty (name type : String)
  | namePossiblyUndefined (name : String)
  | objectPossiblyUndefined
  | objectUnknown
  | cannotIndex (key type : String)
  | notCallable
  | noCallSignatures (type : String)
  | invokePossiblyUndefined
  | argumentNotAssignable (source target : String)
  | expectedArguments (expected : String) (count : Nat)
  | expectedAtLeast (least count : Nat)
  | noOverload
  | assignToConstant (name : String)
  | assignToReadonly (name : String)
  | invalidTarget
  | constWithoutValue
  | leftOperand
  | rightOperand
  | operatorMismatch (op left right : String)
  | noOverlap (left right : String)
  | implicitAny (name type : String)
  | asyncNeedsPromise
  | awaitOutsideAsync
  | asyncResult (type : String)
  | mustReturnValue
  | notAllPathsReturn
  | returnOutsideFunction
  | continueOutsideLoop
  | breakOutsideLoop

namespace Message

def code : Message → String
  | .cannotFindName _ => "E2304"
  | .onlyRefersToType _ => "E2693"
  | .refersToValue _ => "E2749"
  | .duplicateIdentifier _ => "E2300"
  | .cannotRedeclare _ => "E2451"
  | .duplicateImplementation => "E2393"
  | .usedBeforeDeclaration _ => "E2448"
  | .cannotFindGlobalType _ => "E2318"
  | .cannotFindModule _ => "E2307"
  | .classNotSupported => "E9001"
  | .constEnumAsValue => "E2475"
  | .initializerNotConstant => "E2474"
  | .requiresTypeArguments .. => "E2314"
  | .notGeneric _ => "E2315"
  | .notAssignable .. => "E2322"
  | .propertyMissing .. => "E2741"
  | .propertyOptional .. => "E2322"
  | .propertyTypesDiffer _ => "E2322"
  | .excessProperty .. => "E2353"
  | .duplicateProperty => "E1117"
  | .conversionMistake .. => "E2352"
  | .noSuchProperty .. => "E2339"
  | .namePossiblyUndefined _ => "E18048"
  | .objectPossiblyUndefined => "E2532"
  | .objectUnknown => "E2571"
  | .cannotIndex .. => "E7053"
  | .notCallable => "E2349"
  | .noCallSignatures _ => "E2349"
  | .invokePossiblyUndefined => "E2722"
  | .argumentNotAssignable .. => "E2345"
  | .expectedArguments .. => "E2554"
  | .expectedAtLeast .. => "E2555"
  | .noOverload => "E2769"
  | .assignToConstant _ => "E2588"
  | .assignToReadonly _ => "E2540"
  | .invalidTarget => "E2364"
  | .constWithoutValue => "E1155"
  | .leftOperand => "E2362"
  | .rightOperand => "E2363"
  | .operatorMismatch .. => "E2365"
  | .noOverlap .. => "E2367"
  | .implicitAny .. => "E7006"
  | .asyncNeedsPromise => "E2705"
  | .awaitOutsideAsync => "E1308"
  | .asyncResult _ => "E1064"
  | .mustReturnValue => "E2355"
  | .notAllPathsReturn => "E7030"
  | .returnOutsideFunction => "E1108"
  | .continueOutsideLoop => "E1104"
  | .breakOutsideLoop => "E1105"

/-- The words of a message, the arguments among them. -/
def pieces : Message → List String
  | .cannotFindName name => ["Cannot find name '", name, "'."]
  | .onlyRefersToType name => ["'", name, "' only refers to a type, but is being used as a value here."]
  | .refersToValue name =>
    ["'", name, "' refers to a value, but is being used as a type here. Did you mean 'typeof ", name, "'?"]
  | .duplicateIdentifier name => ["Duplicate identifier '", name, "'."]
  | .cannotRedeclare name => ["Cannot redeclare block-scoped variable '", name, "'."]
  | .duplicateImplementation => ["Duplicate function implementation."]
  | .usedBeforeDeclaration name => ["Block-scoped variable '", name, "' used before its declaration."]
  | .cannotFindGlobalType name => ["Cannot find global type '", name, "'."]
  | .cannotFindModule name => ["Cannot find module '", name, "' or its corresponding type declarations."]
  | .classNotSupported => ["Class declarations are not supported."]
  | .constEnumAsValue =>
    ["'const' enums can only be used in property or index access expressions or the right hand side of an import ",
      "declaration or export assignment or type query."]
  | .initializerNotConstant => ["const enum member initializers must be constant expressions."]
  | .requiresTypeArguments type count => ["Generic type '", type, "' requires ", toString count, " type argument(s)."]
  | .notGeneric type => ["Type '", type, "' is not generic."]
  | .notAssignable source target => ["Type '", source, "' is not assignable to type '", target, "'."]
  | .propertyMissing name source target =>
    ["Property '", name, "' is missing in type '", source, "' but required in type '", target, "'."]
  | .propertyOptional name source target =>
    ["Property '", name, "' is optional in type '", source, "' but required in type '", target, "'."]
  | .propertyTypesDiffer name => ["Types of property '", name, "' are incompatible."]
  | .excessProperty name target =>
    ["Object literal may only specify known properties, and '", name, "' does not exist in type '", target, "'."]
  | .duplicateProperty => ["An object literal cannot have multiple properties with the same name."]
  | .conversionMistake source target =>
    ["Conversion of type '", source, "' to type '", target,
      "' may be a mistake because neither type sufficiently overlaps with the ",
      "other. If this was intentional, convert the expression to 'unknown' first."]
  | .noSuchProperty name type => ["Property '", name, "' does not exist on type '", type, "'."]
  | .namePossiblyUndefined name => ["'", name, "' is possibly 'undefined'."]
  | .objectPossiblyUndefined => ["Object is possibly 'undefined'."]
  | .objectUnknown => ["Object is of type 'unknown'."]
  | .cannotIndex key type =>
    ["Element implicitly has an 'any' type because expression of type '", key, "' can't be used to index type '", type, "'."]
  | .notCallable => ["This expression is not callable."]
  | .noCallSignatures type => ["Type '", type, "' has no call signatures."]
  | .invokePossiblyUndefined => ["Cannot invoke an object which is possibly 'undefined'."]
  | .argumentNotAssignable source target =>
    ["Argument of type '", source, "' is not assignable to parameter of type '", target, "'."]
  | .expectedArguments expected count => ["Expected ", expected, " arguments, but got ", toString count, "."]
  | .expectedAtLeast least count => ["Expected at least ", toString least, " arguments, but got ", toString count, "."]
  | .noOverload => ["No overload matches this call."]
  | .assignToConstant name => ["Cannot assign to '", name, "' because it is a constant."]
  | .assignToReadonly name => ["Cannot assign to '", name, "' because it is a read-only property."]
  | .invalidTarget => ["The left-hand side of an assignment expression must be a variable or a property access."]
  | .constWithoutValue => ["'const' declarations must be initialized."]
  | .leftOperand => ["The left-hand side of an arithmetic operation must be of type 'any', 'number', 'bigint' or an enum type."]
  | .rightOperand =>
    ["The right-hand side of an arithmetic operation must be of type 'any', 'number', 'bigint' or an enum type."]
  | .operatorMismatch op left right => ["Operator '", op, "' cannot be applied to types '", left, "' and '", right, "'."]
  | .noOverlap left right =>
    ["This comparison appears to be unintentional because the types '", left, "' and '", right, "' have no overlap."]
  | .implicitAny name type => ["Parameter '", name, "' implicitly has an '", type, "' type."]
  | .asyncNeedsPromise =>
    ["An async function or method in ES5 requires the 'Promise' constructor. Make sure you have a declaration for ",
      "the 'Promise' constructor or include 'ES2015' in your '--lib' option."]
  | .awaitOutsideAsync => ["'await' expressions are only allowed within async functions and at the top levels of modules."]
  | .asyncResult type =>
    ["The return type of an async function or method must be the global Promise<T> type. Did you mean to write ",
      "'Promise<", type, ">'?"]
  | .mustReturnValue => ["A function whose declared type is neither 'undefined', 'void', nor 'any' must return a value."]
  | .notAllPathsReturn => ["Not all code paths return a value."]
  | .returnOutsideFunction => ["A 'return' statement can only be used within a function body."]
  | .continueOutsideLoop => ["A 'continue' statement can only be used within an enclosing iteration statement."]
  | .breakOutsideLoop => ["A 'break' statement can only be used within an enclosing iteration or switch statement."]

/-- The text of a message. -/
def text (m : Message) : String := String.join m.pieces

end Message

end Fragment.Typing
