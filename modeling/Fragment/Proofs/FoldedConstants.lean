import Fragment.Proofs.FoldedNumbers
import Fragment.Proofs.InlinedConstants

/-! Constants that are computed twice.
The checker folds the initializer of a member of an enumeration; elsewhere the same expression becomes code. Where
integers stay below `2 ^ 53`, both give the same number. -/
namespace Fragment.Emit

open Source (Mark Expr BinaryOp UnaryOp)
open Typing (State SymbolId TypeId TypeFlags Queries constantBinary)
open Target (eval evalAll World Scope Outside)
open Lowering

/-- What an expression of literals folds to. -/
def folded : Expr → Except Fault Number
  | .number _ value _ => .ok value
  | .unary _ op operand => match op with
    | .minus => (folded operand).map Number.negate
    | .plus => folded operand
    | _ => .error .kind
  | .binary _ op left right => do
    let a ← folded left
    let b ← folded right
    (constantBinary op a b).getD (.error .kind)
  | _ => .error .kind

/-- Whether an operation is the same where it is folded and where it is computed. -/
def steadyBinary : BinaryOp → Number → Number → Bool
  | .add => Number.steadyArith (· + ·)
  | .sub => Number.steadyArith (· - ·)
  | .mul => Number.steadyArith (· * ·)
  | .div => Number.steadyQuotient
  | .rem => Number.steadyRemainder
  | .pow => Number.steadyPower
  | _ => fun _ _ => false

/-- Whether each operation of an expression is the same on both sides. -/
def isSteady : Expr → Bool
  | .number _ value _ => value.isWritable
  | .unary _ op operand => match op with
    | .minus | .plus => isSteady operand
    | _ => false
  | .binary _ op left right => isSteady left && isSteady right && match folded left, folded right with
    | .ok a, .ok b => steadyBinary op a b
    | _, _ => false
  | _ => false

/-- The type of an expression is one of numbers. -/
def NumberTyped (s : State) (e : Expr) : Prop :=
  ∃ t, s.nodeTypes[e.mark.id]? = some t ∧ s.allParts t TypeFlags.numberLike = true

/-- The operands of an expression are numbers to the checker. -/
def OperandsTyped (s : State) : Expr → Prop
  | .unary _ _ operand => NumberTyped s operand ∧ OperandsTyped s operand
  | .binary _ _ left right => (NumberTyped s left ∧ OperandsTyped s left) ∧ NumberTyped s right ∧ OperandsTyped s right
  | _ => True

/-- The code of an operation on numbers. -/
def arithmeticCode (op : BinaryOp) (left right : Target.Expr) : Target.Expr :=
  match op with
  | .add => .binary .add left right
  | .sub => .binary .sub left right
  | .mul => .binary .mul left right
  | .div => .helper .divide [left, right]
  | .rem => .helper .remainder [left, right]
  | _ => .helper .power [left, right]

section Folding

variable {a b a' b' : Number} {op : BinaryOp}

/-- What a number is computed to, in any world. -/
def Computes (code : Target.Expr) (n : Number) : Prop :=
  ∀ (o : Outside) (scopes : List Scope) (w : World), eval o scopes code w = .ok (.number n) w

theorem binaryComputes {left right : Target.Expr} {f : Number → Number → Except Fault Number} {op : Target.Operator}
    (first : Computes left a) (second : Computes right b)
    (apply : ∀ s, op.apply s (.number a) (.number b) = ((f a b).map .number).map .value) {r : Number}
    (result : f a b = .ok r) : Computes (.binary op left right) r := by
  intro o scopes w
  simp only [eval, Target.bindRuns (first o scopes w), Target.bindRuns (second o scopes w)]
  simp only [apply, result]
  rfl

theorem helperComputes {left right : Target.Expr} {h : Target.Helper} (first : Computes left a)
    (second : Computes right b) {r : Number} (called : ∀ w : World, Target.callHelper h [.number a, .number b] w = .ok (.number r) w) :
    Computes (.helper h [left, right]) r := by
  intro o scopes w
  simp only [eval, Target.bindRuns (evalPair (first o scopes w) (second o scopes w)), called]

theorem steadyAgrees (left : Number.Agree a a') (right : Number.Agree b b') (steady : steadyBinary op a b = true) :
    ∃ r r', constantBinary op a b = some (.ok r) ∧ Number.Agree r r' ∧ ∀ {l r : Target.Expr},
      Computes l a' → Computes r b' → Computes (arithmeticCode op l r) r' := by
  cases op with
  | add =>
    obtain ⟨r, r', folded, computed, agree⟩ := Number.addAgree left right steady
    exact ⟨r, r', congrArg some folded, agree, fun first second => binaryComputes first second (fun _ => rfl) computed⟩
  | sub =>
    obtain ⟨r, r', folded, computed, agree⟩ := Number.subAgree left right steady
    exact ⟨r, r', congrArg some folded, agree, fun first second => binaryComputes first second (fun _ => rfl) computed⟩
  | mul =>
    obtain ⟨r, r', folded, computed, agree⟩ := Number.mulAgree left right steady
    exact ⟨r, r', congrArg some folded, agree, fun first second => binaryComputes first second (fun _ => rfl) computed⟩
  | div =>
    obtain ⟨r, x, y, folded, first, second, agree⟩ := Number.divAgree left right steady
    have computed (s : Fragment.Store) : Value.divide s (.number a') (.number b') = .ok (x / y) := by
      simp only [Value.divide, Number.toNumberNumber, first, second, bind, Except.bind, pure, Except.pure]
    refine ⟨r, .float (x / y), folded, agree, fun first second => helperComputes first second fun w => ?_⟩
    simp only [Target.callHelper, computed]
    rfl
  | rem =>
    obtain ⟨r, r', folded, computed, agree⟩ := Number.remAgree left right steady
    refine ⟨r, r', folded, agree, fun first second => helperComputes first second fun w => ?_⟩
    simp only [Target.callHelper, computed]
    rfl
  | pow =>
    obtain ⟨r, r', folded, computed, agree⟩ := Number.powAgree left right steady
    refine ⟨r, r', folded, agree, fun first second => helperComputes first second fun w => ?_⟩
    simp only [Target.callHelper, computed]
    rfl
  | _ =>
    unfold steadyBinary at steady
    simp at steady

theorem negateComputes {code : Target.Expr} (operand : Computes code a) : Computes (.negate code) a.negate := by
  intro o scopes w
  simp only [eval, Target.bindRuns (operand o scopes w)]
  rfl

end Folding

/-! The checker -/

section Checker

variable (q : Queries) (self : SymbolId) (selfType : TypeId) (s : State)

theorem constantUnary {mark : Mark} {operand : Expr} {v : Number}
    (value : (q.constantValue self selfType operand).run s = .ok (some v, s)) :
    (q.constantValue self selfType (.unary mark .minus operand)).run s = .ok (some v.negate, s) ∧
      (q.constantValue self selfType (.unary mark .plus operand)).run s = .ok (some v, s) := by
  simp only [StateT.run] at value ⊢
  unfold Queries.constantValue
  simp only [bind, StateT.bind, Except.bind, value]
  exact ⟨rfl, trivial⟩

theorem constantOperation {mark : Mark} {op : BinaryOp} {left right : Expr} {a b r : Number}
    (first : (q.constantValue self selfType left).run s = .ok (some a, s))
    (second : (q.constantValue self selfType right).run s = .ok (some b, s))
    (result : constantBinary op a b = some (.ok r)) :
    (q.constantValue self selfType (.binary mark op left right)).run s = .ok (some r, s) := by
  have known : (constantBinary op (.int 0) (.int 1)).isNone = false := by
    unfold constantBinary at result
    cases op <;> first | rfl | simp at result
  simp only [StateT.run] at first second ⊢
  unfold Queries.constantValue
  simp only [known, Bool.false_eq_true, if_false, bind, StateT.bind, Except.bind, first, second, result]
  rfl

end Checker

/-! The code -/

section Code

variable {c : Context} {p : Progress}

theorem numbersRun {t : TypeId} (typed : p.typing.allParts t TypeFlags.numberLike = true) :
    allParts t TypeFlags.numberLike c p = .ok (true, p) := by
  rw [← typed]
  exact askKnown rfl

theorem unaryLowered {mark : Mark} {operand : Expr} {code : Target.Expr}
    (lowered : lowerExpr operand c p = .ok (code, p)) (typed : NumberTyped p.typing operand) :
    lowerExpr (.unary mark .minus operand) c p = .ok (.negate code, p) ∧
      lowerExpr (.unary mark .plus operand) c p = .ok (code, p) := by
  obtain ⟨t, known, numbers⟩ := typed
  simp only [lowerExpr, unaryExpr, bindRun, lowered, typeOfKnown known, numbersRun numbers]
  exact ⟨rfl, rfl⟩

theorem binaryLowered {op : BinaryOp} {mark : Mark} {left right : Expr} {l r : Target.Expr}
    (kind : op ∈ [.add, .sub, .mul, .div, .rem, .pow]) (first : lowerExpr left c p = .ok (l, p))
    (second : lowerExpr right c p = .ok (r, p)) (leftTyped : NumberTyped p.typing left)
    (rightTyped : NumberTyped p.typing right) :
    lowerExpr (.binary mark op left right) c p = .ok (arithmeticCode op l r, p) := by
  obtain ⟨t, known, numbers⟩ := leftTyped
  obtain ⟨u, other, also⟩ := rightTyped
  have both : bothAre t u TypeFlags.numberLike c p = .ok (true, p) := by
    simp only [bothAre, bindRun, numbersRun numbers, numbersRun also]
    rfl
  simp only [lowerExpr, bindRun, first, second, typeOfKnown known]
  simp only [List.mem_cons, List.not_mem_nil, or_false] at kind
  unfold operator arithmeticCode
  rcases kind with rfl | rfl | rfl | rfl | rfl | rfl <;>
    simp only [bindRun, typeOfKnown other, sum, onNumbers, both] <;> rfl

end Code

theorem operationKind {op : BinaryOp} {a b r : Number} (result : constantBinary op a b = some (.ok r)) :
    op ∈ [.add, .sub, .mul, .div, .rem, .pow] := by
  unfold constantBinary at result
  cases op <;> first | decide | simp at result

section Agreement

variable (q : Queries) (self : SymbolId) (selfType : TypeId) (s : State) {c : Context} {p : Progress}

/-- The two numbers of an expression, by induction on it. -/
theorem steadyFolds : (e : Expr) → isSteady e = true → OperandsTyped p.typing e →
    ∃ v code r, folded e = .ok v ∧ (q.constantValue self selfType e).run s = .ok (some v, s) ∧
      lowerExpr e c p = .ok (code, p) ∧ Computes code r ∧ Number.Agree v r
  | .number _ value _, steady, _ => by
    refine ⟨value, .number value, value.spelled, rfl, ?_, ?_, fun _ _ _ => rfl, Number.agreeSpelled value⟩
    · simp only [Queries.constantValue]
      rfl
    · rw [lowerExpr, literalRun steady]
  | .unary mark op operand, steady, typed => by
    simp only [isSteady] at steady
    obtain ⟨number, inner⟩ := typed
    cases op with
    | minus =>
      obtain ⟨v, code, r, value, constant, lowered, computes, agree⟩ := steadyFolds operand steady inner
      refine ⟨v.negate, .negate code, r.negate, ?_, ?_, ?_, negateComputes computes, Number.negateAgree agree⟩
      · unfold folded
        simp only [value]
        rfl
      · exact (constantUnary q self selfType s constant).1
      · exact (unaryLowered lowered number).1
    | plus =>
      obtain ⟨v, code, r, value, constant, lowered, computes, agree⟩ := steadyFolds operand steady inner
      refine ⟨v, code, r, ?_, ?_, ?_, computes, agree⟩
      · unfold folded
        simp only [value]
      · exact (constantUnary q self selfType s constant).2
      · exact (unaryLowered lowered number).2
    | not | typeof => simp at steady
  | .binary mark op left right, steady, typed => by
    unfold isSteady at steady
    simp only [Bool.and_eq_true] at steady
    obtain ⟨⟨first, second⟩, step⟩ := steady
    obtain ⟨⟨leftNumber, leftTyped⟩, rightNumber, rightTyped⟩ := typed
    obtain ⟨a, l, x, valueLeft, constantLeft, loweredLeft, computesLeft, agreeLeft⟩ := steadyFolds left first leftTyped
    obtain ⟨b, m, y, valueRight, constantRight, loweredRight, computesRight, agreeRight⟩ :=
      steadyFolds right second rightTyped
    rw [valueLeft, valueRight] at step
    obtain ⟨v, r, result, agree, computes⟩ := steadyAgrees agreeLeft agreeRight step
    refine ⟨v, arithmeticCode op l m, r, ?_, ?_, ?_, computes computesLeft computesRight, agree⟩
    · unfold folded
      simp only [valueLeft, valueRight, bind, Except.bind, result, Option.getD_some]
    · exact constantOperation q self selfType s constantLeft constantRight result
    · exact binaryLowered (operationKind result) loweredLeft loweredRight leftNumber rightNumber
  | .ident .., steady, _ | .string .., steady, _ | .boolean .., steady, _ | .object .., steady, _
  | .array .., steady, _ | .member .., steady, _ | .element .., steady, _ | .call .., steady, _
  | .await .., steady, _ | .conditional .., steady, _ | .assign .., steady, _ | .arrow .., steady, _
  | .cast .., steady, _ => by
    simp [isSteady] at steady

/-- The initializer of a member of an enumeration that consists of literals, signs and operators, and whose integers
stay below `2 ^ 53`, is folded without a fault to the number that its code computes, whatever the world. -/
theorem foldedConstantsAgree {e : Expr} (steady : isSteady e = true) (typed : OperandsTyped p.typing e) :
    ∃ v code r, (q.constantValue self selfType e).run s = .ok (some v, s) ∧ lowerExpr e c p = .ok (code, p) ∧
      (∀ (o : Outside) (scopes : List Scope) (w : World), eval o scopes code w = .ok (.number r) w) ∧ v.Same r := by
  obtain ⟨v, code, r, _, constant, lowered, computes, agree⟩ := steadyFolds q self selfType s e steady typed
  exact ⟨v, code, r, constant, lowered, computes, Number.agreeSame agree⟩

end Agreement

def literalOf (id n : Nat) : Expr := .number (plainMark id) (.int n) (toString n)

/-- `7 % 4 + 1 / 2`, whose remainder is folded to a double and computed as an integer. -/
def mixedSum : Expr :=
  .binary (plainMark 1) .add (.binary (plainMark 2) .rem (literalOf 3 7) (literalOf 4 4))
    (.binary (plainMark 5) .div (literalOf 6 1) (literalOf 7 2))

/-- A checker to which some expressions are numbers. -/
def numberTyping (ids : List Nat) : State :=
  { State.initial with nodeTypes := ids.foldr (fun id known => known.insert id Typing.numberType) {} }

def numberStart (ids : List Nat) : Progress := { typing := numberTyping ids, names := { used := [], symbols := [] } }

theorem numberNoted {ids : List Nat} {e : Expr} (among : e.mark.id ∈ ids) : NumberTyped (numberTyping ids) e := by
  have flags : State.initial.allParts Typing.numberType TypeFlags.numberLike = true := rfl
  refine ⟨Typing.numberType, ?_, flags⟩
  induction ids with
  | nil => simp at among
  | cons id rest ih =>
    rw [numberTyping, List.foldr_cons, Std.HashMap.getElem?_insert]
    split
    case isTrue => rfl
    case isFalse other => exact ih ((List.mem_cons.mp among).resolve_left fun same => other (by simp [same]))

set_option maxRecDepth 8192 in
theorem mixedSumFolded : ∃ v code r,
    (Typing.answers.constantValue 0 0 mixedSum).run State.initial = .ok (some v, State.initial) ∧
    lowerExpr mixedSum enumContext (numberStart [2, 3, 4, 5, 6, 7]) = .ok (code, numberStart [2, 3, 4, 5, 6, 7]) ∧
    (∀ (o : Outside) (scopes : List Scope) (w : World), eval o scopes code w = .ok (.number r) w) ∧ v.Same r := by
  refine foldedConstantsAgree _ 0 0 State.initial (by decide) ?_
  exact ⟨⟨numberNoted (by decide), ⟨numberNoted (by decide), trivial⟩, numberNoted (by decide), trivial⟩,
    numberNoted (by decide), ⟨numberNoted (by decide), trivial⟩, numberNoted (by decide), trivial⟩

/-- `0 ** -1` -/
def zeroPower : Expr :=
  .binary (plainMark 1) .pow (literalOf 2 0) (.unary (plainMark 3) .minus (literalOf 4 1))

set_option maxRecDepth 8192 in
/-- The folding of `0 ** -1` ends with a fault, while its code computes an infinity. -/
theorem zeroPowerFaults :
    (Typing.answers.constantValue 0 0 zeroPower).run State.initial = .error .division ∧ ∃ code,
      lowerExpr zeroPower enumContext (numberStart [2, 3, 4]) = .ok (code, numberStart [2, 3, 4]) ∧
      ∀ (o : Outside) (scopes : List Scope) (w : World),
        eval o scopes code w = .ok (.number (Number.infinity false)) w := by
  have zero : (Number.int 0).isWritable = true := by decide
  have first : lowerExpr (literalOf 2 0) enumContext (numberStart [2, 3, 4]) =
      .ok (.number (.int 0), numberStart [2, 3, 4]) := by rw [literalOf, lowerExpr]; exact literalRun zero _ _
  have second : lowerExpr (literalOf 4 1) enumContext (numberStart [2, 3, 4]) =
      .ok (.number (.int 1), numberStart [2, 3, 4]) := by rw [literalOf, lowerExpr]; exact literalRun oneWritable _ _
  have exponent : lowerExpr (.unary (plainMark 3) .minus (literalOf 4 1)) enumContext (numberStart [2, 3, 4]) =
      .ok (.negate (.number (.int 1)), numberStart [2, 3, 4]) := (unaryLowered second (numberNoted (by decide))).1
  refine ⟨rfl, _, binaryLowered (by decide) first exponent (numberNoted (by decide)) (numberNoted (by decide)), ?_⟩
  intro o scopes w
  rfl

end Fragment.Emit
