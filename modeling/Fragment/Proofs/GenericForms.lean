import Fragment.Proofs.RequiredRead
import Fragment.Proofs.Temporaries

/-! Plain forms and helpers.
Where the types of the operands allow it, code has the operators of the output language, and elsewhere helpers for values
of any kind. If the values are of the kinds that the types say, a plain form gives what the helpers give and fails as they
fail. -/
namespace Fragment.Value

variable (s : Store)

/-- Two numbers, two texts or two truth values. -/
inductive OneKind : Value → Value → Prop
  | numbers (a b : Number) : OneKind (.number a) (.number b)
  | texts (a b : String) : OneKind (.text a) (.text b)
  | truths (a b : Bool) : OneKind (.bool a) (.bool b)

theorem addNumbers (a b : Number) : add s (.number a) (.number b) = (a.add b).map .number := by
  have steps : add s (.number a) (.number b) = a.add b >>= fun sum => .ok (.number sum) := rfl
  rw [steps]
  cases a.add b <;> rfl

/-- Texts are joined as soon as one operand is a text. -/
theorem addTexts {a b : Value} (text : (∃ t, a = .text t) ∨ ∃ t, b = .text t) :
    add s a b = (concat s a b).map .text := by
  have primitive (t : String) : toPrimitive s (.text t) = .ok (.text t) := rfl
  have shown (t : String) : toText s (.text t) = .ok t := rfl
  obtain ⟨t, rfl⟩ | ⟨t, rfl⟩ := text
  · simp only [add, concat, primitive, shown, bind, Except.bind]
    cases toPrimitive s b with
    | error => rfl
    | ok b => simp only; cases toText s b <;> rfl
  · simp only [add, concat, primitive, bind, Except.bind]
    cases toPrimitive s a with
    | error => rfl
    | ok a =>
      cases a with
      | text u => simp only [shown]; rfl
      | _ => simp only [shown]; cases toText s _ <;> rfl

/-- A name of a member is no position. -/
theorem memberNoPosition {key : String} {m : Member} (named : Member.ofText? key = some m) :
    positionOfText key = .ok none := by
  unfold Member.ofText? at named
  split at named
  all_goals first
    | rfl
    | cases named

theorem lengthNoPosition : positionOfText "length" = .ok none := rfl

/-- With a text as its key, an index is read as a property. -/
theorem indexMember (target : Value) (key : String) : index s target (.text key) = getMember s target key := by
  have named : propertyKey s (.text key) = .ok key := rfl
  cases target with
  | array ref =>
    unfold index position?
    simp only [named, bind, Except.bind]
    by_cases isLength : key = "length"
    · subst isLength
      rfl
    · unfold getMember
      simp only [isLength, if_false, bind, Except.bind]
      cases positionOfText key with
      | error => rfl
      | ok pos =>
        cases pos with
        | none => rfl
        | some pos => simp only; cases elementAt (s.array ref) pos <;> rfl
  | text t =>
    unfold index position?
    simp only [named, bind, Except.bind]
    by_cases isLength : key = "length"
    · subst isLength
      rfl
    · unfold getMember
      simp only [isLength, if_false, bind, Except.bind]
      cases found : Member.ofText? key with
      | some m =>
        rw [memberNoPosition found]
        rfl
      | none =>
        cases positionOfText key with
        | error => rfl
        | ok pos =>
          cases pos with
          | none => rfl
          | some pos => simp only; cases charAt t pos <;> rfl
  | _ => rfl

theorem lengthMember {v : Value} (sized : (∃ t, v = .text t) ∨ ∃ ref, v = .array ref) :
    getMember s v "length" = (length s v).map fun n => .value (.int n) := by
  obtain ⟨t, rfl⟩ | ⟨ref, rfl⟩ := sized <;> rfl

end Fragment.Value

namespace Fragment.Target

variable {o : Outside} {scopes : List Scope} {w : World}

/-- What holds whenever code gives a value: of the value, and of the world after it. -/
def After (o : Outside) (scopes : List Scope) (e : Expr) (w : World) (post : Value → World → Prop) : Prop :=
  ∀ v u, eval o scopes e w = .ok v u → post v u

theorem bindSame {α β : Type} {m : Run α} {k k' : α → Run β} (same : ∀ a u, m w = .ok a u → k a u = k' a u) :
    (m >>= k) w = (m >>= k') w := by
  simp only [Bind.bind, EStateM.bind]
  cases ended : m w with
  | ok a u => exact same a u ended
  | error => rfl

theorem evalOne (h : Helper) (e : Expr) : eval o scopes (.helper h [e]) = eval o scopes e >>= fun v => callHelper h [v] := by
  simp only [eval, evalAll, bind_assoc, pure_bind]

theorem evalTwo (h : Helper) (l r : Expr) : eval o scopes (.helper h [l, r]) =
    eval o scopes l >>= fun a => eval o scopes r >>= fun b => callHelper h [a, b] := by
  simp only [eval, evalAll, bind_assoc, pure_bind]

/-- A helper applied to values that it leaves as they are. -/
theorem helperKeeps {h : Helper} {e : Expr} (same : After o scopes e w fun v u => callHelper h [v] u = .ok v u) :
    eval o scopes e w = eval o scopes (.helper h [e]) w := by
  rw [evalOne]
  exact (congrFun (bind_pure (eval o scopes e)) w).symm.trans (bindSame fun v u ran => (same v u ran).symm)

theorem bindStart {α β : Type} {m m' : Run α} (k : α → Run β) (same : m w = m' w) : (m >>= k) w = (m' >>= k) w := by
  simp only [Bind.bind, EStateM.bind, same]

/-- Two operations on the values of two operands. -/
theorem pairSame {l r : Expr} {k k' : Value → Value → Run Value}
    (same : After o scopes l w fun a u => After o scopes r u fun b v => k a b v = k' a b v) :
    (eval o scopes l >>= fun a => eval o scopes r >>= k a) w = (eval o scopes l >>= fun a => eval o scopes r >>= k' a) w :=
  bindSame fun a u left => bindSame fun b v right => same a u left b v right

/-- Numbers need no conversion. -/
theorem numberKeeps {e : Expr} (number : After o scopes e w fun v _ => ∃ n, v = .number n) :
    eval o scopes e w = eval o scopes (.helper .toNumber [e]) w := by
  refine helperKeeps fun v u ran => ?_
  obtain ⟨n, rfl⟩ := number v u ran
  rfl

/-- Truth values need no conversion. -/
theorem truthKeeps {e : Expr} (truth : After o scopes e w fun v _ => ∃ b, v = .bool b) :
    eval o scopes e w = eval o scopes (.helper .truthy [e]) w := by
  refine helperKeeps fun v u ran => ?_
  obtain ⟨b, rfl⟩ := truth v u ran
  rfl

theorem evalNegate (e : Expr) : eval o scopes (.negate e) = eval o scopes e >>= fun v => Run.lift (negate v) := by
  simp only [eval]

theorem evalSubscript (e : Expr) (key : String) : eval o scopes (.subscript e key) =
    eval o scopes e >>= fun v => Run.store >>= fun s => Run.lift (subscript s v key) := by
  simp only [eval]

/-- An operator applied to two values. -/
def operate (op : Operator) (a b : Value) : Run Value := do Run.produce (op.apply (← Run.store) a b)

theorem evalBinary (op : Operator) (l r : Expr) :
    eval o scopes (.binary op l r) = eval o scopes l >>= fun a => eval o scopes r >>= operate op a := by
  simp only [eval]
  rfl

theorem addPlain (a b : Number) (w : World) : operate .add (.number a) (.number b) w = callHelper .add [.number a, .number b] w := by
  have plain (s : Store) : Operator.add.apply s (.number a) (.number b) = ((a.add b).map .number).map .value := rfl
  have added (s : Store) := Value.addNumbers s a b
  simp only [operate, callHelper, plain, added]
  cases a.add b <;> rfl

theorem concatAdds {a b : Value} (text : (∃ t, a = .text t) ∨ ∃ t, b = .text t) (w : World) :
    callHelper .concat [a, b] w = callHelper .add [a, b] w := by
  simp only [callHelper, fun s => Value.addTexts s text]
  refine bindSame fun s u _ => ?_
  cases Value.concat s a b <;> rfl

theorem equalKinds (s : Store) {a b : Value} (kind : Value.OneKind a b) :
    valuesEqual s a b = .ok (Value.strictEquals a b) := by
  cases kind with
  | numbers => rfl
  | texts => rfl
  | truths a b => cases a <;> cases b <;> rfl

theorem equalPlain {a b : Value} (kind : Value.OneKind a b) (w : World) :
    operate .equal a b w = callHelper .strictEquals [a, b] w := by
  simp only [operate, Operator.apply, fun s => equalKinds s kind]
  rfl

/-- The opposite of a truth value. -/
def opposite (v : Value) : Run Value := do return .bool !(isTrue (← Run.store) v)

theorem evalNot (e : Expr) : eval o scopes (.not e) = eval o scopes e >>= opposite := by
  simp only [eval]
  rfl

theorem unequalPlain {a b : Value} (kind : Value.OneKind a b) (w : World) :
    operate .notEqual a b w = (callHelper .strictEquals [a, b] >>= opposite) w := by
  simp only [operate, Operator.apply, fun s => equalKinds s kind]
  rfl

end Fragment.Target

namespace Fragment.Emit

open Fragment.Source (BinaryOp UnaryOp)
open Fragment.Typing (TypeId TypeFlags)
open Lowering
open Target (Outside Scope World Run Besides Alike After eval callHelper outside)

/-- A value of the kinds that the flags of a type say. -/
structure Fits (s : Typing.State) (t : TypeId) (v : Value) : Prop where
  number : s.allParts t TypeFlags.numberLike = true → ∃ n, v = .number n
  text : s.allParts t TypeFlags.stringLike = true → ∃ x, v = .text x
  truth : s.allParts t TypeFlags.booleanLike = true → ∃ b, v = .bool b

/-- The form of an operator for values of any kind. Logical operators keep their left operand in a temporary. -/
def genericBinary (temp : String) (op : BinaryOp) (l r : Target.Expr) : Target.Expr :=
  let numbers (op : Target.Operator) : Target.Expr := .binary op (.helper .toNumber [l]) (.helper .toNumber [r])
  match op with
  | .add => .helper .add [l, r]
  | .sub => numbers .sub
  | .mul => numbers .mul
  | .div => .helper .divide [l, r]
  | .rem => .helper .remainder [l, r]
  | .pow => .helper .power [l, r]
  | .less => .binary .less l r
  | .greater => .binary .greater l r
  | .lessEqual => .binary .lessEqual l r
  | .greaterEqual => .binary .greaterEqual l r
  | .strictEqual => .helper .strictEquals [l, r]
  | .strictNotEqual => .not (.helper .strictEquals [l, r])
  | .looseEqual => .helper .looseEquals [l, r]
  | .looseNotEqual => .not (.helper .looseEquals [l, r])
  | .and => .cond (.truthyBind temp l) r (.name temp)
  | .or => .cond (.truthyBind temp l) (.name temp) r

/-! Binary operators -/

section Binary

variable {c : Context} {p q : Progress} {leftType rightType : TypeId} {l r code : Target.Expr}

theorem partsRun (t : TypeId) (mask : TypeFlags) : allParts t mask c p = .ok (p.typing.allParts t mask, p) := askKnown rfl

theorem bothRun (mask : TypeFlags) : bothAre leftType rightType mask c p =
    .ok (p.typing.allParts leftType mask && p.typing.allParts rightType mask, p) := by
  simp only [bothAre, bindRun, partsRun]
  rfl

theorem sumRun : sum l r leftType rightType c p = .ok
    (if p.typing.allParts leftType TypeFlags.numberLike && p.typing.allParts rightType TypeFlags.numberLike then
        .binary .add l r
      else if p.typing.allParts leftType TypeFlags.stringLike || p.typing.allParts rightType TypeFlags.stringLike then
        .helper .concat [l, r]
      else .helper .add [l, r], p) := by
  simp only [sum, bindRun, bothRun]
  split
  · rfl
  · simp only [bindRun, partsRun]
    split <;> rfl

theorem onNumbersRun (op : Target.Operator) : onNumbers op l r leftType rightType c p = .ok
    (if p.typing.allParts leftType TypeFlags.numberLike && p.typing.allParts rightType TypeFlags.numberLike then
        .binary op l r
      else .binary op (.helper .toNumber [l]) (.helper .toNumber [r]), p) := by
  simp only [onNumbers, bindRun, bothRun]
  split <;> rfl

theorem strictRun (negated : Bool) : strictEquality negated l r leftType rightType c p = .ok
    (if [TypeFlags.numberLike, TypeFlags.stringLike, TypeFlags.booleanLike].any fun mask =>
        p.typing.allParts leftType mask && p.typing.allParts rightType mask then
        .binary (if negated then .notEqual else .equal) l r
      else if negated then .not (.helper .strictEquals [l, r]) else .helper .strictEquals [l, r], p) := by
  simp only [strictEquality, bindRun, bothRun, List.any_cons, List.any_nil, Bool.or_false, Bool.or_assoc]
  split
  · rfl
  · cases negated <;> rfl

variable {o : Outside} {scopes : List Scope} {w : World}

/-- Operands whose values are of the kinds that their types say. -/
def OperandsFit (s : Typing.State) (o : Outside) (scopes : List Scope) (w : World) (leftType rightType : TypeId)
    (l r : Target.Expr) : Prop :=
  After o scopes l w fun a u => Fits s leftType a ∧ After o scopes r u fun b _ => Fits s rightType b

/-- Values of types of one primitive kind are of one kind. -/
theorem oneKind {s : Typing.State} {a b : Value} (first : Fits s leftType a) (second : Fits s rightType b)
    (kinds : ([TypeFlags.numberLike, TypeFlags.stringLike, TypeFlags.booleanLike].any fun mask =>
      s.allParts leftType mask && s.allParts rightType mask) = true) : Value.OneKind a b := by
  simp only [List.any_cons, List.any_nil, Bool.or_false, Bool.or_eq_true, Bool.and_eq_true] at kinds
  rcases kinds with ⟨left, right⟩ | ⟨left, right⟩ | ⟨left, right⟩
  · obtain ⟨n, rfl⟩ := first.number left
    obtain ⟨m, rfl⟩ := second.number right
    exact .numbers n m
  · obtain ⟨t, rfl⟩ := first.text left
    obtain ⟨u, rfl⟩ := second.text right
    exact .texts t u
  · obtain ⟨a, rfl⟩ := first.truth left
    obtain ⟨b, rfl⟩ := second.truth right
    exact .truths a b

variable (fit : OperandsFit p.typing o scopes w leftType rightType l r)

include fit

theorem sumAgrees (made : sum l r leftType rightType c p = .ok (code, q)) :
    eval o scopes code w = eval o scopes (.helper .add [l, r]) w := by
  rw [sumRun] at made
  obtain ⟨rfl, -⟩ := Prod.ext_iff.mp (Except.ok.inj made)
  dsimp only
  split
  case isTrue numbers =>
    obtain ⟨left, right⟩ := Bool.and_eq_true .. ▸ numbers
    rw [Target.evalTwo]
    refine Target.pairSame fun a u ran => ?_
    obtain ⟨kind, later⟩ := fit a u ran
    obtain ⟨n, rfl⟩ := kind.number left
    intro b v ran
    obtain ⟨m, rfl⟩ := (later b v ran).number right
    exact Target.addPlain n m v
  case isFalse =>
    split
    case isTrue texts =>
      rw [Target.evalTwo, Target.evalTwo]
      refine Target.pairSame fun a u ran b v later => Target.concatAdds ?_ v
      obtain ⟨left, right⟩ := fit a u ran
      exact (Bool.or_eq_true .. ▸ texts).imp left.text (right b v later).text
    case isFalse => rfl

theorem onNumbersAgrees {op : Target.Operator} (made : onNumbers op l r leftType rightType c p = .ok (code, q)) :
    eval o scopes code w = eval o scopes (.binary op (.helper .toNumber [l]) (.helper .toNumber [r])) w := by
  rw [onNumbersRun] at made
  obtain ⟨rfl, -⟩ := Prod.ext_iff.mp (Except.ok.inj made)
  dsimp only
  split
  case isTrue numbers =>
    obtain ⟨left, right⟩ := Bool.and_eq_true .. ▸ numbers
    have first : After o scopes l w fun v _ => ∃ n, v = .number n := fun v u ran => (fit v u ran).1.number left
    rw [Target.evalBinary, Target.evalBinary, ← Target.bindStart _ (Target.numberKeeps first)]
    refine Target.bindSame fun a u ran => Target.bindStart _ (Target.numberKeeps fun b v later => ?_)
    exact ((fit a u ran).2 b v later).number right
  case isFalse => rfl

theorem strictAgrees {negated : Bool} (made : strictEquality negated l r leftType rightType c p = .ok (code, q)) :
    eval o scopes code w =
      eval o scopes (if negated then .not (.helper .strictEquals [l, r]) else .helper .strictEquals [l, r]) w := by
  rw [strictRun] at made
  obtain ⟨rfl, -⟩ := Prod.ext_iff.mp (Except.ok.inj made)
  dsimp only
  split
  case isTrue kinds =>
    have kind : After o scopes l w fun a u => After o scopes r u fun b _ => Value.OneKind a b := by
      intro a u ran b v later
      obtain ⟨first, rest⟩ := fit a u ran
      exact oneKind first (rest b v later) kinds
    cases negated with
    | false =>
      rw [if_neg (by decide), Target.evalBinary, if_neg (by decide), Target.evalTwo]
      exact Target.pairSame fun a u ran b v later => Target.equalPlain (kind a u ran b v later) v
    | true =>
      rw [if_pos rfl, Target.evalBinary, if_pos rfl, Target.evalNot, Target.evalTwo]
      simp only [bind_assoc]
      exact Target.pairSame fun a u ran b v later => Target.unequalPlain (kind a u ran b v later) v
  case isFalse => rfl

theorem operatorAgrees {op : BinaryOp} (made : operator op l leftType r rightType c p = .ok (code, q)) (temp : String) :
    eval o scopes code w = eval o scopes (genericBinary temp op l r) w := by
  cases op with
  | add => exact sumAgrees fit made
  | sub | mul => exact onNumbersAgrees fit made
  | strictEqual | strictNotEqual => exact strictAgrees fit made
  | and | or => cases made
  | _ =>
    cases made
    rfl

end Binary

/-! Logical operators -/

section Logical

variable {c : Context} {p q : Progress} {t : TypeId} {l r code : Target.Expr}

/-- The operator that a flag stands for. -/
def logicalOp (isAnd : Bool) : BinaryOp := if isAnd then .and else .or

theorem logicalRun (isAnd : Bool) : logicalExpr isAnd t l r c p =
    if p.typing.allParts t TypeFlags.booleanLike then .ok (if isAnd then .and l r else .or l r, p)
    else .ok (genericBinary (p.names.temporary Temporary.value.label).1 (logicalOp isAnd) l r,
      { p with names := (p.names.temporary Temporary.value.label).2 }) := by
  simp only [logicalExpr, bindRun, partsRun]
  split
  · rfl
  · cases isAnd <;> rfl

/-- A logical operator keeps its left operand in a temporary, or its left operand is a truth value and it does the
same as with any temporary. -/
theorem logicalAgrees {isAnd : Bool} {fuel : Nat} {scopes : List Scope} {w : World}
    (made : logicalExpr isAnd t l r c p = .ok (code, q))
    (fit : After (outside fuel) scopes l w fun v _ => Fits p.typing t v) :
    (∃ temp, code = genericBinary temp (logicalOp isAnd) l r) ∨
      ∀ temp, w.Spares temp → (∀ s ∈ scopes, s.frame < w.frames.size) → l.Uses (· ≠ temp) → r.Uses (· ≠ temp) →
        Alike temp w.frames.size (fun _ => True) (eval (outside fuel) scopes code w)
          (eval (outside fuel) scopes (genericBinary temp (logicalOp isAnd) l r) w) := by
  rw [logicalRun] at made
  split at made
  case isTrue truth =>
    cases made
    refine .inr fun temp spares live first second => ?_
    have both := Target.logicalAlike (Target.outsideBlind temp fuel) spares live first second
      fun v u ran => (fit v u ran).truth truth
    cases isAnd with
    | true => exact both.1
    | false => exact both.2
  case isFalse =>
    cases made
    exact .inl ⟨_, rfl⟩

end Logical

/-! Conditions and unary operators -/

section Single

variable {c : Context} {p q q' : Progress} {source : Source.Expr} {t : TypeId} {operand code : Target.Expr}
  {o : Outside} {scopes : List Scope} {w : World}

/-- The form of a unary operator for values of any kind. -/
def genericUnary (op : UnaryOp) (operand : Target.Expr) : Target.Expr :=
  match op with
  | .not => .not (.helper .truthy [operand])
  | .typeof => .helper .typeOf [operand]
  | .minus => .negate (.helper .toNumber [operand])
  | .plus => .helper .toNumber [operand]

theorem conditionAgrees (typed : typeOf source c p = .ok (t, q)) (made : condition source operand c p = .ok (code, q'))
    (fit : After o scopes operand w fun v _ => Fits q.typing t v) :
    eval o scopes code w = eval o scopes (.helper .truthy [operand]) w := by
  simp only [condition, bindRun, typed, partsRun] at made
  split at made
  case isTrue truth =>
    cases made
    exact Target.truthKeeps fun v u ran => (fit v u ran).truth truth
  case isFalse =>
    cases made
    rfl

theorem unaryAgrees {op : UnaryOp} (typed : typeOf source c p = .ok (t, q))
    (made : unaryExpr op source operand c p = .ok (code, q'))
    (fit : After o scopes operand w fun v _ => Fits q.typing t v) :
    eval o scopes code w = eval o scopes (genericUnary op operand) w := by
  simp only [unaryExpr, bindRun, typed] at made
  have number : eval o scopes (if q.typing.allParts t TypeFlags.numberLike then operand else .helper .toNumber [operand]) w =
      eval o scopes (.helper .toNumber [operand]) w := by
    split
    case isTrue numbers => exact Target.numberKeeps fun v u ran => (fit v u ran).number numbers
    case isFalse => rfl
  cases op with
  | not =>
    simp only [bindRun, partsRun] at made
    split at made
    case isTrue truth =>
      cases made
      rw [genericUnary, Target.evalNot, Target.evalNot]
      exact Target.bindStart _ (Target.truthKeeps fun v u ran => (fit v u ran).truth truth)
    case isFalse =>
      cases made
      rfl
  | typeof =>
    cases made
    rfl
  | minus =>
    simp only [bindRun, partsRun] at made
    cases made
    rw [genericUnary, if_pos trivial, Target.evalNegate, Target.evalNegate]
    exact Target.bindStart _ number
  | plus =>
    simp only [bindRun, partsRun] at made
    cases made
    exact number

/-! Properties and elements -/

/-- An access that reads a property that is always there. -/
def Required (s : Typing.State) (mark : Source.Mark) : Prop :=
  ((symbolAt s mark).any fun x => !(s.symbol x).isOptional) = true

/-- A type whose parts are all records. -/
def Records (s : Typing.State) (t : TypeId) : Prop := ((s.parts t).all fun part => (s.typeInfo part).isRecord) = true

/-- An object that has a field. -/
def HasField (name : String) (v : Value) (w : World) : Prop := ∃ ref, v = .object ref ∧ w.hasField ref name

/-- The object of a property read: a text or array if its type says so, and an object with the property if the types
allow it to be read without a helper. -/
structure ReadFits (s : Typing.State) (mark : Source.Mark) (t : TypeId) (name : String) (v : Value) (w : World) : Prop where
  text : s.allParts t TypeFlags.stringLike = true → ∃ x, v = .text x
  array : (s.typeInfo t).form.isArray = true → ∃ ref, v = .array ref
  field : Required s mark → Records s t → HasField name v w

/-- An index of a text is read as a property is. -/
theorem indexAgrees (name : String) :
    eval o scopes (.helper .index [operand, .text name]) w = eval o scopes (.helper .getMember [operand, .text name]) w := by
  rw [Target.evalTwo, Target.evalTwo]
  refine Target.bindSame fun v u _ => ?_
  simp only [eval, pure_bind, callHelper, Value.indexMember]

/-- A field that is there is read alike with and without the helper. -/
theorem subscriptAgrees {name : String}
    (there : After o scopes operand w (HasField name)) :
    eval o scopes (.subscript operand name) w = eval o scopes (.helper .getMember [operand, .text name]) w := by
  rw [Target.evalTwo, Target.evalSubscript]
  refine Target.bindSame fun v u ran => ?_
  obtain ⟨ref, rfl, has⟩ := there v u ran
  obtain ⟨found, field⟩ := Option.isSome_iff_exists.mp has
  simp only [eval, pure_bind, callHelper]
  refine Target.bindSame fun s u' stored => ?_
  cases stored
  unfold Target.subscript Value.getMember
  simp only [field]
  rfl

theorem memberAgrees {mark : Source.Mark} {name : String} (typed : typeOf source c p = .ok (t, q))
    (made : memberExpr mark source name operand c p = .ok (code, q'))
    (fit : After o scopes operand w (ReadFits q.typing mark t name)) :
    eval o scopes code w = eval o scopes (.helper .getMember [operand, .text name]) w := by
  rw [memberRun typed] at made
  obtain ⟨rfl, -⟩ := Prod.ext_iff.mp (Except.ok.inj made)
  dsimp only
  split
  case isTrue sized =>
    obtain ⟨isLength, kind⟩ := Bool.and_eq_true .. ▸ sized
    obtain rfl := of_decide_eq_true isLength
    rw [Target.evalOne, Target.evalTwo]
    refine Target.bindSame fun v u ran => ?_
    have holds := fit v u ran
    have sized := (Bool.or_eq_true .. ▸ kind).imp holds.text holds.array
    simp only [eval, pure_bind, callHelper, fun s => Value.lengthMember s sized]
    refine Target.bindSame fun s u' _ => ?_
    cases Value.length s v <;> rfl
  case isFalse =>
    split
    case isTrue both =>
      obtain ⟨required, record⟩ := Bool.and_eq_true .. ▸ both
      exact subscriptAgrees fun v u ran => (fit v u ran).field required record
    case isFalse => rfl

/-- An element that is read with a literal key. The type of the object matters only there. -/
theorem elementAgrees {mark : Source.Mark} {index : Source.Expr} {key : Target.Expr}
    (made : elementExpr mark source index operand key c p = .ok (code, q))
    (fit : ∀ m name, index = .string m name → key = .text name ∧ (Required p.typing mark → ∀ t q,
      typeOf source c p = .ok (t, q) → Records q.typing t → After o scopes operand w (HasField name))) :
    eval o scopes code w = eval o scopes (.helper .index [operand, key]) w := by
  unfold elementExpr at made
  split at made
  case h_2 =>
    cases made
    rfl
  case h_1 m name =>
    obtain ⟨rfl, holds⟩ := fit m name rfl
    rw [bindRun, requiredRun] at made
    dsimp only at made
    split at made
    case isFalse =>
      cases made
      rfl
    case isTrue required =>
      obtain ⟨t, q, typed, made⟩ := bindOk made
      rw [bindRun, plainRun] at made
      dsimp only at made
      split at made
      case isFalse =>
        cases made
        rfl
      case isTrue record =>
        cases made
        rw [indexAgrees]
        exact subscriptAgrees (holds required t _ typed record)

end Single

/-- Every form that is chosen for the types of its operands gives what the form for values of any kind gives, if the
values are of the kinds that the types say: the same value or the same fault, and the same world. -/
structure FormsAgree (c : Context) (p : Progress) (fuel : Nat) (scopes : List Scope) (w : World) : Prop where
  binary : ∀ {op l leftType r rightType code q}, operator op l leftType r rightType c p = .ok (code, q) →
    OperandsFit p.typing (outside fuel) scopes w leftType rightType l r →
    ∀ temp, eval (outside fuel) scopes code w = eval (outside fuel) scopes (genericBinary temp op l r) w
  /-- Up to what the temporary holds, which no other code uses. -/
  logical : ∀ {isAnd t l r code q}, logicalExpr isAnd t l r c p = .ok (code, q) →
    (After (outside fuel) scopes l w fun v _ => Fits p.typing t v) →
    (∃ temp, code = genericBinary temp (logicalOp isAnd) l r) ∨
      ∀ temp, w.Spares temp → (∀ s ∈ scopes, s.frame < w.frames.size) → l.Uses (· ≠ temp) → r.Uses (· ≠ temp) →
        Alike temp w.frames.size (fun _ => True) (eval (outside fuel) scopes code w)
          (eval (outside fuel) scopes (genericBinary temp (logicalOp isAnd) l r) w)
  unary : ∀ {op source operand t code q q'}, typeOf source c p = .ok (t, q) →
    unaryExpr op source operand c p = .ok (code, q') →
    (After (outside fuel) scopes operand w fun v _ => Fits q.typing t v) →
    eval (outside fuel) scopes code w = eval (outside fuel) scopes (genericUnary op operand) w
  condition : ∀ {source test t code q q'}, typeOf source c p = .ok (t, q) →
    Emit.condition source test c p = .ok (code, q') →
    (After (outside fuel) scopes test w fun v _ => Fits q.typing t v) →
    eval (outside fuel) scopes code w = eval (outside fuel) scopes (.helper .truthy [test]) w
  member : ∀ {mark source name target t code q q'}, typeOf source c p = .ok (t, q) →
    memberExpr mark source name target c p = .ok (code, q') →
    After (outside fuel) scopes target w (ReadFits q.typing mark t name) →
    eval (outside fuel) scopes code w = eval (outside fuel) scopes (.helper .getMember [target, .text name]) w
  element : ∀ {mark source index target key code q}, elementExpr mark source index target key c p = .ok (code, q) →
    (∀ m name, index = .string m name → key = .text name ∧ (Required p.typing mark → ∀ t q,
      typeOf source c p = .ok (t, q) → Records q.typing t → After (outside fuel) scopes target w (HasField name))) →
    eval (outside fuel) scopes code w = eval (outside fuel) scopes (.helper .index [target, key]) w
  /-- So an assignment that combines reads what a read of the property sees. -/
  index : ∀ s target key, Value.index s target (.text key) = Value.getMember s target key

theorem formsAgree (c : Context) (p : Progress) (fuel : Nat) (scopes : List Scope) (w : World) :
    FormsAgree c p fuel scopes w where
  binary made fit temp := operatorAgrees fit made temp
  logical made fit := logicalAgrees made fit
  unary typed made fit := unaryAgrees typed made fit
  condition typed made fit := conditionAgrees typed made fit
  member typed made fit := memberAgrees typed made fit
  element made fit := elementAgrees made fit
  index := Value.indexMember

end Fragment.Emit
