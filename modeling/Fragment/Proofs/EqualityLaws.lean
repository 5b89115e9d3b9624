import Fragment.Proofs.NumberValues
import Fragment.Value.Equality

/-! The laws of the two equalities.
`===` is an equivalence on all values but NaN, which equals nothing. `==` is a chain of tests that converts a truth value
or a compound value on either side and then asks again. Each conversion lowers a rank, so the chain ends; where it ends
does not depend on which side a value is on, although the tests look at the left side first. -/
namespace Fragment.Value

/-! Strict equality -/

/-- Whether a value is not NaN. -/
def hasValue : Value → Bool
  | .number n => n.hasValue
  | _ => true

section Strict

variable {a b c : Value}

/-- Two numbers that are equal, or one value that is not a number. -/
theorem strictCases : strictEquals a b = true ↔
    (∃ x y, a = .number x ∧ b = .number y ∧ x.equals y = true) ∨ a.kind ≠ .number ∧ a = b := by
  constructor
  · intro same
    cases a <;> cases b <;> try exact absurd same Bool.false_ne_true
    case number.number x y => exact .inl ⟨x, y, rfl, rfl, same⟩
    case undefined.undefined => exact .inr ⟨nofun, rfl⟩
    all_goals exact .inr ⟨nofun, congrArg _ (eq_of_beq same)⟩
  · rintro (⟨x, y, rfl, rfl, same⟩ | ⟨other, rfl⟩)
    · exact same
    · cases a <;> first
        | rfl
        | exact beq_self_eq_true _
        | exact absurd rfl other

theorem strictBack (same : strictEquals a b = true) : strictEquals b a = true := by
  obtain ⟨x, y, rfl, rfl, numbers⟩ | ⟨other, rfl⟩ := strictCases.mp same
  · exact strictCases.mpr (.inl ⟨y, x, rfl, rfl, Number.equalsSymm x y ▸ numbers⟩)
  · exact same

theorem strictSymm (a b : Value) : strictEquals a b = strictEquals b a :=
  Bool.eq_iff_iff.mpr ⟨strictBack, strictBack⟩

theorem strictTrans (first : strictEquals a b = true) (second : strictEquals b c = true) : strictEquals a c = true := by
  obtain ⟨x, y, rfl, rfl, left⟩ | ⟨-, rfl⟩ := strictCases.mp first
  · obtain ⟨y, z, same, rfl, right⟩ | ⟨other, -⟩ := strictCases.mp second
    · cases same
      exact strictCases.mpr (.inl ⟨x, z, rfl, rfl, Number.equalsTrans left right⟩)
    · exact absurd rfl other
  · exact second

theorem strictSelf : strictEquals a a = true ↔ a.hasValue = true := by
  unfold strictEquals sameReference hasValue
  cases a <;> simp [Number.equalsSelf]

theorem strictValue (same : strictEquals a b = true) : a.hasValue = true :=
  strictSelf.mp (strictTrans same (strictBack same))

theorem strictKind (same : strictEquals a b = true) : a.kind = b.kind := by
  obtain ⟨x, y, rfl, rfl, -⟩ | ⟨-, rfl⟩ := strictCases.mp same
  · rfl
  · rfl

end Strict

/-! Loose equality -/

/-- One pass through the tests of `==`: the answer, or the two values to ask for next. -/
def looseStep (s : Store) : Value × Value → Except Fault (Bool ⊕ Value × Value)
  | (.undefined, .undefined) => .ok (.inl true)
  | (.undefined, _) | (_, .undefined) => .ok (.inl false)
  | (a, b) =>
    if a.kind = b.kind then .ok (.inl (strictEquals a b))
    else match a, b with
      | .bool _, _ => .ok (.inr (countTruth a, b))
      | _, .bool _ => .ok (.inr (a, countTruth b))
      | .number x, .text t => return .inl (x.equals (← numberOfText t))
      | .text t, .number y => return .inl ((← numberOfText t).equals y)
      | _, _ =>
        if a.isCompound && !b.isCompound then return .inr (← toPrimitive s a, b)
        else if b.isCompound && !a.isCompound then return .inr (a, ← toPrimitive s b)
        else .ok (.inl false)

/-- The tests of `==`, passed through until they give an answer or fail. -/
inductive LooseRun (s : Store) : Value × Value → Except Fault Bool → Prop
  | fails {p : Value × Value} {f : Fault} (step : looseStep s p = .error f) : LooseRun s p (.error f)
  | ends {p : Value × Value} {r : Bool} (step : looseStep s p = .ok (.inl r)) : LooseRun s p (.ok r)
  | goes {p q : Value × Value} {r : Except Fault Bool} (step : looseStep s p = .ok (.inr q)) (rest : LooseRun s q r) :
    LooseRun s p r

/-- How many conversions a value may still need. -/
def conversions : Value → Nat
  | .bool _ | .array _ | .object _ => 1
  | _ => 0

section Loose

variable {s : Store} {a b : Value} {p q : Value × Value}

theorem looseKind (same : a.kind = b.kind) : looseEquals s a b = .ok (strictEquals a b) := by
  cases a <;> cases b <;> first
    | rfl
    | cases same

theorem scalarsSymm (a b : Value) : looseScalars a b = looseScalars b a := by
  have others (a b : Value) : (Except.ok (a.kind = b.kind && strictEquals a b) : Except Fault Bool) =
      .ok (b.kind = a.kind && strictEquals b a) := by
    rw [strictSymm a b]
    simp only [eq_comm]
  cases a <;> cases b <;> try exact others _ _
  case number.text x t =>
    unfold looseScalars
    simp only [Number.equalsSymm x]
  case text.number t y =>
    unfold looseScalars
    simp only [Number.equalsSymm y]

theorem plainSymm (left : a.kind ≠ .boolean) (right : b.kind ≠ .boolean) : looseEquals s a b = looseEquals s b a := by
  by_cases same : a.kind = b.kind
  · rw [looseKind same, looseKind same.symm, strictSymm]
  · cases a <;> cases b <;> try first
      | rfl
      | exact absurd rfl same
      | exact absurd rfl left
      | exact absurd rfl right
    case number.text x t => exact scalarsSymm (.number x) (.text t)
    case text.number t y => exact scalarsSymm (.text t) (.number y)
    case array.number | array.text | array.function | object.number | object.text =>
      exact bind_congr fun v => scalarsSymm v _
    case number.array | text.array | function.array | number.object | text.object =>
      exact bind_congr fun v => scalarsSymm _ v

theorem countedKind (v : Value) : (countTruth v).kind ≠ .boolean := by
  cases v <;> nofun

theorem looseCounted (other : a.kind ≠ b.kind) : looseEquals s a b = looseEquals s (countTruth a) (countTruth b) := by
  cases a <;> cases b <;> first
    | rfl
    | exact absurd rfl other

theorem looseSymm (s : Store) (a b : Value) : looseEquals s a b = looseEquals s b a := by
  by_cases same : a.kind = b.kind
  · rw [looseKind same, looseKind same.symm, strictSymm]
  · rw [looseCounted same, looseCounted (Ne.symm same), plainSymm (countedKind a) (countedKind b)]

/-- Converting a truth value on the left, where the kinds differ, does not change the answer. -/
theorem looseTruth (x : Bool) (other : b.kind ≠ .boolean) :
    looseEquals s (.bool x) b = looseEquals s (countTruth (.bool x)) b := by
  cases b <;> first
    | rfl
    | exact absurd rfl other

theorem besideText (t : String) (single : b.isCompound = false) (defined : b.kind ≠ .undefined)
    (plain : b.kind ≠ .boolean) : looseScalars (.text t) b = looseEquals s (.text t) b := by
  cases b with
  | undefined => exact absurd rfl defined
  | bool => exact absurd rfl plain
  | array | object => cases single
  | _ => rfl

/-- Nor does converting an array or an object on the left. -/
theorem looseCompound (compound : a.isCompound = true) (other : a.kind ≠ b.kind) (defined : b.kind ≠ .undefined)
    (plain : b.kind ≠ .boolean) : looseEquals s a b = (do looseEquals s (← toPrimitive s a) b) := by
  have single : b.isCompound = false := by
    cases a with
    | array | object => cases b with
      | array | object => exact absurd rfl other
      | _ => rfl
    | _ => cases compound
  have spelled : toPrimitive s a = do return .text (← toText s a) := by
    cases a with
    | array | object => rfl
    | _ => cases compound
  calc looseEquals s a b
    _ = (do looseScalars (← toPrimitive s a) b) := by
      cases a with
      | array | object => cases b with
        | undefined => exact absurd rfl defined
        | bool => exact absurd rfl plain
        | array | object => cases single
        | promise => exact absurd rfl other
        | _ => rfl
      | _ => cases compound
    _ = (do looseEquals s (← toPrimitive s a) b) := by
      simp only [spelled, bind_assoc, pure_bind]
      exact bind_congr fun t => besideText t single defined plain

/-! The run of the tests -/

/-- What `==` gives where a pass has led. -/
def looseRest (s : Store) : Bool ⊕ Value × Value → Except Fault Bool
  | .inl r => .ok r
  | .inr (c, d) => looseEquals s c d

theorem stepLeft (compound : a.isCompound = true) (other : a.kind ≠ b.kind) (defined : b.kind ≠ .undefined)
    (plain : b.kind ≠ .boolean) : looseStep s (a, b) = do return .inr (← toPrimitive s a, b) := by
  cases a with
  | array | object => cases b <;> first
    | rfl
    | exact absurd rfl defined
    | exact absurd rfl plain
    | exact absurd rfl other
  | _ => cases compound

theorem stepRight (compound : b.isCompound = true) (other : a.kind ≠ b.kind) (defined : a.kind ≠ .undefined)
    (plain : a.kind ≠ .boolean) : looseStep s (a, b) = do return .inr (a, ← toPrimitive s b) := by
  cases b with
  | array | object => cases a <;> first
    | rfl
    | exact absurd rfl defined
    | exact absurd rfl plain
    | exact absurd rfl other
  | _ => cases compound

theorem scalarPass (left : a.isCompound = false) (right : b.isCompound = false) (other : a.kind ≠ b.kind)
    (plain : a.kind ≠ .boolean ∧ b.kind ≠ .boolean) : looseEquals s a b = (do looseRest s (← looseStep s (a, b))) := by
  cases a with
  | bool => exact absurd rfl plain.1
  | array | object => cases left
  | number x =>
    cases b with
    | text t =>
      have step : looseStep s (.number x, .text t) = do return .inl (x.equals (← numberOfText t)) := rfl
      rw [step]
      simp only [bind_assoc, pure_bind]
      rfl
    | bool => exact absurd rfl plain.2
    | array | object => cases right
    | number => exact absurd rfl other
    | _ => rfl
  | text t =>
    cases b with
    | number y =>
      have step : looseStep s (.text t, .number y) = do return .inl ((← numberOfText t).equals y) := rfl
      rw [step]
      simp only [bind_assoc, pure_bind]
      rfl
    | bool => exact absurd rfl plain.2
    | array | object => cases right
    | text => exact absurd rfl other
    | _ => rfl
  | undefined | function | promise => cases b <;> first
    | rfl
    | cases right

/-- One pass, and then the rest. -/
theorem loosePass (s : Store) (a b : Value) : looseEquals s a b = (do looseRest s (← looseStep s (a, b))) := by
  by_cases same : a.kind = b.kind
  · rw [looseKind same]
    cases a <;> cases b <;> first
      | rfl
      | cases same
  by_cases simple : a.kind = .undefined ∨ b.kind = .undefined ∨ a.kind = .boolean ∨ b.kind = .boolean
  · obtain left | right | left | right := simple
    · cases a with
      | undefined => cases b <;> rfl
      | _ => cases left
    · cases b with
      | undefined => cases a <;> rfl
      | _ => cases right
    · cases a with
      | bool => cases b <;> rfl
      | _ => cases left
    · cases b with
      | bool => cases a <;> rfl
      | _ => cases right
  obtain ⟨defined, more, plain, numbers⟩ : a.kind ≠ .undefined ∧ b.kind ≠ .undefined ∧ a.kind ≠ .boolean ∧
    b.kind ≠ .boolean := by simpa only [not_or] using simple
  cases left : a.isCompound
  · cases right : b.isCompound
    · exact scalarPass left right same ⟨plain, numbers⟩
    · rw [stepRight right same defined plain, looseSymm, looseCompound right (Ne.symm same) defined plain]
      unfold looseRest
      simp only [bind_assoc, pure_bind, looseSymm s a]
  · rw [stepLeft left same more numbers, looseCompound left same more numbers]
    unfold looseRest
    simp only [bind_assoc, pure_bind]

theorem convertedLess (compound : a.isCompound = true) (found : toPrimitive s a = .ok b) :
    conversions b < conversions a := by
  cases a with
  | array | object =>
    unfold toPrimitive at found
    simp only [bind, Except.bind] at found
    split at found
    · cases found
    · cases found
      exact Nat.zero_lt_one
  | _ => cases compound

/-- A pass that leads on has converted the value on one side. -/
theorem stepCases (step : looseStep s (a, b) = .ok (.inr q)) :
    (∃ x, a = .bool x ∧ q = (countTruth a, b)) ∨ (∃ y, b = .bool y ∧ q = (a, countTruth b)) ∨
    (a.isCompound = true ∧ ∃ v, toPrimitive s a = .ok v ∧ q = (v, b)) ∨
    (b.isCompound = true ∧ ∃ v, toPrimitive s b = .ok v ∧ q = (a, v)) := by
  unfold looseStep at step
  split at step
  case h_1 | h_2 | h_3 => cases step
  case h_4 =>
    rename_i c d _ _ _ same
    cases same
    split at step
    case isTrue => cases step
    case isFalse =>
      split at step
      case h_1 => exact .inl ⟨_, rfl, (Sum.inr.inj (Except.ok.inj step)).symm⟩
      case h_2 => exact .inr (.inl ⟨_, rfl, (Sum.inr.inj (Except.ok.inj step)).symm⟩)
      case h_3 | h_4 =>
        simp only [bind, Except.bind] at step
        split at step <;> cases step
      case h_5 =>
        split at step
        case isTrue compound =>
          simp only [bind, Except.bind] at step
          split at step
          · cases step
          case h_2 v found =>
            cases step
            exact .inr (.inr (.inl ⟨(Bool.and_eq_true_iff.mp compound).1, v, found, rfl⟩))
        case isFalse =>
          split at step
          case isTrue compound =>
            simp only [bind, Except.bind] at step
            split at step
            · cases step
            case h_2 v found =>
              cases step
              exact .inr (.inr (.inr ⟨(Bool.and_eq_true_iff.mp compound).1, v, found, rfl⟩))
          case isFalse => cases step

/-- Each conversion leaves fewer to come. -/
theorem stepConverts {c d : Value} (step : looseStep s (a, b) = .ok (.inr (c, d))) :
    conversions c + conversions d < conversions a + conversions b := by
  obtain ⟨x, rfl, same⟩ | ⟨y, rfl, same⟩ | ⟨compound, v, found, same⟩ | ⟨compound, v, found, same⟩ := stepCases step
  · cases same
    exact Nat.add_lt_add_right Nat.zero_lt_one _
  · cases same
    exact Nat.add_lt_add_left Nat.zero_lt_one _
  · cases same
    exact Nat.add_lt_add_right (convertedLess compound found) _
  · cases same
    exact Nat.add_lt_add_left (convertedLess compound found) _

theorem runFrom (n : Nat) (few : conversions a + conversions b < n) : LooseRun s (a, b) (looseEquals s a b) := by
  induction n generalizing a b with
  | zero => exact absurd few (by omega)
  | succ n ih =>
    rw [loosePass]
    cases step : looseStep s (a, b) with
    | error f => exact .fails step
    | ok next =>
      match next with
      | .inl r => exact .ends step
      | .inr (c, d) => exact .goes step (ih (by have := stepConverts step; omega))

/-- There is one run, and it ends with what `==` gives. -/
theorem runEnds {r : Except Fault Bool} : LooseRun s (a, b) r ↔ looseEquals s a b = r := by
  constructor
  · intro run
    generalize start : (a, b) = p at run
    induction run generalizing a b with
    | fails step => subst start; rw [loosePass, step]; rfl
    | ends step => subst start; rw [loosePass, step]; rfl
    | @goes p q r step rest ih =>
      subst start
      rw [loosePass, step]
      exact ih rfl
  · rintro rfl
    exact runFrom _ (Nat.lt_succ_self _)

end Loose

/-- What holds of the two equalities. -/
structure EqualityLaws (s : Store) : Prop where
  symm (a b : Value) : strictEquals a b = strictEquals b a
  trans {a b c : Value} (first : strictEquals a b = true) (second : strictEquals b c = true) : strictEquals a c = true
  self (a : Value) : strictEquals a a = true ↔ a.hasValue = true
  value {a b : Value} (same : strictEquals a b = true) : a.hasValue = true
  loose {a b : Value} (same : strictEquals a b = true) : looseEquals s a b = .ok true
  swapped (a b : Value) : looseEquals s a b = looseEquals s b a
  ends (a b : Value) (r : Except Fault Bool) : LooseRun s (a, b) r ↔ looseEquals s a b = r

/-- `===` is an equivalence apart from NaN and implies `==`, which is symmetric and comes to an end. -/
theorem equalitiesLawful (s : Store) : EqualityLaws s where
  symm := strictSymm
  trans := strictTrans
  self _ := strictSelf
  value := strictValue
  loose same := by rw [looseKind (strictKind same), same]
  swapped := looseSymm s
  ends _ _ _ := runEnds

end Fragment.Value
