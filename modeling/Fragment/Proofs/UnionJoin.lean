import Fragment.Proofs.Interning
import Fragment.Proofs.UnionParts

/-! The union of two types is their join.
A union is made by leaving parts out that others take in, and by joining the two truth values. What is
left out takes part in the same questions as what it is left out for, as long as no enumeration is there:
all numbers are assignable to an enumeration, but not each literal number is. -/
namespace Fragment.Typing

/-- Whether the form comes from no enumeration, type parameter, union or intersection. -/
def Form.isOrdinary : Form → Bool
  | .intrinsic _ | .literal .. | .interface _ | .reference .. | .array _ | .anonymous _ => true
  | _ => false

/-- The flags of such types other than `any`. -/
def ordinaryFlags : List TypeFlags :=
  [TypeFlags.unknown, TypeFlags.undefined, TypeFlags.void, TypeFlags.never, TypeFlags.string, TypeFlags.number,
    TypeFlags.boolean, TypeFlags.stringLiteral, TypeFlags.numberLiteral, TypeFlags.booleanLiteral, TypeFlags.object]

/-- The flags of basic types that have literals, with those of the literals. -/
def literalKinds : List (TypeFlags × TypeFlags) :=
  [(TypeFlags.string, TypeFlags.stringLiteral), (TypeFlags.number, TypeFlags.numberLiteral),
    (TypeFlags.boolean, TypeFlags.booleanLiteral)]

namespace State

/-- A type without parts that is not `any`, an enumeration, one of its members or a type parameter. An
object literal lists its properties under their names. -/
structure Simple (st : State) (p : TypeId) : Prop where
  has : st.Has p
  flags : st.flagsAt p ∈ ordinaryFlags
  form : (st.typeInfo p).form.isOrdinary = true
  keyed : st.isFresh p = true → st.Keyed p

/-- A type all parts of which are simple. -/
def Ordinary (st : State) (t : TypeId) : Prop := st.Has t ∧ ∀ p ∈ st.parts t, st.Simple p

variable {st : State} {p q t u base lit : TypeId}

section Flags

theorem simplyUnknown (flags : st.flagsAt q = TypeFlags.unknown) (p : TypeId) :
    st.simplyRelated .assignable p q = some true := by
  have top : (st.typeInfo q).flags.meets TypeFlags.anyOrUnknown = true := by
    show (st.flagsAt q).meets _ = true
    rw [flags]
    rfl
  simp [simplyRelated, top]

theorem simplyNever (flags : st.flagsAt p = TypeFlags.never) (q : TypeId) :
    st.simplyRelated .assignable p q = some true := by
  have bottom : (st.typeInfo p).flags.meets TypeFlags.never = true := by
    show (st.flagsAt p).meets _ = true
    rw [flags]
    rfl
  simp [simplyRelated, bottom]

/- What may be anything is assignable to nothing else. -/
theorem unknownSource (unknown : st.flagsAt p = TypeFlags.unknown) (flags : st.flagsAt q ∈ ordinaryFlags)
    (other : st.flagsAt q ≠ TypeFlags.unknown) : st.truth (.assignable, p, q) = false := by
  refine truthSimple (fun same => other (same ▸ unknown)) ?_
  unfold flagsAt at unknown flags other
  simp only [ordinaryFlags, List.mem_cons, List.not_mem_nil, or_false] at flags
  unfold simplyRelated
  rcases flags with h | h | h | h | h | h | h | h | h | h | h <;>
    first
    | exact absurd h other
    | (rw [unknown, h]; rfl)

/- Nothing else is assignable to the empty type. -/
theorem neverTarget (never : st.flagsAt q = TypeFlags.never) (flags : st.flagsAt p ∈ ordinaryFlags)
    (other : st.flagsAt p ≠ TypeFlags.never) : st.truth (.assignable, p, q) = false := by
  refine truthSimple (fun same => other (same ▸ never)) ?_
  unfold flagsAt at never flags other
  simp only [ordinaryFlags, List.mem_cons, List.not_mem_nil, or_false] at flags
  unfold simplyRelated
  rcases flags with h | h | h | h | h | h | h | h | h | h | h <;>
    first
    | exact absurd h other
    | (rw [never, h]; rfl)

/- What takes the basic type takes its literals. -/
theorem basicSource (kinds : (st.flagsAt base, st.flagsAt lit) ∈ literalKinds) (flags : st.flagsAt q ∈ ordinaryFlags)
    (plain : st.flagsAt q ≠ TypeFlags.object) :
    st.simplyRelated .assignable base q = some false ∨ st.simplyRelated .assignable lit q = some true := by
  unfold flagsAt at kinds flags plain
  simp only [literalKinds, ordinaryFlags, List.mem_cons, List.not_mem_nil, or_false, Prod.mk.injEq] at kinds flags
  unfold simplyRelated numbersRelated
  rcases kinds with ⟨hb, hl⟩ | ⟨hb, hl⟩ | ⟨hb, hl⟩ <;>
    rcases flags with h | h | h | h | h | h | h | h | h | h | h <;>
    first
    | exact absurd h plain
    | (rw [hb, hl, h]; first | exact .inl rfl | exact .inr rfl)

theorem literalBasic (kinds : (st.flagsAt base, st.flagsAt lit) ∈ literalKinds) :
    st.simplyRelated .assignable lit base = some true := by
  unfold flagsAt at kinds
  simp only [literalKinds, List.mem_cons, List.not_mem_nil, or_false, Prod.mk.injEq] at kinds
  unfold simplyRelated numbersRelated
  rcases kinds with ⟨hb, hl⟩ | ⟨hb, hl⟩ | ⟨hb, hl⟩ <;> rw [hb, hl] <;> rfl

/- What is assignable to a literal is assignable to its basic type. -/
theorem literalTarget (kinds : (st.flagsAt base, st.flagsAt lit) ∈ literalKinds) (flags : st.flagsAt p ∈ ordinaryFlags) :
    st.simplyRelated .assignable p lit = some false ∨ st.simplyRelated .assignable p base = some true := by
  unfold flagsAt at kinds flags
  simp only [literalKinds, ordinaryFlags, List.mem_cons, List.not_mem_nil, or_false, Prod.mk.injEq] at kinds flags
  unfold simplyRelated numbersRelated
  rcases kinds with ⟨hb, hl⟩ | ⟨hb, hl⟩ | ⟨hb, hl⟩ <;>
    rcases flags with h | h | h | h | h | h | h | h | h | h | h <;>
    (rw [hb, hl, h]; first | exact .inl rfl | exact .inr rfl)

/- What takes one truth value and is no truth value takes both. -/
theorem boolSource (flagsB : st.flagsAt base = TypeFlags.boolean) (flagsL : st.flagsAt lit = TypeFlags.booleanLiteral)
    (flags : st.flagsAt q ∈ ordinaryFlags) (plain : st.flagsAt q ≠ TypeFlags.object) :
    st.simplyRelated .assignable lit q = some false ∨ st.simplyRelated .assignable base q = some true := by
  unfold flagsAt at flagsB flagsL flags plain
  simp only [ordinaryFlags, List.mem_cons, List.not_mem_nil, or_false] at flags
  unfold simplyRelated numbersRelated
  rcases flags with h | h | h | h | h | h | h | h | h | h | h <;>
    first
    | exact absurd h plain
    | (rw [flagsB, flagsL, h]; first | exact .inl rfl | exact .inr rfl)

end Flags

section Forms

/-- A simple type that is no object is a basic type or a literal. -/
theorem primitiveForm (c : st.Classified) (has : st.Has p) (flags : st.flagsAt p ∈ ordinaryFlags)
    (plain : st.flagsAt p ≠ TypeFlags.object) : (st.typeInfo p).form.isPrimitive = true := by
  have others : ∀ f ∈ [TypeFlags.enum, TypeFlags.typeParameter, TypeFlags.union, TypeFlags.intersection],
      f ∉ ordinaryFlags := by decide
  have fits := c.fits p has
  cases form : (st.typeInfo p).form with
  | intrinsic | literal | enum | enumLiteral => rfl
  | union | intersection =>
    rw [form, Form.Fits] at fits
    exact absurd (fits ▸ flags) (others _ (by simp))
  | array | reference =>
    rw [form] at fits
    exact absurd fits plain
  | typeParameter | interface | anonymous =>
    rw [form] at fits
    rcases fits with is | is | is
    · exact absurd (is ▸ flags) (others _ (by simp))
    · exact absurd (is ▸ flags) (others _ (by simp))
    · exact absurd is plain

theorem wrapperObject (resolved : st.Resolved)
    (flags : (st.typeInfo p).flags.meets (TypeFlags.stringLike ||| TypeFlags.numberLike ||| TypeFlags.booleanLike) = true) :
    (st.typeInfo (st.wrapperOf p)).form.isObject = true := by
  have named (name : String) :
      (st.typeInfo ((st.globalInterface? name).getD emptyObjectType)).form.isObject = true := by
    cases found : st.globalInterface? name with
    | none =>
      unfold Form.isObject
      simp [resolved.empty]
    | some t =>
      obtain ⟨params, form⟩ := interfacePlain found
      unfold Form.isObject
      simp [form]
  simp only [meetsMaskOr, Bool.or_eq_true] at flags
  unfold wrapperOf
  dsimp only
  split_ifs
  · exact named _
  · exact named _
  · exact named _
  · tauto

/-- The flags of basic types that have literals, and of the literals. -/
def wrappedFlags : List TypeFlags :=
  [TypeFlags.string, TypeFlags.number, TypeFlags.boolean, TypeFlags.stringLiteral, TypeFlags.numberLiteral,
    TypeFlags.booleanLiteral]

theorem simplyWrapped (wrapped : st.flagsAt p ∈ wrappedFlags) (object : st.flagsAt q = TypeFlags.object) :
    st.simplyRelated .assignable p q = none := by
  unfold flagsAt at wrapped object
  simp only [wrappedFlags, List.mem_cons, List.not_mem_nil, or_false] at wrapped
  unfold simplyRelated numbersRelated
  rcases wrapped with h | h | h | h | h | h <;> rw [h, object] <;> rfl

theorem planOrdinary {r : Relation} (form : (st.typeInfo p).form.isPrimitive = true)
    (ordinary : (st.typeInfo q).form.isOrdinary = true) : st.structurePlan r p q = st.plainPlan r p q := by
  unfold structurePlan
  unfold Form.isPrimitive at form
  cases formP : (st.typeInfo p).form <;> simp only [formP, Bool.false_eq_true] at form
  all_goals
    unfold Form.isOrdinary at ordinary
    cases formQ : (st.typeInfo q).form <;> simp only [formQ, Bool.false_eq_true] at ordinary
  all_goals rfl

/-- Whether a basic type or a literal is assignable to an object type is asked of what is behind it. -/
theorem truthWrapped (resolved : st.Resolved) (c : st.Classified) (has : st.Has p)
    (wrapped : st.flagsAt p ∈ wrappedFlags) (simple : st.Simple q) (object : st.flagsAt q = TypeFlags.object) :
    st.truth (.assignable, p, q) = (st.objectPlan .assignable (st.wrapperOf p) q).holds st.truth := by
  have facts : ∀ f ∈ wrappedFlags, f ∈ ordinaryFlags ∧ f ≠ TypeFlags.object ∧ f.meets TypeFlags.primitive = true ∧
      f.meets (TypeFlags.stringLike ||| TypeFlags.numberLike ||| TypeFlags.booleanLike) = true := by decide
  obtain ⟨ordinary, plain, primitive, like⟩ := facts _ wrapped
  have form := primitiveForm c has ordinary plain
  have behind := wrapperObject resolved like
  have settled : st.isFresh p = false := by
    unfold isFresh
    cases is : (st.typeInfo p).form with
    | anonymous a => cases is ▸ form
    | _ => rfl
  have apart : st.wrapperOf p ≠ p := by
    intro same
    rw [same] at behind
    cases is : (st.typeInfo p).form <;> rw [is] at form behind <;> first | (cases form; done) | cases behind
  have other : p ≠ q := fun same => plain (same ▸ object)
  have planned : st.structurePlan .assignable p q = st.objectPlan .assignable (st.wrapperOf p) q := by
    have ordinary := simple.form
    have flagsQ : (st.typeInfo q).flags.meets TypeFlags.object = true := by
      show (st.flagsAt q).meets _ = true
      rw [object]
      rfl
    have flagsP : (st.typeInfo p).flags.meets TypeFlags.primitive = true := primitive
    rw [planOrdinary form ordinary, plainPlan]
    simp [flagsQ, flagsP, apart]
  have asked := truthStructure other (simplyWrapped wrapped object)
  rw [settled, planned] at asked
  rw [Bool.eq_iff_iff, asked]
  simp

end Forms

section Parts

/-- Two types of one kind are assignable to the same objects. -/
theorem acceptedAlike {x y : TypeId} (resolved : st.Resolved) (c : st.Classified) (hasX : st.Has x) (hasY : st.Has y)
    (flagsX : st.flagsAt x ∈ wrappedFlags) (flagsY : st.flagsAt y ∈ wrappedFlags)
    (behind : st.wrapperOf x = st.wrapperOf y) (simple : st.Simple q) (other : x ≠ q)
    (decided : st.flagsAt q ≠ TypeFlags.object →
      st.simplyRelated .assignable x q = some false ∨ st.simplyRelated .assignable y q = some true)
    (accepted : st.truth (.assignable, x, q) = true) : st.truth (.assignable, y, q) = true := by
  by_cases object : st.flagsAt q = TypeFlags.object
  · rw [truthWrapped resolved c hasX flagsX simple object, behind] at accepted
    rw [truthWrapped resolved c hasY flagsY simple object, accepted]
  · rcases decided object with no | yes
    · cases accepted.symm.trans (truthSimple other no)
    · exact truthOfSimple yes

theorem wrapperAlike (kinds : (st.flagsAt base, st.flagsAt lit) ∈ literalKinds) :
    st.wrapperOf base = st.wrapperOf lit ∧ st.flagsAt base ∈ wrappedFlags ∧ st.flagsAt lit ∈ wrappedFlags := by
  unfold wrapperOf
  unfold flagsAt at kinds ⊢
  simp only [literalKinds, List.mem_cons, List.not_mem_nil, or_false, Prod.mk.injEq] at kinds
  rcases kinds with ⟨hb, hl⟩ | ⟨hb, hl⟩ | ⟨hb, hl⟩ <;> rw [hb, hl] <;> exact ⟨rfl, by decide, by decide⟩

/-- What takes a basic type takes each of its literals. -/
theorem basicAccepted (resolved : st.Resolved) (c : st.Classified)
    (kinds : (st.flagsAt base, st.flagsAt lit) ∈ literalKinds) (hasB : st.Has base) (hasL : st.Has lit)
    (simple : st.Simple q) (accepted : st.truth (.assignable, base, q) = true) :
    st.truth (.assignable, lit, q) = true := by
  by_cases same : base = q
  · exact truthOfSimple (same ▸ literalBasic kinds)
  · obtain ⟨behind, flagsB, flagsL⟩ := wrapperAlike kinds
    exact acceptedAlike resolved c hasB hasL flagsB flagsL behind simple same (basicSource kinds simple.flags) accepted

/-- What takes a truth value and is not that truth value takes both. -/
theorem boolAccepted (resolved : st.Resolved) (c : st.Classified) (is : lit = trueType ∨ lit = falseType)
    (simple : st.Simple q) (other : lit ≠ q) (accepted : st.truth (.assignable, lit, q) = true) :
    st.truth (.assignable, booleanType, q) = true := by
  have early : lit ≤ trueType := by rcases is with rfl | rfl <;> decide
  have flagsL : st.flagsAt lit = TypeFlags.booleanLiteral := by
    rw [(c.basic lit early).2]
    rcases is with rfl | rfl <;> rfl
  have flagsB : st.flagsAt booleanType = TypeFlags.boolean := (c.basic booleanType (by decide)).2
  have kinds : (st.flagsAt booleanType, st.flagsAt lit) ∈ literalKinds := by
    rw [flagsB, flagsL]
    decide
  obtain ⟨behind, kindB, kindL⟩ := wrapperAlike kinds
  exact acceptedAlike resolved c (c.hasBasic early) (c.hasBasic (by decide)) kindL kindB behind.symm simple other
    (boolSource flagsB flagsL simple.flags) accepted

/-- What is assignable to a literal is assignable to its basic type. -/
theorem literalAccepted (kinds : (st.flagsAt base, st.flagsAt lit) ∈ literalKinds) (simple : st.Simple p)
    (accepted : st.truth (.assignable, p, lit) = true) : st.truth (.assignable, p, base) = true := by
  by_cases same : p = lit
  · exact truthOfSimple (same ▸ literalBasic kinds)
  · rcases literalTarget kinds simple.flags with no | yes
    · cases accepted.symm.trans (truthSimple same no)
    · exact truthOfSimple yes

variable {types : List TypeId}

/-- A simple type that stands in a union takes neither everything nor nothing. -/
theorem properPart (canonical : st.Canonical types) (member : q ∈ types) (simple : st.Simple q) :
    st.flagsAt q ∈ ordinaryFlags ∧ st.flagsAt q ≠ TypeFlags.unknown ∧ st.flagsAt q ≠ TypeFlags.never := by
  have proper := canonical.proper q member
  refine ⟨simple.flags, fun is => ?_, fun is => ?_⟩ <;> rw [is] at proper <;> revert proper <;> decide

/- An object literal has no property too many for a union that has a part to which it is assignable. -/
theorem receivedIntoUnion (c : st.Classified) (has : st.Has t) (form : (st.typeInfo t).form = .union types)
    (canonical : st.Canonical types) (simpleP : st.Simple p) (member : q ∈ types) (simpleQ : st.Simple q)
    (accepted : st.truth (.assignable, p, q) = true) (fresh : st.isFresh p = true) : st.excess? p t = none := by
  have positive := c.unionPositive has form
  have object : st.flagsAt p = TypeFlags.object := by
    by_contra plain
    have primitive := primitiveForm c simpleP.has simpleP.flags plain
    unfold isFresh at fresh
    split at fresh
    · unfold Form.isPrimitive at primitive
      next a literal => simp [literal] at primitive
    · cases fresh
  by_cases same : p = q
  · have plain : (st.typeInfo p).flags.meets TypeFlags.primitive = false := by
      show (st.flagsAt p).meets _ = false
      rw [object]
      rfl
    exact excessOwn form positive (same ▸ member) (simpleP.keyed fresh) plain fresh
  · obtain ⟨flags, notUnknown, notNever⟩ := properPart canonical member simpleQ
    have decided : st.simplyRelated .assignable p q = some false ∨
        (st.simplyRelated .assignable p q = none ∧ st.flagsAt q = TypeFlags.object) := by
      unfold flagsAt at object flags notUnknown notNever ⊢
      simp only [ordinaryFlags, List.mem_cons, List.not_mem_nil, or_false] at flags
      unfold simplyRelated numbersRelated
      rcases flags with h | h | h | h | h | h | h | h | h | h | h <;>
        first
        | exact absurd h notUnknown
        | exact absurd h notNever
        | (rw [object, h]; first | exact .inl rfl | exact .inr ⟨rfl, rfl⟩)
    rcases decided with no | ⟨simple, objectQ⟩
    · cases accepted.symm.trans (truthSimple same no)
    · refine excessUnion form positive member ?_ ?_ (((truthStructure same simple).mp accepted).1 fresh)
      · have ordinary := simpleQ.form
        cases is : (st.typeInfo q).form <;> simp_all [Form.isOrdinary, Form.isComposed]
      · show (st.flagsAt q).meets _ = false
        rw [objectQ]
        rfl

/-- A simple type is assignable to a type if it is assignable to a part of it, and only then. -/
theorem truthInto (i : st.Interned) (simple : st.Simple p) (ordinary : st.Ordinary t) :
    st.truth (.assignable, p, t) = true ↔ ∃ q ∈ st.parts t, st.truth (.assignable, p, q) = true := by
  obtain ⟨has, parts⟩ := ordinary
  cases form : (st.typeInfo t).form with
  | union types =>
    have flags : st.flagsAt t = TypeFlags.union := by
      have fits := i.classified.fits t has
      rwa [form] at fits
    have canonical := i.canonical t has types form
    have single (inner : List TypeId) : (st.typeInfo p).form ≠ .union inner := by
      intro is
      have plain := simple.form
      unfold Form.isOrdinary at plain
      simp [is] at plain
    have other : p ≠ t := fun same => single types (same ▸ form)
    obtain ⟨first, inside⟩ := List.exists_mem_of_length_pos (Nat.lt_of_lt_of_le (by decide) canonical.several)
    simp only [State.parts, form] at parts ⊢
    have simply := simplyIntoUnion flags p
    split_ifs at simply with never any unknown
    · refine ⟨fun _ => ⟨first, inside, truthOfSimple ?_⟩, fun _ => truthOfSimple simply⟩
      simp [simplyRelated, never]
    · have none : ∀ f ∈ ordinaryFlags, f.meets TypeFlags.any = false := by decide
      cases (none _ simple.flags).symm.trans any
    · have only : ∀ f ∈ ordinaryFlags, f.meets TypeFlags.unknown = true → f = TypeFlags.unknown := by decide
      constructor
      · intro accepted
        cases accepted.symm.trans (truthSimple other simply)
      · rintro ⟨q, member, accepted⟩
        obtain ⟨flagsQ, notUnknown, -⟩ := properPart canonical member (parts q member)
        cases accepted.symm.trans (unknownSource (only _ simple.flags unknown) flagsQ notUnknown)
    · rw [truthIntoUnion form single simply]
      refine ⟨And.right, ?_⟩
      rintro ⟨q, member, accepted⟩
      refine ⟨fun fresh => ?_, q, member, accepted⟩
      exact receivedIntoUnion i.classified has form canonical simple member (parts q member) accepted fresh
  | _ => simp [State.parts, form]

/-- A type is assignable to another if all its parts are, and only then. -/
theorem truthParts (i : st.Interned) (ordinaryU : st.Ordinary u) (ordinaryT : st.Ordinary t) :
    st.truth (.assignable, u, t) = true ↔ ∀ p ∈ st.parts u, st.truth (.assignable, p, t) = true := by
  cases form : (st.typeInfo u).form with
  | union types =>
    have flags : st.flagsAt u = TypeFlags.union := by
      have fits := i.classified.fits u ordinaryU.1
      rwa [form] at fits
    have canonical := i.canonical u ordinaryU.1 types form
    obtain ⟨first, inside⟩ := List.exists_mem_of_length_pos (Nat.lt_of_lt_of_le (by decide) canonical.several)
    have parts : st.parts u = types := by simp [State.parts, form]
    have simple := parts ▸ ordinaryU.2
    rw [parts]
    by_cases same : u = t
    · subst same
      refine ⟨fun _ p member => ?_, fun _ => st.truthSelf u⟩
      exact (truthInto i (simple p member) ordinaryT).mpr ⟨p, parts ▸ member, st.truthSelf p⟩
    have simply := simplyFromUnion flags t
    split_ifs at simply with top bottom
    · refine ⟨fun _ p _ => truthOfSimple ?_, fun _ => truthOfSimple simply⟩
      simp [simplyRelated, top]
    · refine ⟨fun accepted => ?_, fun all => ?_⟩
      · cases accepted.symm.trans (truthSimple same simply)
      · obtain ⟨flagsF, -, notNever⟩ := properPart canonical inside (simple first inside)
        have only : ∀ f ∈ ordinaryFlags, f ≠ TypeFlags.never → f.meets TypeFlags.never = false := by decide
        have valued : (st.typeInfo first).flags.meets TypeFlags.never = false := only _ flagsF notNever
        have apart : first ≠ t := fun is => by simp [is, bottom] at valued
        have refused : st.simplyRelated .assignable first t = some false := by simp [simplyRelated, top, bottom, valued]
        cases (all first inside).symm.trans (truthSimple apart refused)
    · simp only [Bool.not_eq_true] at top bottom
      exact truthFromUnion flags form same top bottom
  | _ => simp [State.parts, form]

end Parts

section Joins

variable {xs all : List TypeId} {r : TypeId}

/-- The types of the start other than `any` and the empty object are simple. -/
theorem basicSimple (c : st.Classified) (early : p ≤ trueType) (flags : State.initial.flagsAt p ∈ ordinaryFlags) :
    st.Simple p := by
  obtain ⟨has, same⟩ := c.basic p early
  have plain : ∀ p ≤ trueType, State.initial.flagsAt p ≠ TypeFlags.object ∧ State.initial.flagsAt p ≠ TypeFlags.enum ∧
      State.initial.flagsAt p ≠ TypeFlags.enumLiteral ||| TypeFlags.numberLiteral := by decide
  obtain ⟨notObject, notEnum, notMember⟩ := plain p early
  have primitive := primitiveForm c has (same ▸ flags) (same ▸ notObject)
  have fits := c.fits p has
  have ordinary : (st.typeInfo p).form.isOrdinary = true := by
    rw [same] at fits
    cases form : (st.typeInfo p).form with
    | enum =>
      rw [form] at fits
      rcases fits with is | is | is
      · exact absurd is notEnum
      · exact absurd (is ▸ flags) (by decide)
      · exact absurd is notObject
    | enumLiteral =>
      rw [form] at fits
      exact absurd fits notMember
    | _ =>
      unfold Form.isOrdinary
      simp_all [Form.isPrimitive]
  refine ⟨has, same ▸ flags, ordinary, fun fresh => ?_⟩
  unfold isFresh at fresh
  split at fresh
  · unfold Form.isPrimitive at primitive
    next a literal => simp [literal] at primitive
  · cases fresh

/-- What absorbs a simple type is the basic type of its kind. -/
theorem absorberKind (c : st.Classified) (simple : st.Simple p) (member : r ∈ st.absorbers p) :
    st.Has r ∧ (st.flagsAt r, st.flagsAt p) ∈ literalKinds := by
  have fits := c.fits p simple.has
  unfold absorbers at member
  cases form : (st.typeInfo p).form with
  | literal value base =>
    rw [form] at fits member
    cases List.mem_singleton.mp member
    cases value with
    | text | number =>
      obtain ⟨flags, rfl⟩ := fits
      exact ⟨c.hasBasic (by decide), by rw [flags, (c.basic _ (by decide)).2]; decide⟩
    | bool =>
      obtain ⟨-, flags, rfl⟩ := fits
      exact ⟨c.hasBasic (by decide), by rw [flags, (c.basic _ (by decide)).2]; decide⟩
  | enumLiteral =>
    have ordinary := simple.form
    unfold Form.isOrdinary at ordinary
    simp [form] at ordinary
  | _ => simp [form] at member

/-- A part is empty, remains in the union, or is left out for one that remains. -/
theorem covered (c : st.Classified) (known : ∀ p ∈ all, st.Has p) (member : p ∈ all) :
    p = neverType ∨ ∃ r, st.Remains all r ∧ (r = p ∨ r ∈ st.absorbers p) := by
  by_cases empty : p = neverType
  · exact .inl empty
  refine .inr ?_
  by_cases absorbed : ∃ r ∈ st.absorbers p, r ∈ all
  · obtain ⟨r, absorbs, inside⟩ := absorbed
    obtain ⟨plain, notNever, notTrue, notFalse⟩ := c.absorberKept (known p member) absorbs
    refine ⟨r, .inl ⟨⟨inside, notNever, by simp [plain]⟩, ?_⟩, .inr absorbs⟩
    exact fun joined => joined.2.elim notTrue notFalse
  · have kept : st.Kept all p := ⟨member, empty, fun r absorbs inside => absorbed ⟨r, absorbs, inside⟩⟩
    by_cases joined : Joins all ∧ (p = trueType ∨ p = falseType)
    · exact ⟨booleanType, .inr ⟨joined.1, rfl⟩, .inr (by rw [c.absorbersBool joined.2]; exact List.mem_singleton_self _)⟩
    · exact ⟨p, .inl ⟨kept, joined⟩, .inl rfl⟩

theorem remainsProper (remains : st.Remains all r) : r ≠ neverType := by
  rcases remains with ⟨kept, -⟩ | ⟨-, rfl⟩
  · exact kept.2.1
  · decide

/-- Only what may be anything takes all. -/
theorem unknownAccepted (i : st.Interned) (ordinary : st.Ordinary t)
    (accepted : st.truth (.assignable, unknownType, t) = true) : st.flagsAt t = TypeFlags.unknown := by
  have c := i.classified
  have flagsU : st.flagsAt unknownType = TypeFlags.unknown := (c.basic unknownType (by decide)).2
  have simple : st.Simple unknownType := basicSimple c (by decide) (by decide)
  cases form : (st.typeInfo t).form with
  | union types =>
    have parts : st.parts t = types := by simp [State.parts, form]
    obtain ⟨q, member, accepted⟩ := (truthInto i simple ordinary).mp accepted
    rw [parts] at member
    obtain ⟨flagsQ, notUnknown, -⟩ :=
      properPart (i.canonical t ordinary.1 types form) member (ordinary.2 q (parts ▸ member))
    cases accepted.symm.trans (unknownSource flagsU flagsQ notUnknown)
  | _ =>
    have simpleT : st.Simple t := ordinary.2 t (by simp [State.parts, form])
    by_contra other
    cases accepted.symm.trans (unknownSource flagsU simpleT.flags other)

/-- Where both truth values are accepted, their type is. -/
theorem truthsAccepted (i : st.Interned) (resolved : st.Resolved) (ordinary : st.Ordinary t)
    (yes : st.truth (.assignable, trueType, t) = true) (no : st.truth (.assignable, falseType, t) = true) :
    st.truth (.assignable, booleanType, t) = true := by
  have c := i.classified
  obtain ⟨q, member, accepted⟩ := (truthInto i (basicSimple c (by decide) (by decide)) ordinary).mp yes
  obtain ⟨q', member', accepted'⟩ := (truthInto i (basicSimple c (by decide) (by decide)) ordinary).mp no
  refine (truthInto i (basicSimple c (by decide) (by decide)) ordinary).mpr ?_
  by_cases first : trueType = q
  · by_cases second : falseType = q'
    · -- A canonical union does not have both truth values.
      subst first second
      cases form : (st.typeInfo t).form with
      | union types =>
        simp only [State.parts, form] at member member'
        exact absurd ⟨member, member'⟩ (i.canonical t ordinary.1 types form).booleans
      | _ =>
        simp only [State.parts, form, List.mem_singleton] at member member'
        exact absurd (member.trans member'.symm) (by decide)
    · exact ⟨q', member', boolAccepted resolved c (.inr rfl) (ordinary.2 q' member') second accepted'⟩
  · exact ⟨q, member, boolAccepted resolved c (.inl rfl) (ordinary.2 q member) first accepted⟩

theorem shapePart (all : List TypeId) : ∃ r, r ∈ (shapeOf all).parts := by
  match all with
  | [] | [_] => exact ⟨_, List.mem_singleton_self _⟩
  | first :: second :: rest => exact ⟨first, List.mem_mergeSort.mpr (List.mem_cons_self ..)⟩

/-- What a union of some types comes to stands for all of their parts. -/
structure Stands (st : State) (xs : List TypeId) (u : TypeId) : Prop where
  ordinary : st.Ordinary u
  source : ∀ t, st.Ordinary t →
    ((∀ r ∈ st.parts u, st.truth (.assignable, r, t) = true) ↔
      ∀ p ∈ xs.flatMap st.parts, st.truth (.assignable, p, t) = true)
  target : ∀ p, st.Simple p → ∀ q ∈ xs.flatMap st.parts, st.truth (.assignable, p, q) = true →
    ∃ r ∈ st.parts u, st.truth (.assignable, p, r) = true

/- A union with `unknown` among the parts is `unknown`, which takes all others. -/
theorem unknownStands (i : st.Interned) (simple : ∀ p ∈ xs.flatMap st.parts, st.Simple p) (has : st.Has u)
    (is : st.parts u = [unknownType]) (unknown : unknownType ∈ xs.flatMap st.parts) : st.Stands xs u := by
  have flagsU : st.flagsAt unknownType = TypeFlags.unknown := (i.classified.basic unknownType (by decide)).2
  refine ⟨⟨has, fun p member => ?_⟩, fun t ordinaryT => ⟨fun accepted p member => ?_, fun accepted p member => ?_⟩,
    fun p simpleP q member accepted => ⟨unknownType, by simp [is], truthOfSimple (simplyUnknown flagsU p)⟩⟩
  · rw [is, List.mem_singleton] at member
    exact member ▸ simple _ unknown
  · have top := unknownAccepted i ordinaryT (accepted unknownType (by simp [is]))
    exact truthOfSimple (simplyUnknown top p)
  · rw [is, List.mem_singleton] at member
    exact member ▸ accepted _ unknown

/- Otherwise each part that is left out is left out for one that remains. -/
theorem remainingStands (i : st.Interned) (resolved : st.Resolved) (simple : ∀ p ∈ xs.flatMap st.parts, st.Simple p)
    (has : st.Has u) (is : st.parts u = (shapeOf all).parts)
    (remains : ∀ r, r ∈ all ↔ st.Remains (xs.flatMap st.parts) r) : st.Stands xs u := by
  have c := i.classified
  have flagsN : st.flagsAt neverType = TypeFlags.never := (c.basic neverType (by decide)).2
  have hasFlat (p : TypeId) (member : p ∈ xs.flatMap st.parts) : st.Has p := (simple p member).has
  have listed (r : TypeId) (proper : r ≠ neverType) : r ∈ st.parts u ↔ st.Remains (xs.flatMap st.parts) r := by
    rw [is, Classified.memShapeOf proper, remains]
  have simpleU : ∀ r ∈ st.parts u, st.Simple r := by
    intro r member
    by_cases empty : r = neverType
    · exact empty ▸ basicSimple c (by decide) (by decide)
    · rcases (listed r empty).mp member with ⟨kept, -⟩ | ⟨-, rfl⟩
      · exact simple r kept.1
      · exact basicSimple c (by decide) (by decide)
  refine ⟨⟨has, simpleU⟩, fun t ordinaryT => ⟨fun accepted p member => ?_, fun accepted r member => ?_⟩,
    fun p simpleP q member accepted => ?_⟩
  · rcases covered c hasFlat member with rfl | ⟨r, remain, rfl | absorbs⟩
    · exact truthOfSimple (simplyNever flagsN t)
    · exact accepted r ((listed r (remainsProper remain)).mpr remain)
    · -- What takes the basic type that `p` is left out for takes `p`.
      have inside := (listed r (remainsProper remain)).mpr remain
      obtain ⟨hasR, kinds⟩ := absorberKind c (simple p member) absorbs
      obtain ⟨q, part, taken⟩ := (truthInto i (simpleU r inside) ordinaryT).mp (accepted r inside)
      exact (truthInto i (simple p member) ordinaryT).mpr ⟨q, part,
        basicAccepted resolved c kinds hasR (simple p member).has (ordinaryT.2 q part) taken⟩
  · by_cases empty : r = neverType
    · exact truthOfSimple (simplyNever (empty ▸ flagsN) t)
    · rcases (listed r empty).mp member with ⟨kept, -⟩ | ⟨joined, rfl⟩
      · exact accepted r kept.1
      · exact truthsAccepted i resolved ordinaryT (accepted _ joined.1) (accepted _ joined.2.1)
  · rcases covered c hasFlat member with rfl | ⟨r, remain, rfl | absorbs⟩
    · obtain ⟨r, inside⟩ : ∃ r, r ∈ st.parts u := is ▸ shapePart all
      refine ⟨r, inside, truthOfSimple (simplyNever ?_ r)⟩
      by_contra other
      cases accepted.symm.trans (neverTarget flagsN simpleP.flags other)
    · exact ⟨r, (listed r (remainsProper remain)).mpr remain, accepted⟩
    · obtain ⟨hasR, kinds⟩ := absorberKind c (simple q member) absorbs
      exact ⟨r, (listed r (remainsProper remain)).mpr remain, literalAccepted kinds simpleP accepted⟩

theorem unionStands (i : st.Interned) (resolved : st.Resolved) (ordinary : ∀ x ∈ xs, st.Ordinary x) (has : st.Has u)
    (is : st.parts u = (st.unionShape xs).parts) : st.Stands xs u := by
  have c := i.classified
  have simple : ∀ p ∈ xs.flatMap st.parts, st.Simple p := by
    intro p member
    obtain ⟨x, inside, part⟩ := List.mem_flatMap.mp member
    exact (ordinary x inside).2 p part
  have flagged (p : TypeId) (early : p ≤ trueType) (other : State.initial.flagsAt p ∉ ordinaryFlags) :
      p ∉ xs.flatMap st.parts := by
    intro member
    have flags := (simple p member).flags
    rw [(c.basic p early).2] at flags
    exact other flags
  rcases c.shapeCases fun x inside => (ordinary x inside).1 with
    ⟨any, -⟩ | ⟨-, unknown, shape⟩ | ⟨-, -, all, -, remains, shape⟩
  · exact absurd any (not_or.mpr ⟨flagged _ (by decide) (by decide), flagged _ (by decide) (by decide)⟩)
  · exact unknownStands i simple has (is.trans (by rw [shape]; rfl)) unknown
  · exact remainingStands i resolved simple has (is.trans (by rw [shape])) remains

theorem joinSource (i : st.Interned) (stands : st.Stands xs u) (ordinary : ∀ x ∈ xs, st.Ordinary x)
    (ordinaryT : st.Ordinary t) : st.Accepts u t ↔ ∀ x ∈ xs, st.Accepts x t := by
  have parted (x : TypeId) (is : st.Ordinary x) : st.Accepts x t ↔ ∀ p ∈ st.parts x, st.truth (.assignable, p, t) = true :=
    (st.truthIff _).symm.trans (truthParts i is ordinaryT)
  rw [parted u stands.ordinary, stands.source t ordinaryT]
  simp only [List.mem_flatMap]
  constructor
  · exact fun all x member => (parted x (ordinary x member)).mpr fun p part => all p ⟨x, member, part⟩
  · rintro all p ⟨x, member, part⟩
    exact (parted x (ordinary x member)).mp (all x member) p part

theorem joinTarget (i : st.Interned) (stands : st.Stands xs u) (ordinary : ∀ x ∈ xs, st.Ordinary x)
    (ordinaryT : st.Ordinary t) {x : TypeId} (member : x ∈ xs) (accepted : st.Accepts t x) : st.Accepts t u := by
  rw [Accepts, ← st.truthIff] at accepted ⊢
  rw [truthParts i ordinaryT (ordinary x member)] at accepted
  refine (truthParts i ordinaryT stands.ordinary).mpr fun p part => ?_
  have simple := ordinaryT.2 p part
  obtain ⟨q, inside, taken⟩ := (truthInto i simple (ordinary x member)).mp (accepted p part)
  exact (truthInto i simple stands.ordinary).mpr
    (stands.target p simple q (List.mem_flatMap.mpr ⟨x, member, inside⟩) taken)

/-- By the rules a union is the join of its two types, whatever it leaves out of them and also where
types mention themselves. So are the answers after any questions, if no question that these lead to and
that leads back to itself fails. -/
theorem unionJoins {s s' : State} {a b : TypeId} (i : s.Interned) (known : ∀ x ∈ [a, b], s.Has x)
    (run : (Check.union [a, b]).run s = .ok (u, s')) (later : Later s' st) (resolved : st.Resolved)
    (unasked : st.relations = {}) (idle : st.relating = []) (ordinary : ∀ x ∈ [a, b], st.Ordinary x)
    (ordinaryT : st.Ordinary t) :
    (st.Accepts u t ↔ st.Accepts a t ∧ st.Accepts b t) ∧
    (st.Accepts t a ∨ st.Accepts t b → st.Accepts t u ∧ st.Settles (.assignable, t, u) true) ∧
    (∃ x y, (st.Steady (.assignable, a, t) → st.Settles (.assignable, a, t) x) ∧
      (st.Steady (.assignable, b, t) → st.Settles (.assignable, b, t) y) ∧
      (st.Steady (.assignable, u, t) → st.Settles (.assignable, u, t) (x && y))) ∧
    ∀ x ∈ [a, b], ∀ history st', (answers.askAll history).run st = .ok ((), st') → st.Steady (.assignable, t, x) →
      answers.reply st' (.assignable, t, x) = .ok true → st.Settles (.assignable, t, u) true := by
  obtain ⟨u', s'', run', does, has, parts, -⟩ := i.unionResult known
  cases run.symm.trans run'
  obtain ⟨i', e⟩ := i.step does
  obtain ⟨i'', e'⟩ := i'.along later
  have is : st.parts u = (st.unionShape [a, b]).parts := by
    rw [e'.parts has, parts, (e.trans e').unionShape i.classified known]
  have stands := unionStands i'' resolved ordinary (e'.has u has) is
  have source : st.Accepts u t ↔ st.Accepts a t ∧ st.Accepts b t := by
    simpa using joinSource i'' stands ordinary ordinaryT
  have target {x : TypeId} (member : x ∈ [a, b]) (accepted : st.Accepts t x) :
      st.Accepts t u ∧ st.Settles (.assignable, t, u) true := by
    have joined := joinTarget i'' stands ordinary ordinaryT member accepted
    exact ⟨joined, settlesOfHolds resolved unasked idle joined⟩
  refine ⟨source, ?_, ?_, ?_⟩
  · rintro (accepted | accepted)
    · exact target (List.mem_cons_self ..) accepted
    · exact target (List.mem_cons_of_mem _ (List.mem_singleton_self b)) accepted
  · refine ⟨st.truth (.assignable, a, t), st.truth (.assignable, b, t), settlesOfSteady resolved unasked idle,
      settlesOfSteady resolved unasked idle, fun steady => ?_⟩
    have same : st.truth (.assignable, u, t) = (st.truth (.assignable, a, t) && st.truth (.assignable, b, t)) := by
      rw [Bool.eq_iff_iff, Bool.and_eq_true, truthIff, truthIff, truthIff]
      exact source
    exact same ▸ settlesOfSteady resolved unasked idle steady
  · intro x member history st' asked steady yes
    have fits := (repliesFit resolved unasked idle asked _).1 true yes
    exact (target member ((acceptsIff steady fits).mp rfl)).2

end Joins

section Cases

/-- The start, after texts and numbers have been united. -/
def textsOrNumbers : State :=
  { State.initial with
    types := initialTypes.push { flags := TypeFlags.union, form := .union [stringType, numberType] }
    unions := ({} : Std.HashMap (List TypeId × String) TypeId).insert ([stringType, numberType], "") 12 }

/- Numbers are taken by the union, and the union is taken by numbers only if texts are. -/
theorem numbersJoined : textsOrNumbers.Settles (.assignable, numberType, 12) true ∧
    (textsOrNumbers.Accepts 12 numberType ↔
      textsOrNumbers.Accepts stringType numberType ∧ textsOrNumbers.Accepts numberType numberType) := by
  have known : ∀ x ∈ [stringType, numberType], State.initial.Has x := by
    unfold Has
    decide
  have run : (Check.union [stringType, numberType]).run State.initial = .ok (12, textsOrNumbers) := by cbv
  have c := (initialInterned.step (.union none known run)).1.classified
  have simple (x : TypeId) (member : x ∈ [stringType, numberType]) : textsOrNumbers.Simple x := by
    simp only [List.mem_cons, List.not_mem_nil, or_false] at member
    rcases member with rfl | rfl <;> exact basicSimple c (by decide) (by decide)
  have ordinary : ∀ x ∈ [stringType, numberType], textsOrNumbers.Ordinary x := by
    intro x member
    have alone : textsOrNumbers.parts x = [x] := by
      simp only [List.mem_cons, List.not_mem_nil, or_false] at member
      rcases member with rfl | rfl <;> rfl
    refine ⟨(simple x member).has, fun p part => ?_⟩
    rw [alone, List.mem_singleton] at part
    exact part ▸ simple x member
  have numbers : numberType ∈ [stringType, numberType] := by simp
  obtain ⟨source, target, -⟩ := unionJoins initialInterned known run .refl (resolvedOfWorked (by decide +kernel) rfl)
    rfl rfl ordinary (ordinary numberType numbers)
  exact ⟨(target (.inr (acceptsSelf _ numberType))).2, source⟩

set_option maxRecDepth 20000 in
/- While it is open whether texts are an `O`, so is whether texts and numbers together are, and the answer
yes to the latter is kept although the one to the former is no. -/
theorem keptUnionMisleads :
    ((Check.union [stringType, numberType]).run (wrapped 17) = .ok (17, wrapped 17)) ∧
    (do
      let after ← (answers.askAll [(.assignable, stringType, 15)]).run (wrapped 17)
      answers.reply after.2 (.assignable, 17, 15)) = .ok true ∧
    (do
      let after ← (answers.askAll [(.assignable, stringType, 15)]).run (wrapped 17)
      answers.reply after.2 (.assignable, stringType, 15)) = .ok false :=
  ⟨by cbv, okOfSome (by cbv), okOfSome (by cbv)⟩

end Cases

end State

end Fragment.Typing
