import Fragment.Proofs.RelationCache

/-! Object types and primitive types.
An object type is assignable to no primitive type, and a union of types is assignable to one if all of
them are. An intersection is assignable to every primitive type: these have no members, and having all
members of the target is what an intersection is asked for last. -/
namespace Fragment.Typing

/-- The forms of primitive types. -/
def Form.isPrimitive : Form → Bool
  | .intrinsic _ | .literal .. | .enum _ | .enumLiteral .. => true
  | _ => false

/-- The forms of object types. -/
def Form.isObject : Form → Bool
  | .interface _ | .reference .. | .array _ | .anonymous _ => true
  | _ => false

theorem Plan.holdsAll {α : Type} (answer : RelationKey → Bool) (f : α → Plan) (xs : List α) :
    (Plan.all f xs).holds answer = xs.all fun x => (f x).holds answer := by
  induction xs with
  | nil => rfl
  | cons x xs ih => rw [List.all_cons, ← ih]; rfl

theorem Plan.questionsAsked (ask : TypeId → RelationKey) (types : List TypeId) :
    (Plan.all (fun m => .ask (ask m)) types).questions = types.map ask ∧
      (Plan.any (fun m => .ask (ask m)) types).questions = types.map ask := by
  induction types with
  | nil => exact ⟨rfl, rfl⟩
  | cons m rest ih =>
    rw [List.map_cons]
    exact ⟨congrArg (ask m :: ·) ih.1, congrArg (ask m :: ·) ih.2⟩

namespace State

/-- The flags of primitive types. -/
def primitiveFlags : List TypeFlags :=
  [TypeFlags.string, TypeFlags.number, TypeFlags.boolean, TypeFlags.enum, TypeFlags.stringLiteral,
    TypeFlags.numberLiteral, TypeFlags.booleanLiteral, TypeFlags.enumLiteral ||| TypeFlags.numberLiteral,
    TypeFlags.void, TypeFlags.undefined]

/-- A type that names a primitive, a literal, an enumeration or one of its members. -/
structure Primitive (st : State) (t : TypeId) : Prop where
  flags : (st.typeInfo t).flags ∈ primitiveFlags
  form : (st.typeInfo t).form.isPrimitive = true
  members : (st.typeInfo t).members = none

/-- Types that are made from object types by union and intersection. -/
inductive OfObjects (st : State) : TypeId → Prop where
  | object {t} (flags : (st.typeInfo t).flags = TypeFlags.object) (form : (st.typeInfo t).form.isObject = true) :
      OfObjects st t
  | union {t types} (flags : (st.typeInfo t).flags = TypeFlags.union) (form : (st.typeInfo t).form = .union types)
      (each : ∀ m ∈ types, OfObjects st m) : OfObjects st t
  | intersection {t types} (flags : (st.typeInfo t).flags = TypeFlags.intersection)
      (form : (st.typeInfo t).form = .intersection types) (each : ∀ m ∈ types, OfObjects st m) : OfObjects st t

/-- Intersections, and unions of such types alone. -/
inductive Intersected (st : State) : TypeId → Prop where
  | intersection {t types} (form : (st.typeInfo t).form = .intersection types) : Intersected st t
  | union {t types} (form : (st.typeInfo t).form = .union types) (each : ∀ m ∈ types, Intersected st m) :
      Intersected st t

variable {st : State} {source target : TypeId} {types : List TypeId}

/-- What flags say of a type of each of the three kinds and a primitive type. -/
theorem simplyStructured (primitive : st.Primitive target)
    (structured : (st.typeInfo source).flags ∈ [TypeFlags.object, TypeFlags.union, TypeFlags.intersection]) :
    st.simplyRelated .assignable source target =
      if (st.typeInfo source).flags = TypeFlags.object then some false else none := by
  have flags := primitive.flags
  simp only [primitiveFlags, List.mem_cons, List.not_mem_nil, or_false] at flags structured
  unfold simplyRelated numbersRelated
  rcases structured with kind | kind | kind <;> rw [kind] <;>
    rcases flags with flags | flags | flags | flags | flags | flags | flags | flags | flags | flags <;>
    rw [flags] <;> rfl

namespace Primitive

variable (primitive : st.Primitive target)
include primitive

theorem notUnion : (st.typeInfo target).form ≠ .union types := by
  intro form
  have named := primitive.form
  unfold Form.isPrimitive at named
  simp [form] at named

theorem notIntersection : (st.typeInfo target).form ≠ .intersection types := by
  intro form
  have named := primitive.form
  unfold Form.isPrimitive at named
  simp [form] at named

theorem notObject : (st.typeInfo target).flags ≠ TypeFlags.object := by
  intro object
  have flags := primitive.flags
  rw [object] at flags
  revert flags
  decide

/-- A primitive type has no members that a source would have to have. -/
theorem membersPlan (source : TypeId) : (st.membersPlan .assignable source target) = .both (.known true) (.known true) := by
  simp [State.membersPlan, propertiesOf, signaturesOf, membersOf, primitive.members, Plan.all]

theorem planObject (object : (st.typeInfo source).flags = TypeFlags.object) :
    st.plan (.assignable, source, target) = .known false := by
  have other : source ≠ target := fun same => primitive.notObject (same ▸ object)
  have structured : (st.typeInfo source).flags ∈ [TypeFlags.object, TypeFlags.union, TypeFlags.intersection] := by
    simp [object]
  have simple := simplyStructured primitive structured
  simp only [State.plan, other, if_false, simple, object, if_true]

/- Where flags leave the question open and the source is no object literal, the structure decides. -/
theorem planStructure (other : source ≠ target)
    (flags : (st.typeInfo source).flags ∈ [TypeFlags.union, TypeFlags.intersection])
    (settled : st.isFresh source = false) :
    st.plan (.assignable, source, target) = st.structurePlan .assignable source target := by
  have simple := simplyStructured primitive (List.mem_cons_of_mem TypeFlags.object flags)
  have open' : (st.typeInfo source).flags ≠ TypeFlags.object := by
    intro object
    rw [object] at flags
    revert flags
    decide
  rw [if_neg open'] at simple
  simp only [State.plan, other, if_false, simple, settled, Bool.and_false, Bool.false_and, Bool.false_eq_true]

theorem planUnion (flags : (st.typeInfo source).flags = TypeFlags.union)
    (form : (st.typeInfo source).form = .union types) :
    st.plan (.assignable, source, target) = .all (fun m => .ask (.assignable, m, target)) types := by
  have other : source ≠ target := fun same => primitive.notUnion (same ▸ form)
  rw [primitive.planStructure other (by simp [flags]) (by simp [isFresh, form]), structurePlan, form]
  rfl

/- An intersection that no member answers for is asked for the members of the target. -/
theorem planIntersection (flags : (st.typeInfo source).flags = TypeFlags.intersection)
    (form : (st.typeInfo source).form = .intersection types) :
    st.plan (.assignable, source, target) =
      .either (.any (fun m => .ask (.assignable, m, target)) types) (.both (.known true) (.known true)) := by
  have other : source ≠ target := fun same => primitive.notIntersection (same ▸ form)
  have objects : st.objectPlan .assignable source target = .both (.known true) (.known true) := by
    have named := primitive.form
    rw [objectPlan, form, ← primitive.membersPlan source]
    split <;> simp_all [Form.isPrimitive]
  rw [primitive.planStructure other (by simp [flags]) (by simp [isFresh, form]), structurePlan, form, ← objects]
  have named := primitive.form
  split <;> simp_all [Form.isPrimitive]

/-- Every intersection is assignable to the primitive type, whatever its members are. -/
theorem intersectionHolds (flags : (st.typeInfo source).flags = TypeFlags.intersection)
    (form : (st.typeInfo source).form = .intersection types) : st.truth (.assignable, source, target) = true := by
  rw [← st.truthPlan, primitive.planIntersection flags form]
  simp [Plan.holds]

theorem truthUnion (flags : (st.typeInfo source).flags = TypeFlags.union)
    (form : (st.typeInfo source).form = .union types) :
    st.truth (.assignable, source, target) = true ↔ ∀ m ∈ types, st.truth (.assignable, m, target) = true := by
  rw [← st.truthPlan, primitive.planUnion flags form, Plan.holdsAll, List.all_eq_true]
  rfl

/-- Types made from object types are assignable to the primitive type if all that they unite are
intersections, and only then. -/
theorem truthOfObjects (made : st.OfObjects source) :
    st.truth (.assignable, source, target) = true ↔ st.Intersected source := by
  induction made with
  | @object t flags named =>
    rw [← st.truthPlan, primitive.planObject flags]
    constructor
    · exact fun held => nomatch held
    · unfold Form.isObject at named
      rintro (form | form) <;> simp [form] at named
  | @union t types flags form each ih =>
    rw [primitive.truthUnion flags form]
    constructor
    · exact fun all => .union form fun m member => (ih m member).mp (all m member)
    · intro crossed m member
      cases crossed with
      | intersection other => cases form.symm.trans other
      | union same each =>
        cases form.symm.trans same
        exact (ih m member).mpr (each m member)
  | @intersection t types flags form each ih =>
    exact ⟨fun _ => .intersection form, fun _ => primitive.intersectionHolds flags form⟩

/-- The questions about a type made from object types lead to those about what it is made from. -/
theorem questionsEnd (made : st.OfObjects source) :
    Acc (fun k k' => st.Raises k' k) (.assignable, source, target) := by
  induction made with
  | @object t flags named =>
    refine ⟨_, fun k raised => ?_⟩
    rw [Raises, primitive.planObject flags] at raised
    cases raised
  | @union t types flags form each ih =>
    refine ⟨_, fun k raised => ?_⟩
    rw [Raises, primitive.planUnion flags form, (Plan.questionsAsked _ _).1] at raised
    obtain ⟨m, member, rfl⟩ := List.mem_map.mp raised
    exact ih m member
  | @intersection t types flags form each ih =>
    refine ⟨_, fun k raised => ?_⟩
    have same : (Plan.either (.any (fun m => .ask (.assignable, m, target)) types)
        (.both (.known true) (.known true))).questions = types.map fun m => (.assignable, m, target) := by
      rw [← (Plan.questionsAsked _ _).2]
      exact List.append_nil _
    rw [Raises, primitive.planIntersection flags form, same] at raised
    obtain ⟨m, member, rfl⟩ := List.mem_map.mp raised
    exact ih m member

end Primitive

/-- Where no question comes up again below itself, nothing is left to the order of questions. -/
theorem steadyOfAcc {k : RelationKey} (ends : Acc (fun k k' => st.Raises k' k) k) : st.Steady k := by
  have open' : ∀ k', Relation.ReflTransGen st.Raises k k' → ¬Relation.TransGen st.Raises k' k' := by
    induction ends with
    | intro k _ ih =>
      intro k' path circle
      cases path using Relation.ReflTransGen.head_induction_on with
      | refl =>
        obtain ⟨first, raised, back⟩ := Relation.TransGen.head'_iff.mp circle
        exact ih first raised k back circle
      | head raised path => exact ih _ raised k' path circle
  exact fun k' path circle => absurd circle (open' k' path)

end State

variable {st : State} {target : TypeId}

/-- What is kept after some questions fits. -/
theorem askedFaithful {st' : State} {history : List RelationKey} (resolved : st.Resolved)
    (unasked : st.relations = {}) (idle : st.relating = [])
    (asked : (answers.askAll history).run st = .ok ((), st')) : ∃ kept, st' = st.asking kept [] ∧ Faithful st kept := by
  have start : st.asking {} [] = st := by
    rw [State.asking, ← unasked, ← idle]
  have nothing : Faithful st {} := by
    intro k b found
    simp at found
  rcases askedWithin resolved depthLimit history {} nothing with ⟨_, kept, ok, faithful, -⟩ | ⟨-, fault, failed⟩
  · rw [start] at ok
    have same := Except.ok.inj (asked.symm.trans ok)
    exact ⟨kept, (Prod.mk.inj same).2, faithful⟩
  · rw [start] at failed
    cases asked.symm.trans failed

/-- After any questions, the answer whether a type made from object types is assignable to a primitive
type is yes if the type is an intersection or unites such types alone, and no otherwise: object types
and unions with one among their parts are kept apart. Every intersection is let through, also one with
a primitive member of another kind. There is an answer if there are levels enough for the questions
that can come up. -/
theorem objectsApartUnlessIntersected {st' : State} {history : List RelationKey} (resolved : st.Resolved)
    (unasked : st.relations = {}) (idle : st.relating = [])
    (asked : (answers.askAll history).run st = .ok ((), st')) (primitive : st.Primitive target) :
    (∀ source, st.OfObjects source →
      (∀ b, answers.reply st' (.assignable, source, target) = .ok b → (b = true ↔ st.Intersected source)) ∧
      (Enough st depthLimit [] (.assignable, source, target) →
        ∃ b, answers.reply st' (.assignable, source, target) = .ok b)) ∧
    (∀ source types, (st.typeInfo source).flags = TypeFlags.intersection →
      (st.typeInfo source).form = .intersection types →
      ∀ b, answers.reply st' (.assignable, source, target) = .ok b → b = true) := by
  obtain ⟨kept, rfl, faithful⟩ := askedFaithful resolved unasked idle asked
  have replied (source : TypeId) := replyFits resolved (n := depthLimit) (k := (.assignable, source, target)) faithful
  refine ⟨fun source made => ⟨fun b given => ?_, fun enough => ?_⟩, fun source types flags form b given => ?_⟩
  · obtain ⟨b', ok, fits⟩ | ⟨-, fault, failed⟩ := replied source
    · cases given.symm.trans ok
      rw [fits.2 (State.steadyOfAcc (primitive.questionsEnd made)), primitive.truthOfObjects made]
    · cases given.symm.trans failed
  · obtain ⟨b, ok, -⟩ | ⟨short, -⟩ := replied source
    · exact ⟨b, ok⟩
    · exact absurd enough short
  · obtain ⟨b', ok, fits⟩ | ⟨-, fault, failed⟩ := replied source
    · cases given.symm.trans ok
      exact fits.1 (primitive.intersectionHolds flags form)
    · cases given.symm.trans failed

/-- Two object types, their intersection, their union, the union of one with the intersection, and the
intersection of one with the type of texts. -/
def crossing : State :=
  let property (name : String) : Symbol := { flags := SymbolFlags.property, name, type := some numberType }
  let object (properties : List (String × SymbolId)) : TypeInfo :=
    { flags := TypeFlags.object, form := .anonymous {}, members := some { properties } }
  let united (types : List TypeId) : TypeInfo := { flags := TypeFlags.union, form := .union types }
  let crossed (types : List TypeId) (properties : List (String × SymbolId)) : TypeInfo :=
    { flags := TypeFlags.intersection, form := .intersection types, members := some { properties } }
  { State.initial with
    types := initialTypes ++ #[object [("a", 1)], object [("b", 2)], crossed [12, 13] [("a", 1), ("b", 2)],
      united [12, 13], united [12, 14], crossed [stringType, 12] [("a", 1)]]
    symbols := State.initial.symbols ++ #[property "a", property "b"] }

theorem crossingResolved : crossing.Resolved := by
  refine resolvedOfTables (fun info member => ?_) (by decide) rfl
  simp only [crossing, initialTypes, intrinsic, List.append_toArray, List.cons_append, List.nil_append,
    List.mem_toArray, List.mem_cons, List.not_mem_nil, or_false] at member
  rcases member with rfl | rfl | rfl | rfl | rfl | rfl | rfl | rfl | rfl | rfl | rfl | rfl | rfl | rfl |
    rfl | rfl | rfl | rfl <;> exact ⟨by decide, by simp, by simp, by decide, rfl⟩

theorem crossingObject {t : TypeId} (object : t = 12 ∨ t = 13) : crossing.OfObjects t := by
  rcases object with rfl | rfl <;> exact .object rfl rfl

theorem crossingIntersection : crossing.OfObjects 14 := by
  have each : ∀ m ∈ [12, 13], crossing.OfObjects m := fun m member => crossingObject (by simpa using member)
  exact .intersection rfl rfl each

theorem crossingPrimitive {t : TypeId} (primitive : t = stringType ∨ t = numberType) : crossing.Primitive t := by
  rcases primitive with rfl | rfl <;> exact ⟨by decide, rfl, rfl⟩

/- The intersection has been let through before, and the union of an object type with it is still
refused. -/
theorem partedUnionApart : ∃ st', (answers.askAll [(.assignable, 14, stringType)]).run crossing = .ok ((), st') ∧
    answers.reply st' (.assignable, 16, stringType) = .ok false := by
  have given : ((answers.askAll [(.assignable, 14, stringType)]).run crossing).toOption.isSome = true := by
    decide
  obtain ⟨⟨_, st'⟩, found⟩ := Option.isSome_iff_exists.mp given
  have asked := okOfSome found
  have made : crossing.OfObjects 16 := by
    have each : ∀ m ∈ [12, 14], crossing.OfObjects m := by
      intro m member
      simp only [List.mem_cons, List.not_mem_nil, or_false] at member
      rcases member with rfl | rfl
      · exact crossingObject (.inl rfl)
      · exact crossingIntersection
    exact .union rfl rfl each
  have parted : ¬crossing.Intersected 16 := by
    rintro (form | ⟨form, each⟩)
    · cases form
    · cases form
      rcases each 12 (List.mem_cons_self ..) with form | form <;> cases form
  have raised : ∀ k ∈ [(Relation.assignable, 16, stringType), (.assignable, 12, stringType),
        (.assignable, 13, stringType), (.assignable, 14, stringType)], ∀ k' ∈ (crossing.plan k).questions,
      k' ∈ [(Relation.assignable, 16, stringType), (.assignable, 12, stringType),
        (.assignable, 13, stringType), (.assignable, 14, stringType)] := by
    decide
  obtain ⟨exact', answered⟩ :=
    (objectsApartUnlessIntersected crossingResolved rfl rfl asked (crossingPrimitive (.inl rfl))).1 16 made
  obtain ⟨b, reply⟩ := answered ⟨_, List.mem_cons_self .., raised, List.nil_subset _, by decide⟩
  cases b with
  | false => exact ⟨st', asked, reply⟩
  | true => exact absurd ((exact' true reply).mp rfl) parted

/- No member of the intersections is assignable to the target, and yet they are. -/
theorem intersectionsReachPrimitives :
    (crossing.Resolved ∧ crossing.OfObjects 14 ∧ crossing.Primitive stringType ∧
      answers.reply crossing (.assignable, 14, stringType) = .ok true) ∧
    (crossing.typeInfo 17).form = .intersection [stringType, 12] ∧ crossing.OfObjects 12 ∧
      crossing.Primitive numberType ∧ answers.reply crossing (.assignable, 17, numberType) = .ok true := by
  refine ⟨⟨crossingResolved, crossingIntersection, crossingPrimitive (.inl rfl), okOfSome ?_⟩, rfl,
    crossingObject (.inl rfl), crossingPrimitive (.inr rfl), okOfSome ?_⟩
  all_goals decide

end Fragment.Typing
