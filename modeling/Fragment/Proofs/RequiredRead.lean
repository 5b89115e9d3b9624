import Fragment.Proofs.Lawful
import Fragment.Proofs.FieldsKept
import Fragment.Proofs.RelationCache
import Mathlib

/-! Reading a property that is always there.
A type requires the properties that are not optional. An object literal has the fields that its type
requires, and where this type is assignable to another, directly or through others, it has the fields
that the other requires. So a read without a helper finds its field. Arrays and primitive values can be
given to such types as well, and have no fields. -/
namespace Fragment.Typing

open Target (World Outside Follows outside eval subscript followsKept literalHas)

/-- The flags of types without parts and members. -/
def TypeFlags.simple : List TypeFlags :=
  [any, unknown, string, number, boolean, enum, stringLiteral, numberLiteral, booleanLiteral, enumLiteral,
    enumLiteral ||| numberLiteral, void, undefined, never]

/-- The flags of types with parts or members. -/
def Form.kind? : Form → Option TypeFlags
  | .union _ => some TypeFlags.union
  | .intersection _ => some TypeFlags.intersection
  | .typeParameter _ => some TypeFlags.typeParameter
  | .interface _ | .reference .. | .array _ | .anonymous _ => some TypeFlags.object
  | _ => none

/-- Whether the flags of a type say what its form says. -/
def TypeInfo.wellKinded (info : TypeInfo) : Bool :=
  match info.form.kind? with
  | some kind => info.flags = kind
  | none => TypeFlags.simple.contains info.flags

def Form.isArray : Form → Bool
  | .array _ => true
  | _ => false

def TypeInfo.isRecord (info : TypeInfo) : Bool := info.flags.meets TypeFlags.object && !info.form.isArray

namespace State

variable (st : State)

/-- Whether a type has a property that may not be left out. -/
def Requires (t : TypeId) (name : String) : Prop :=
  ∃ x, (name, x) ∈ (st.membersOf t).properties ∧ (st.symbol x).isOptional = false

def Single (t : TypeId) : Prop := ∀ types, (st.typeInfo t).form ≠ .union types

/-- What the checker sees to when it makes types. -/
structure Shaped : Prop where
  kinds : ∀ t, (st.typeInfo t).wellKinded
  flat : ∀ {t types}, (st.typeInfo t).form = .union types → ∀ p ∈ types, st.Single p
  named : ∀ t name x, (name, x) ∈ (st.membersOf t).properties → (st.symbol x).name = name
  /-- References to one interface have the same properties. -/
  references : ∀ {s t i given wanted}, (st.typeInfo s).form = .reference i given →
    (st.typeInfo t).form = .reference i wanted → ∀ name, st.Requires t name → st.Requires s name

/-- No part of a type is `any` or an intersection. -/
def Clear (t : TypeId) : Prop :=
  ∀ p ∈ st.parts t, (st.typeInfo p).flags.meets (TypeFlags.any ||| TypeFlags.intersection) = false

/-- A value of one type may be given where another is wanted. Types through which everything can pass
are left out: every type is assignable to `any`, which is assignable to every type, and the flags let
an intersection be assignable to primitive types. -/
structure Flows (a b : TypeId) : Prop where
  holds : st.Holds (.assignable, a, b)
  clear : st.Clear b

/-- Some part of a type asks for no more than some fields. -/
def Carries (has : String → Prop) (t : TypeId) : Prop :=
  ∃ p ∈ st.parts t, (st.typeInfo p).flags = TypeFlags.unknown ∨
    ((st.typeInfo p).isRecord ∧ ∀ name, st.Requires p name → has name)

variable {st}

theorem formFlags {info : TypeInfo} (kinds : info.wellKinded) {kind : TypeFlags} (form : info.form.kind? = some kind) :
    info.flags = kind := by
  simpa [TypeInfo.wellKinded, form] using kinds

theorem wellKindedFlags {info : TypeInfo} (kinds : info.wellKinded) :
    info.flags ∈ [TypeFlags.union, TypeFlags.intersection, TypeFlags.typeParameter, TypeFlags.object] ++
      TypeFlags.simple := by
  cases form : info.form.kind? with
  | none =>
    simp only [TypeInfo.wellKinded, form] at kinds
    exact List.mem_append_right _ (List.contains_iff_mem.mp kinds)
  | some kind =>
    rw [formFlags kinds form]
    unfold Form.kind? at form
    split at form
    all_goals cases form
    all_goals decide

theorem recordFlags {info : TypeInfo} (kinds : info.wellKinded) (record : info.isRecord) :
    info.flags = TypeFlags.object := by
  have only : ∀ f ∈ [TypeFlags.union, TypeFlags.intersection, TypeFlags.typeParameter, TypeFlags.object] ++
      TypeFlags.simple, f.meets TypeFlags.object = true → f = TypeFlags.object := by decide
  exact only _ (wellKindedFlags kinds) (Bool.and_eq_true .. ▸ record).1

theorem recordOf {info : TypeInfo} (object : info.flags.meets TypeFlags.object = true)
    (noArray : ∀ element, info.form ≠ .array element) : info.isRecord := by
  unfold TypeInfo.isRecord Form.isArray
  rw [object]
  split
  · exact absurd ‹_› (noArray _)
  · rfl

theorem singleParts {t : TypeId} (single : st.Single t) : st.parts t = [t] := by
  unfold parts
  split
  · exact absurd ‹_› (single _)
  · rfl

/-- The flags alone give these types to `any` and `unknown` only. -/
theorem simplyGiven {s t : TypeId} (kind : (st.typeInfo s).flags ∈ [TypeFlags.unknown, TypeFlags.object, TypeFlags.union])
    (given : st.simplyRelated .assignable s t = some true) :
    (st.typeInfo t).flags.meets TypeFlags.anyOrUnknown = true := by
  have apart : ∀ f ∈ [TypeFlags.unknown, TypeFlags.object, TypeFlags.union],
      ∀ mask ∈ [TypeFlags.never, TypeFlags.any, TypeFlags.typeParameter, TypeFlags.stringLike, TypeFlags.enumLiteral,
        TypeFlags.numberLiteral, TypeFlags.number, TypeFlags.enum, TypeFlags.booleanLike, TypeFlags.boolean,
        TypeFlags.string, TypeFlags.undefined, TypeFlags.void, TypeFlags.primitive, TypeFlags.voidLike],
      f.meets mask = false := by decide
  replace apart := apart _ kind
  simp only [List.mem_cons, List.not_mem_nil, or_false, forall_eq_or_imp, forall_eq] at apart
  simp only [simplyRelated, numbersRelated, apart, Bool.or_false, Bool.false_or, Bool.false_and, Bool.false_eq_true,
    ↓reduceIte] at given
  split at given
  · assumption
  · repeat' split at given
    all_goals cases given

/-- Of these two, one that is clear is `unknown`. -/
theorem unknownTaken (shaped : st.Shaped) {t : TypeId} (clear : st.Clear t)
    (taken : (st.typeInfo t).flags.meets TypeFlags.anyOrUnknown = true) (has : String → Prop) : st.Carries has t := by
  have kinds := shaped.kinds t
  have alone : st.parts t = [t] := by
    refine singleParts fun types form => ?_
    rw [formFlags kinds (congrArg Form.kind? form)] at taken
    contradiction
  have only : ∀ f ∈ [TypeFlags.union, TypeFlags.intersection, TypeFlags.typeParameter, TypeFlags.object] ++
      TypeFlags.simple, f.meets TypeFlags.anyOrUnknown = true →
      f.meets (TypeFlags.any ||| TypeFlags.intersection) = false → f = TypeFlags.unknown := by decide
  exact ⟨t, by simp [alone], .inl (only _ (wellKindedFlags kinds) taken (clear t (by simp [alone])))⟩

theorem planHolds {a b : TypeId} (holds : st.Holds (.assignable, a, b)) :
    (st.plan (.assignable, a, b)).holds st.truth = true := by
  rw [st.truthPlan, st.truthIff]
  exact holds

/-- A question that flags leave open comes down to the structure of the types. -/
theorem openQuestion (shaped : st.Shaped) {a b : TypeId} (different : a ≠ b)
    (kind : (st.typeInfo a).flags ∈ [TypeFlags.unknown, TypeFlags.object, TypeFlags.union])
    (holds : st.Holds (.assignable, a, b)) (clear : st.Clear b) (has : String → Prop) :
    st.Carries has b ∨ st.simplyRelated .assignable a b = none ∧
      (st.structurePlan .assignable a b).holds st.truth = true := by
  have held := planHolds holds
  simp only [plan, different, ↓reduceIte] at held
  cases simple : st.simplyRelated .assignable a b with
  | some known =>
    rw [simple] at held
    obtain rfl : known = true := held
    exact .inl (unknownTaken shaped clear (simplyGiven kind simple) has)
  | none =>
    rw [simple] at held
    dsimp only at held
    split at held
    · cases held
    · exact .inr ⟨rfl, held⟩

theorem planAll {α : Type} {f : α → Plan} {xs : List α} {answer : RelationKey → Bool}
    (held : (Plan.all f xs).holds answer = true) : ∀ x ∈ xs, (f x).holds answer = true := by
  induction xs with
  | nil => simp
  | cons x xs ih =>
    unfold Plan.holds at held
    simp only [Plan.all, List.foldr_cons, Bool.and_eq_true] at held
    simp only [List.mem_cons, forall_eq_or_imp]
    exact ⟨held.1, ih held.2⟩

theorem planAny {α : Type} {f : α → Plan} {xs : List α} {answer : RelationKey → Bool}
    (held : (Plan.any f xs).holds answer = true) : ∃ x ∈ xs, (f x).holds answer = true := by
  induction xs with
  | nil => cases held
  | cons x xs ih =>
    unfold Plan.holds at held
    simp only [Plan.any, List.foldr_cons, Bool.or_eq_true] at held
    rcases held with held | held
    · exact ⟨x, List.mem_cons_self .., held⟩
    · obtain ⟨y, member, held⟩ := ih held
      exact ⟨y, List.mem_cons_of_mem _ member, held⟩

/-- A type with all members of another requires what the other requires. -/
theorem membersRequire (shaped : st.Shaped) {a b : TypeId} (plain : (st.typeInfo a).flags = TypeFlags.object)
    (held : (st.membersPlan .assignable a b).holds st.truth = true) {name : String} (required : st.Requires b name) :
    st.Requires a name := by
  obtain ⟨x, member, there⟩ := required
  unfold Plan.holds at held
  simp only [membersPlan, Bool.and_eq_true] at held
  have held := planAll held.1 x (List.mem_map_of_mem member)
  have known : (TypeFlags.object).meets TypeFlags.primitive = false := by decide
  simp only [propertyPlan, propertyOf?, shaped.named b name x member, plain, known, there, Bool.false_eq_true,
    ↓reduceIte, Bool.not_false, Bool.and_true, decide_true] at held
  split at held
  case h_1 => cases held
  case h_2 y found =>
    obtain ⟨_, _, split, _⟩ := List.lookup_eq_some_iff.mp found
    refine ⟨y, by simp [split], ?_⟩
    cases optional : (st.symbol y).isOptional with
    | false => rfl
    | true =>
      rw [optional] at held
      cases held

theorem objectsRequire (shaped : st.Shaped) {a b : TypeId} (record : (st.typeInfo a).isRecord)
    (held : (st.objectPlan .assignable a b).holds st.truth = true) :
    (∀ element, (st.typeInfo b).form ≠ .array element) ∧ ∀ name, st.Requires b name → st.Requires a name := by
  have plain := recordFlags (shaped.kinds a) record
  have noArray : ∀ element, (st.typeInfo a).form ≠ .array element := by
    intro element form
    simp [TypeInfo.isRecord, Form.isArray, form] at record
  unfold objectPlan at held
  split at held
  case h_1 i given j wanted source target =>
    refine ⟨by simp [target], fun name required => ?_⟩
    split at held
    case isTrue same =>
      subst same
      exact shaped.references source target name required
    case isFalse => exact membersRequire shaped plain held required
  case h_2 element _ source _ => exact absurd source (noArray element)
  case h_3 => cases held
  case h_4 noTarget _ _ => exact ⟨noTarget, fun name => membersRequire shaped plain held⟩

theorem recordGiven (shaped : st.Shaped) {has : String → Prop} {a b : TypeId} (record : (st.typeInfo a).isRecord)
    (fits : ∀ name, st.Requires a name → has name) (single : st.Single b) (holds : st.Holds (.assignable, a, b))
    (clear : st.Clear b) : st.Carries has b := by
  have alone := singleParts single
  have kind := recordFlags (shaped.kinds a) record
  by_cases same : a = b
  · subst same
    exact ⟨a, by simp [alone], .inr ⟨record, fits⟩⟩
  rcases openQuestion shaped same (by simp [kind]) holds clear has with done | ⟨-, held⟩
  · exact done
  have source {k : TypeFlags} (form : (st.typeInfo a).form.kind? = some k) : k = TypeFlags.object :=
    (formFlags (shaped.kinds a) form).symm.trans kind
  have target {k : TypeFlags} (form : (st.typeInfo b).form.kind? = some k) : (st.typeInfo b).flags = k :=
    formFlags (shaped.kinds b) form
  unfold structurePlan at held
  split at held
  case h_1 form => exact absurd (source (congrArg Form.kind? form)) (by decide)
  case h_2 form _ => exact absurd form (single _)
  case h_3 form _ => exact absurd (source (congrArg Form.kind? form)) (by decide)
  case h_4 => cases held
  case h_5 => cases held
  case h_6 form _ _ _ =>
    have narrow := clear b (by simp [alone])
    rw [target (congrArg Form.kind? form)] at narrow
    contradiction
  case h_7 form _ _ _ => exact absurd (source (congrArg Form.kind? form)) (by decide)
  case h_8 =>
    have known : (TypeFlags.object).meets TypeFlags.primitive = false := by decide
    have object : (TypeFlags.object).meets TypeFlags.object = true := by decide
    simp only [plainPlan, kind, known, object, Bool.false_eq_true, ↓reduceIte] at held
    split at held
    case isTrue => cases held
    case isFalse object =>
      obtain ⟨noArray, inherited⟩ := objectsRequire shaped record held
      refine ⟨b, by simp [alone], .inr ⟨?_, fun name required => fits name (inherited name required)⟩⟩
      exact recordOf (by simpa using object) noArray

theorem partOfUnion {a b : TypeId} {types : List TypeId} (form : (st.typeInfo b).form = .union types)
    (single : st.Single a) (held : (st.structurePlan .assignable a b).holds st.truth = true) :
    ∃ q ∈ types, st.Holds (.assignable, a, q) := by
  have noUnion : ∀ types, (st.typeInfo a).form ≠ .union types := single
  simp only [structurePlan, form] at held
  obtain ⟨q, member, held⟩ := planAny held
  exact ⟨q, member, (st.truthIff _).mp held⟩

theorem singleGiven (shaped : st.Shaped) {has : String → Prop} {a b : TypeId} (single : st.Single a)
    (carries : st.Carries has a) (holds : st.Holds (.assignable, a, b)) (clear : st.Clear b) : st.Carries has b := by
  by_cases same : a = b
  · exact same ▸ carries
  obtain ⟨p, member, kind⟩ := carries
  obtain rfl : p = a := by simpa [singleParts single] using member
  rcases kind with unknown | ⟨record, fits⟩
  · rcases openQuestion shaped same (by simp [unknown]) holds clear has with done | ⟨left, -⟩
    · exact done
    · -- The flags leave nothing open here.
      have : TypeFlags.unknown.meets TypeFlags.unknown = true := by decide
      simp only [simplyRelated, unknown, this, ↓reduceIte] at left
      repeat' split at left
      all_goals cases left
  · have kind := recordFlags (shaped.kinds p) record
    cases form : (st.typeInfo b).form with
    | union types =>
      rcases openQuestion shaped same (by simp [kind]) holds clear has with done | ⟨-, held⟩
      · exact done
      obtain ⟨q, member, taken⟩ := partOfUnion form single held
      have single := shaped.flat form q member
      have inside : q ∈ st.parts b := by simpa [parts, form] using member
      have clearPart : st.Clear q := by
        simpa [Clear, singleParts single] using clear q inside
      obtain ⟨r, alone, carries⟩ := recordGiven shaped record fits single taken clearPart
      obtain rfl : r = q := by simpa [singleParts single] using alone
      exact ⟨r, inside, carries⟩
    | _ => exact recordGiven shaped record fits (by simp [Single, form]) holds clear

/-- One step: what is given to another type is carried there. -/
theorem flowCarries (shaped : st.Shaped) {has : String → Prop} {a b : TypeId} (carries : st.Carries has a)
    (flows : st.Flows a b) : st.Carries has b := by
  by_cases same : a = b
  · exact same ▸ carries
  cases form : (st.typeInfo a).form with
  | union types =>
    have kind := formFlags (shaped.kinds a) (congrArg Form.kind? form)
    rcases openQuestion shaped same (by simp [kind]) flows.holds flows.clear has with done | ⟨-, held⟩
    · exact done
    obtain ⟨p, member, carries⟩ := carries
    have member : p ∈ types := by simpa [parts, form] using member
    simp only [structurePlan, form, reduceCtorEq, ↓reduceIte] at held
    have single := shaped.flat form p member
    refine singleGiven shaped single ⟨p, by simp [singleParts single], carries⟩ ?_ flows.clear
    exact (st.truthIff _).mp (planAll held p member)
  | _ => exact singleGiven shaped (by simp [Single, form]) carries flows.holds flows.clear

theorem flowsCarry (shaped : st.Shaped) {has : String → Prop} {a b : TypeId} (carries : st.Carries has a)
    (flows : Relation.ReflTransGen st.Flows a b) : st.Carries has b := by
  induction flows with
  | refl => exact carries
  | tail _ step ih => exact flowCarries shaped ih step

end State

end Fragment.Typing

namespace Fragment.Emit

open Typing (State TypeId)
open Lowering

theorem askKnown {α : Type} {question : Typing.Check α} {a : α} {c : Context} {p : Progress}
    (answer : question.run p.typing = .ok (a, p.typing)) : ask question c p = .ok (a, p) := by
  simp only [ask, bindRun, getRun, answer, modifyRun]
  rfl

theorem typeOfKnown {c : Context} {p : Progress} {e : Source.Expr} {t : TypeId}
    (typed : p.typing.nodeTypes[e.mark.id]? = some t) : typeOf e c p = .ok (t, p) := by
  exact askKnown ((Typing.readsExprType typed).known (show 1 ≤ Typing.depthLimit by decide))

theorem plainRun (t : TypeId) (c : Context) (p : Progress) :
    isPlainObject t c p = .ok ((p.typing.parts t).all fun part => (p.typing.typeInfo part).isRecord, p) := by
  have record (info : Typing.TypeInfo) : (info.flags.meets Typing.TypeFlags.object && (match info.form with
      | .array _ => false
      | _ => true)) = info.isRecord := by
    unfold Typing.TypeInfo.isRecord
    cases info.form <;> rfl
  exact congrArg (fun f => Except.ok ((p.typing.parts t).all f, p)) (funext fun part => record _)

theorem arrayRun (t : TypeId) (c : Context) (p : Progress) :
    isArray t c p = .ok ((p.typing.typeInfo t).form.isArray, p) := by
  have asked : ask (Typing.Check.form t) c p = .ok ((p.typing.typeInfo t).form, p) := askKnown rfl
  simp only [isArray, bindRun, asked]
  cases (p.typing.typeInfo t).form <;> rfl

theorem requiredRun (mark : Source.Mark) (c : Context) (p : Progress) :
    readsRequired mark c p = .ok ((symbolAt p.typing mark).any fun x => !(p.typing.symbol x).isOptional, p) := by
  have asked : ask (Typing.Check.symbolAt? mark) c p = .ok (symbolAt p.typing mark, p) := askKnown rfl
  simp only [readsRequired, bindRun, asked]
  cases symbolAt p.typing mark <;> rfl

theorem memberRun {c : Context} {p q : Progress} {source : Source.Expr} {t : TypeId}
    (typed : typeOf source c p = .ok (t, q)) (mark : Source.Mark) (key : String) (target : Target.Expr) :
    memberExpr mark source key target c p = .ok
      (if key = "length" && (q.typing.allParts t Typing.TypeFlags.stringLike || (q.typing.typeInfo t).form.isArray) then
          .helper .length [target]
        else if ((symbolAt q.typing mark).any fun x => !(q.typing.symbol x).isOptional) &&
            (q.typing.parts t).all fun part => (q.typing.typeInfo part).isRecord then .subscript target key
        else .helper .getMember [target, .text key], q) := by
  have reads (mask : Typing.TypeFlags) : allParts t mask c q = .ok (q.typing.allParts t mask, q) := askKnown rfl
  simp only [memberExpr, bindRun, typed, reads, arrayRun]
  split
  · rfl
  · simp only [bindRun, requiredRun, plainRun]
    split <;> rfl

/-- A read becomes a subscript only if it reads a property that is always there, from a type whose parts
are all records. -/
theorem subscriptMade {c : Context} {p q : Progress} {mark : Source.Mark} {source : Source.Expr} {key name : String}
    {target object : Target.Expr} {t : TypeId} (typed : p.typing.nodeTypes[source.mark.id]? = some t)
    (lowered : memberExpr mark source key target c p = .ok (.subscript object name, q)) :
    (∃ x, symbolAt p.typing mark = some x ∧ (p.typing.symbol x).isOptional = false) ∧
      ∀ part ∈ p.typing.parts t, (p.typing.typeInfo part).isRecord := by
  rw [memberRun (typeOfKnown typed)] at lowered
  have made := congrArg Prod.fst (Except.ok.inj lowered)
  dsimp only at made
  split at made
  · cases made
  split at made
  case isTrue both =>
    simp only [Bool.and_eq_true, Option.any_eq_true, Bool.not_eq_eq_eq_not, Bool.not_true, List.all_eq_true] at both
    exact both
  case isFalse => cases made

/-- A subscript that is made for a property read finds its field: in an object that was made by a literal whose
type has no more required properties than the literal has entries, whatever has run since, and after any
number of assignments, if their types are clear. -/
theorem requiredReadFinds {c : Context} {p q : Progress} {mark : Source.Mark} {source : Source.Expr} {key : String}
    {target : Target.Expr} {t literal : TypeId} {fuel : Nat} {scopes : List Target.Scope}
    {entries : List (String × Target.Expr)} {w u later : Target.World} {v : Value}
    (typed : p.typing.nodeTypes[source.mark.id]? = some t)
    (lowered : memberExpr mark source key target c p = .ok (.subscript target key, q)) (shaped : p.typing.Shaped)
    (known : ∀ x, symbolAt p.typing mark = some x → (p.typing.symbol x).isOptional = false →
      ∀ part ∈ p.typing.parts t, p.typing.Requires part key)
    (made : Target.eval (Target.outside fuel) scopes (.dict entries) w = .ok v u)
    (record : (p.typing.typeInfo literal).isRecord)
    (written : ∀ name, p.typing.Requires literal name → name ∈ entries.map (·.1))
    (flows : Relation.ReflTransGen p.typing.Flows literal t) (ran : Relation.ReflTransGen Target.Follows u later) :
    ∃ found, Target.subscript later.store v key = .ok found ∧ Value.getMember later.store v key = .ok (.value found) ∧
      ∀ fuel scopes before, Target.eval (Target.outside fuel) scopes target before = .ok v later →
        Target.eval (Target.outside fuel) scopes (.subscript target key) before = .ok found later := by
  obtain ⟨⟨x, means, required⟩, records⟩ := subscriptMade typed lowered
  obtain ⟨ref, rfl, fields⟩ := Target.literalHas made
  have single : p.typing.Single literal := by
    intro types form
    have kind := Typing.State.recordFlags (shaped.kinds literal) record
    exact absurd ((Typing.State.formFlags (shaped.kinds literal) (congrArg Typing.Form.kind? form)).symm.trans kind)
      (by decide)
  have start : p.typing.Carries (later.hasField ref) literal := by
    refine ⟨literal, by simp [Typing.State.singleParts single], .inr ⟨record, fun name needed => ?_⟩⟩
    obtain ⟨entry, member, rfl⟩ := List.mem_map.mp (written name needed)
    exact Target.followsKept ran ref _ (fields entry member)
  obtain ⟨part, member, kind⟩ := Typing.State.flowsCarry shaped start flows
  have there : later.hasField ref key := by
    rcases kind with unknown | ⟨_, fits⟩
    · have object := Typing.State.recordFlags (shaped.kinds part) (records part member)
      exact absurd (unknown.symm.trans object) (by decide)
    · exact fits key (known x means required part member)
  obtain ⟨found, field⟩ := Option.isSome_iff_exists.mp there
  have read : Target.subscript later.store (.object ref) key = .ok found := by
    unfold Target.subscript
    simp [field]
  unfold Value.getMember
  refine ⟨found, read, by simp [field]; rfl, fun fuel scopes before object => ?_⟩
  simp only [Target.eval, bind, EStateM.bind, object, Target.Run.store, get, getThe, MonadStateOf.get, EStateM.get,
    pure, EStateM.pure, read, Target.Run.lift]

/-- An object literal with two numbers, and an interface with one of them. The object `o` is of the interface. -/
def pairTyping : State :=
  let property (name : String) : Typing.Symbol :=
    { flags := Typing.SymbolFlags.property, name, type := some Typing.numberType }
  { State.initial with
    types := Typing.initialTypes ++ #[
      { flags := Typing.TypeFlags.object, form := .anonymous {}, members := some { properties := [("a", 1), ("b", 2)] } },
      { flags := Typing.TypeFlags.object, form := .interface [], members := some { properties := [("a", 3)] } }]
    symbols := State.initial.symbols ++ #[property "a", property "b", property "a"]
    nodeTypes := ({} : Std.HashMap Nat TypeId).insert 1 13
    resolvedSymbols := ({} : Std.HashMap Nat Typing.SymbolId).insert 2 3 }

theorem pairShaped : pairTyping.Shaped := by
  have each : ∀ t, (pairTyping.typeInfo t).wellKinded ∧ (∀ types, (pairTyping.typeInfo t).form ≠ .union types) ∧
      (∀ i args, (pairTyping.typeInfo t).form ≠ .reference i args) ∧
      ∀ entry ∈ (pairTyping.membersOf t).properties, (pairTyping.symbol entry.2).name = entry.1 := by
    refine Typing.typeInfoEvery (P := fun info => info.wellKinded ∧ (∀ types, info.form ≠ .union types) ∧
      (∀ i args, info.form ≠ .reference i args) ∧
      ∀ entry ∈ (info.members.getD {}).properties, (pairTyping.symbol entry.2).name = entry.1) ?_ ?_
    · intro info member
      simp only [pairTyping, Typing.initialTypes, Typing.intrinsic, List.append_toArray, List.cons_append, List.nil_append,
        List.mem_toArray, List.mem_cons, List.not_mem_nil, or_false] at member
      rcases member with rfl | rfl | rfl | rfl | rfl | rfl | rfl | rfl | rfl | rfl | rfl | rfl | rfl | rfl <;>
        refine ⟨by decide, by simp, by simp, by decide⟩
    · refine ⟨by decide, by simp [Typing.intrinsic], by simp [Typing.intrinsic], by decide⟩
  refine ⟨fun t => (each t).1, fun form => absurd form ((each _).2.1 _), fun t name x member => ?_, fun form => ?_⟩
  · exact (each t).2.2.2 (name, x) member
  · exact absurd form ((each _).2.2.1 _ _)

theorem pairFlows : pairTyping.Flows 12 13 := by
  refine ⟨⟨fun k => k = (.assignable, 12, 13) || k = (.assignable, 7, 7), fun k member => ?_, rfl⟩, ?_⟩
  · simp only [Bool.or_eq_true, decide_eq_true_eq] at member
    rcases member with rfl | rfl <;> decide
  · unfold State.Clear
    decide

def pairStart : Progress := { typing := pairTyping, names := { used := [], symbols := [] } }

/-- The world after the object literal `o` has been made. -/
def pairWorld : Target.World := { store := { objects := #[[("a", .int 1), ("b", .int 2)]] } }

/-- The property that the interface requires is read from the literal with both, after another object has been made. -/
theorem pairReadFinds : ∃ found,
    Target.subscript (Target.worldAfter (Target.eval (Target.outside 0) [] (.dict [])) pairWorld).store (.object 0) "a" =
      .ok found := by
  have typed : pairTyping.nodeTypes[(Source.Expr.ident (plainMark 1) "o").mark.id]? = some 13 := by
    unfold Source.Expr.mark
    simp [pairTyping, plainMark]
  have means : symbolAt pairTyping (plainMark 2) = some 3 := by simp [symbolAt, pairTyping, plainMark]
  have lowered : memberExpr (plainMark 2) (.ident (plainMark 1) "o") "a" (.name "o") countContext pairStart =
      .ok (.subscript (.name "o") "a", pairStart) := by
    rw [memberRun (typeOfKnown typed)]
    simp only [show pairStart.typing = pairTyping from rfl, means]
    rfl
  have required : ∀ x, symbolAt pairTyping (plainMark 2) = some x → (pairTyping.symbol x).isOptional = false →
      ∀ part ∈ pairTyping.parts 13, pairTyping.Requires part "a" := by
    intro x _ _ part member
    obtain rfl : part = 13 := List.mem_singleton.mp member
    exact ⟨3, by decide, by decide⟩
  have written : ∀ name, pairTyping.Requires 12 name → name ∈ ["a", "b"] := by
    rintro name ⟨x, member, -⟩
    have names : (pairTyping.membersOf 12).properties = [("a", 1), ("b", 2)] := rfl
    simp only [names, List.mem_cons, Prod.mk.injEq, List.not_mem_nil, or_false] at member
    rcases member with ⟨rfl, -⟩ | ⟨rfl, -⟩ <;> decide
  have made : Target.eval (Target.outside 0) [] (.dict [("a", .number (.int 1)), ("b", .number (.int 2))]) {} =
      .ok (.object 0) pairWorld := rfl
  obtain ⟨found, read, -⟩ := requiredReadFinds typed lowered pairShaped required made (by decide) written (.single pairFlows)
    (.single (.eval 0 [] (.dict []) pairWorld))
  exact ⟨found, read⟩

/-- An interface with a length, and the type of arrays of numbers. The value `o` is of the interface. -/
def lengthTyping : State :=
  let length : Typing.Symbol :=
    { flags := Typing.SymbolFlags.property, name := "length", type := some Typing.numberType }
  { State.initial with
    types := Typing.initialTypes ++ #[
      { flags := Typing.TypeFlags.object, form := .interface [], members := some { properties := [("length", 1)] } },
      { flags := Typing.TypeFlags.object, form := .array Typing.numberType,
        members := some { properties := [("length", 2)] } }]
    symbols := State.initial.symbols ++ #[length, length]
    nodeTypes := ({} : Std.HashMap Nat TypeId).insert 1 12
    resolvedSymbols := ({} : Std.HashMap Nat Typing.SymbolId).insert 2 1 }

/-- An array may be given to the interface. Its length is then read by a subscript, and arrays have none. -/
theorem arrayReadFails :
    Typing.answers.reply lengthTyping (.assignable, 13, 12) = .ok true ∧
    memberExpr (plainMark 2) (.ident (plainMark 1) "o") "length" (.name "o") countContext
      { pairStart with typing := lengthTyping } =
      .ok (.subscript (.name "o") "length", { pairStart with typing := lengthTyping }) ∧
    ∃ u, Target.eval (Target.outside 0) [] (.list [.number (.int 1)]) {} = .ok (.array 0) u ∧
      Target.subscript u.store (.array 0) "length" = .error .kind := by
  have typed : lengthTyping.nodeTypes[(Source.Expr.ident (plainMark 1) "o").mark.id]? = some 12 := by
    unfold Source.Expr.mark
    simp [lengthTyping, plainMark]
  have means : symbolAt lengthTyping (plainMark 2) = some 1 := by simp [symbolAt, lengthTyping, plainMark]
  refine ⟨Typing.okOfSome (by decide), ?_, _, rfl, rfl⟩
  rw [memberRun (typeOfKnown typed)]
  simp only [means]
  rfl

end Fragment.Emit
