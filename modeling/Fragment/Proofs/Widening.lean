import Fragment.Proofs.ObjectLiterals
import Fragment.Proofs.UnionParts

/-! Widening.
A literal widens to the basic type of its kind, an enumeration member to its enumeration, an object
literal to what stands in its place, and a union to the union of what its parts widen to. Each part is
assignable to what it widens to, and this widens to itself. -/
namespace Fragment.Typing

namespace State

variable {s s' : State} {t u w p q base : TypeId} {types : List TypeId} {a : Anonymous}

section Parts

theorem absorbersNone (none : s.baseOf? p = none) : s.absorbers p = [] := by
  unfold baseOf? at none
  unfold absorbers
  split at none <;> simp_all

/-- What a literal widens to is a basic type or an enumeration. -/
theorem baseFlags (c : s.Classified) (has : s.Has p) (is : s.baseOf? p = some base) : s.Has base ∧
    s.flagsAt base ∈ [TypeFlags.string, TypeFlags.number, TypeFlags.boolean, TypeFlags.enum] := by
  rcases c.absorberCases has (Classified.baseAbsorbs s is) with rfl | rfl | ⟨rfl, -⟩ | ⟨there, enum⟩
  · exact ⟨c.hasBasic (by decide), by rw [(c.basic stringType (by decide)).2]; decide⟩
  · exact ⟨c.hasBasic (by decide), by rw [(c.basic numberType (by decide)).2]; decide⟩
  · exact ⟨c.hasBasic (by decide), by rw [(c.basic booleanType (by decide)).2]; decide⟩
  · exact ⟨there, by simp [enum]⟩

/-- A literal is assignable to what it widens to. -/
theorem baseAccepted (c : s.Classified) (has : s.Has p) (is : s.baseOf? p = some base) :
    s.truth (.assignable, p, base) = true := by
  have fits := c.fits p has
  have basic {b : TypeId} (early : b ≤ trueType) : (s.typeInfo b).flags = State.initial.flagsAt b := (c.basic b early).2
  refine truthOfSimple ?_
  unfold baseOf? at is
  unfold simplyRelated numbersRelated
  split at is
  · next value b form =>
    cases is
    rw [form] at fits
    cases value with
    | text =>
      obtain ⟨flags, rfl⟩ := fits
      rw [show (s.typeInfo p).flags = _ from flags, basic (by decide)]
      rfl
    | number =>
      obtain ⟨flags, rfl⟩ := fits
      rw [show (s.typeInfo p).flags = _ from flags, basic (by decide)]
      rfl
    | bool =>
      obtain ⟨-, flags, rfl⟩ := fits
      rw [show (s.typeInfo p).flags = _ from flags, basic (by decide)]
      rfl
  · next value b form =>
    cases is
    rw [form] at fits
    have enum : (s.typeInfo base).flags = TypeFlags.enum := (c.enums p has value base form).2
    have flags : (s.typeInfo p).flags = TypeFlags.enumLiteral ||| TypeFlags.numberLiteral := fits
    have same : (s.baseOf? p == some base) = true := by simp [baseOf?, form]
    rw [flags, enum, same]
    rfl
  · cases is

/-- What a part widens to is there, and neither a literal nor an object literal unless the part is that. -/
theorem widenPartBase (c : s.Classified) (has : s.Has p) : s.Has (s.widenPart p) ∧ s.baseOf? (s.widenPart p) = none := by
  unfold widenPart
  cases is : s.baseOf? p with
  | none => exact ⟨has, is⟩
  | some base =>
    refine ⟨(baseFlags c has is).1, ?_⟩
    have kept := (c.absorberKept has (Classified.baseAbsorbs s is)).1
    by_contra other
    obtain ⟨far, deeper⟩ := Option.ne_none_iff_exists'.mp other
    have absorbs := Classified.baseAbsorbs s deeper
    simp [kept] at absorbs

/-- A proper part of a union widens to one. -/
theorem widenPartFlags (c : s.Classified) (has : s.Has p) {mask : TypeFlags}
    (others : ∀ f ∈ [TypeFlags.string, TypeFlags.number, TypeFlags.boolean, TypeFlags.enum], f.meets mask = false)
    (flags : (s.flagsAt p).meets mask = false) : (s.flagsAt (s.widenPart p)).meets mask = false := by
  unfold widenPart
  cases is : s.baseOf? p with
  | none => exact flags
  | some base => exact others _ (baseFlags c has is).2

theorem widenPartFlat (c : s.Classified) (has : s.Has p) (flat : s.flagsAt p ≠ TypeFlags.union) :
    s.flagsAt (s.widenPart p) ≠ TypeFlags.union := by
  unfold widenPart
  cases is : s.baseOf? p with
  | none => exact flat
  | some base =>
    intro union
    have flags := (baseFlags c has is).2
    rw [show s.flagsAt base = _ from union] at flags
    exact absurd flags (by decide)

theorem widenPartAccepted (c : s.Classified) (has : s.Has p) : s.truth (.assignable, p, s.widenPart p) = true := by
  unfold widenPart
  cases is : s.baseOf? p with
  | none => exact s.truthSelf p
  | some base => exact baseAccepted c has is

/-- Only an object literal widens to an object literal, and it widens to itself among the parts of a union. -/
theorem widenPartFresh (f : s.Formed) (has : s.Has p) (fresh : s.fresh? (s.widenPart p) = some a) : s.widenPart p = p := by
  unfold widenPart at fresh ⊢
  cases is : s.baseOf? p with
  | none => rfl
  | some base =>
    rw [is, Option.getD_some] at fresh
    have flags := (baseFlags f.interned.classified has is).2
    rw [(f.literals base a fresh).flags] at flags
    exact absurd flags (by decide)

end Parts

section Unions

theorem shapeOfParts {all : List TypeId} (some : all ≠ []) (t : TypeId) : t ∈ (shapeOf all).parts ↔ t ∈ all := by
  match all with
  | [t] => rfl
  | first :: second :: rest => exact List.mem_mergeSort

/-- Parts of which nothing is absorbed and nothing takes in all are the parts of their union. -/
theorem shapeOfSettled (c : s.Classified) {xs : List TypeId} (known : ∀ p ∈ xs, s.Has p) (some : xs ≠ [])
    (settled : ∀ p ∈ xs, s.absorbers p = [])
    (proper : ∀ p ∈ xs, (s.flagsAt p).meets
      (TypeFlags.union ||| TypeFlags.any ||| TypeFlags.unknown ||| TypeFlags.never) = false) (t : TypeId) :
    t ∈ (s.unionShape xs).parts ↔ t ∈ xs := by
  have single (p : TypeId) (member : p ∈ xs) : s.parts p = [p] := by
    refine c.partsSelf (known p member) fun flags => ?_
    have proper := proper p member
    rw [flags] at proper
    exact absurd proper (by decide)
  have flat : xs.flatMap s.parts = xs := by
    rw [List.flatMap_congr single, List.flatMap_singleton']
  have absent {b : TypeId} (early : b ≤ trueType) (flags : (State.initial.flagsAt b).meets
      (TypeFlags.union ||| TypeFlags.any ||| TypeFlags.unknown ||| TypeFlags.never) = true) : b ∉ xs := by
    intro member
    have proper := proper b member
    rw [(c.basic b early).2, flags] at proper
    cases proper
  have remains (t : TypeId) : s.Remains xs t ↔ t ∈ xs := by
    -- No truth value is there, as it would be absorbed by their type.
    have truths : ¬ Joins xs := by
      rintro ⟨member, -⟩
      have none := settled _ member
      rw [c.absorbersBool (.inl rfl)] at none
      cases none
    have empty : t ∈ xs → t ≠ neverType := by
      rintro member rfl
      exact absent (by decide) (by decide) member
    simp only [Remains, Kept, truths, false_and, not_false_eq_true, and_true, or_false]
    refine ⟨And.left, fun member => ⟨member, empty member, ?_⟩⟩
    simp [settled t member]
  rcases c.shapeCases known with ⟨any, -⟩ | ⟨-, unknown, -⟩ | ⟨-, -, all, -, mem, shape⟩
  · rw [flat] at any
    exact (any.elim (absent (by decide) (by decide)) (absent (by decide) (by decide))).elim
  · rw [flat] at unknown
    exact (absent (by decide) (by decide) unknown).elim
  · rw [flat] at mem
    have some : all ≠ [] := by
      obtain ⟨p, member⟩ := List.exists_mem_of_ne_nil xs some
      exact List.ne_nil_of_mem ((mem p).mpr ((remains p).mpr member))
    rw [shape, shapeOfParts some, mem, remains]

/-- A union widens to the union of what its parts widen to: none of these is left out. -/
theorem widenedParts (i : s.Interned) (has : s.Has t) (form : (s.typeInfo t).form = .union types) (q : TypeId) :
    q ∈ (s.unionShape (types.map s.widenPart)).parts ↔ q ∈ types.map s.widenPart := by
  have c := i.classified
  have canonical := i.canonical t has types form
  have each {P : TypeId → Prop} (holds : ∀ p ∈ types, P (s.widenPart p)) : ∀ q ∈ types.map s.widenPart, P q := by
    intro q member
    obtain ⟨p, inside, rfl⟩ := List.mem_map.mp member
    exact holds p inside
  refine shapeOfSettled c (each fun p inside => (widenPartBase c (canonical.known p inside)).1) ?_
    (each fun p inside => absorbersNone (widenPartBase c (canonical.known p inside)).2)
    (each fun p inside => widenPartFlags c (canonical.known p inside) (by decide) (canonical.proper p inside)) q
  have several := canonical.several
  intro empty
  rw [List.map_eq_nil_iff.mp empty] at several
  cases several

theorem isUnionRun (s : State) (t : TypeId) :
    (Check.isUnion t).run s = .ok (match (s.typeInfo t).form with | .union _ => true | _ => false, s) := by
  unfold Check.isUnion Check.form
  rw [runThen (t := s) (a := (s.typeInfo t).form) rfl]
  cases (s.typeInfo t).form <;> rfl

theorem widenLiteralUnion (form : (s.typeInfo t).form = .union types) :
    (Check.widenLiteral t).run s = (Check.union (types.map s.widenPart)).run s := by
  have parts : s.parts t = types := by simp [State.parts, form]
  rw [Check.widenLiteral, runThen (isUnionRun s t), form]
  change (Check.union ((s.parts t).map s.widenPart)).run s = _
  rw [parts]

theorem widenLiteralPlain (plain : ∀ types, (s.typeInfo t).form ≠ .union types) :
    (Check.widenLiteral t).run s = .ok (s.widenPart t, s) ∧ s.parts t = [t] := by
  unfold State.parts
  rw [Check.widenLiteral, runThen (isUnionRun s t)]
  cases form : (s.typeInfo t).form with
  | union types => exact absurd form (plain types)
  | _ => exact ⟨rfl, rfl⟩

end Unions

section Widens

/-- The parts of what literals widen to are what the parts widen to. -/
structure LiteralsWiden (s : State) (t u : TypeId) : Prop where
  asked : (Check.widenLiteral t).run s = .ok (u, s)
  has : s.Has u
  parts : ∀ q, q ∈ s.parts u ↔ q ∈ (s.parts t).map s.widenPart

/-- Literals can always be widened, and from then on they widen to the same. -/
theorem literalsWiden (f : s.Formed) (has : s.Has t) : ∃ u s', (Check.widenLiteral t).run s = .ok (u, s') ∧
    Developed s s' ∧ ∀ after, Later s' after → after.LiteralsWiden t u := by
  have i := f.interned
  have c := i.classified
  -- Neither the parts of the type nor what they widen to change later.
  have lasting {after : State} (e : s.Extends after) :
      after.parts t = s.parts t ∧ (s.parts t).map after.widenPart = (s.parts t).map s.widenPart := by
    refine ⟨e.parts has, List.map_congr_left fun p member => ?_⟩
    unfold widenPart
    rw [e.baseOf? (c.hasParts has p member).1]
  by_cases union : ∃ types, (s.typeInfo t).form = .union types
  · obtain ⟨types, form⟩ := union
    have own : s.parts t = types := by simp [State.parts, form]
    have known : ∀ q ∈ types.map s.widenPart, s.Has q := by
      intro q member
      obtain ⟨p, inside, rfl⟩ := List.mem_map.mp member
      exact (widenPartBase c ((i.canonical t has types form).known p inside)).1
    obtain ⟨u, s', run, does, hasU, parts, -⟩ := i.unionResult known
    refine ⟨u, s', (widenLiteralUnion form).trans run, .single (.constructed does (unionSpares f run)), fun after later => ?_⟩
    obtain ⟨i', e⟩ := i.step does
    obtain ⟨-, e'⟩ := i'.along later
    obtain ⟨partsT, widened⟩ := lasting (e.trans e')
    rw [own] at widened partsT
    refine ⟨?_, e'.has u hasU, fun q => ?_⟩
    · rw [widenLiteralUnion (((e.trans e').form has _ rfl).mpr form), widened]
      exact i.unionAgain known run later
    · rw [e'.parts hasU, parts, partsT, widened]
      exact widenedParts i has form q
  · have plain (types : List TypeId) : (s.typeInfo t).form ≠ .union types := fun form => union ⟨types, form⟩
    obtain ⟨run, own⟩ := widenLiteralPlain plain
    refine ⟨s.widenPart t, s, run, .refl, fun after later => ?_⟩
    obtain ⟨i', e⟩ := i.along later
    obtain ⟨hasW, settled⟩ := widenPartBase c has
    have flat : s.flagsAt t ≠ TypeFlags.union := (c.hasParts has t (own ▸ List.mem_singleton_self t)).2
    obtain ⟨partsT, widened⟩ := lasting e
    rw [own, List.map_singleton, List.map_singleton, List.singleton_inj] at widened
    rw [own] at partsT
    refine ⟨?_, e.has _ hasW, fun q => ?_⟩
    · rw [← widened]
      exact (widenLiteralPlain fun types form => plain types ((e.form has _ rfl).mp form)).1
    · have alone : after.parts (s.widenPart t) = [s.widenPart t] :=
        (e.parts hasW).trans (c.partsSelf hasW (widenPartFlat c has flat))
      rw [alone, partsT, List.map_singleton, widened]

/-- In this state `t` widens to `w`, by way of `u`, and nothing new is made. -/
structure Widens (s : State) (t u w : TypeId) : Prop extends s.LiteralsWiden t u where
  received : s.Received u w

theorem Widens.run (widens : s.Widens t u w) : (Check.widen t).run s = .ok (w, s) := by
  rw [Check.widen, runThen widens.asked]
  exact widens.received.run

/-- A type can always be widened, and from then on it widens to the same. -/
theorem widens (f : s.Formed) (has : s.Has t) : ∃ u w s', (Check.widen t).run s = .ok (w, s') ∧ Developed s s' ∧
    s'.Has w ∧ ∀ after, Developed s' after → after.Widens t u w := by
  obtain ⟨u, s₁, first, does, literals⟩ := literalsWiden f has
  obtain ⟨f₁, -⟩ := f.along does
  have hasU := (literals s₁ .refl).has
  obtain ⟨w, s₂, second, does', hasW, received, -⟩ := receives f₁ hasU
  have f₂ := f₁.step does'
  have later := f₁.later does'
  refine ⟨u, w, s₂, (runThen first).trans second, does.tail does', hasW, fun after developed => ?_⟩
  obtain ⟨-, later'⟩ := f₂.along developed
  exact ⟨literals after (later.trans later'),
    received.along f₂ ((f₁.interned.along later).2.has u hasU) developed⟩

end Widens

section Accepted

theorem lookupDistinct {ps : List (String × SymbolId)} (names : (ps.map (·.1)).Nodup) {name : String} {x : SymbolId}
    (member : (name, x) ∈ ps) : ps.lookup name = some x := by
  obtain ⟨before, after, rfl⟩ := List.append_of_mem member
  refine List.lookup_eq_some_iff.mpr ⟨before, after, rfl, fun p inside => ?_⟩
  rw [List.map_append, List.nodup_append] at names
  exact bne_iff_ne.mpr (names.2.2 p.1 (List.mem_map_of_mem inside) name (by simp)).symm

/-- A property of an object literal is found under its name. -/
theorem Literal.found (literal : s.Literal t a) {x : SymbolId} (member : x ∈ s.propertiesOf t) :
    s.propertyOf? t (s.symbol x).name = some x := by
  obtain ⟨ps, members, names, named⟩ := literal.members
  have own : s.membersOf t = { properties := ps } := by simp [membersOf, members]
  have flags : (s.typeInfo t).flags = TypeFlags.object := literal.flags
  have primitive : TypeFlags.meets TypeFlags.object TypeFlags.primitive = false := by decide
  rw [propertiesOf, own] at member
  obtain ⟨⟨name, y⟩, inside, rfl⟩ := List.mem_map.mp member
  obtain ⟨symbol, there, is⟩ := named _ inside
  have same : (s.symbol y).name = name := by
    simpa [State.symbol, Array.getD_eq_getD_getElem?, there] using is
  simp only [propertyOf?, flags, primitive, own, same, Bool.false_eq_true, ↓reduceIte]
  exact lookupDistinct names inside

theorem Literal.keyed (literal : s.Literal t a) : s.Keyed t := by
  obtain ⟨ps, members, -, named⟩ := literal.members
  intro name x member
  rw [membersOf, members] at member
  obtain ⟨symbol, there, is⟩ := named _ member
  simpa [State.symbol, Array.getD_eq_getD_getElem?, there] using is

/-- An object literal is assignable to what stands in its place: it has the same properties. -/
theorem twinAccepted (literal : s.Literal t a) (fresh : s.fresh? t = some a) (twin : s.Twin t w) :
    s.truth (.assignable, t, w) = true := by
  have flagsT : (s.typeInfo t).flags = TypeFlags.object := literal.flags
  have flagsW : (s.typeInfo w).flags = TypeFlags.object := twin.flags.trans literal.flags
  obtain ⟨b, formW⟩ := twin.form
  have formT := (freshIff.mp fresh).1
  have other : t ≠ w := by
    rintro rfl
    cases fresh.symm.trans twin.settled
  have members : s.membersOf w = s.membersOf t := by rw [membersOf, membersOf, twin.members]
  have simple : s.simplyRelated .assignable t w = none := by
    unfold simplyRelated numbersRelated
    rw [flagsT, flagsW]
    rfl
  have primitive : TypeFlags.meets TypeFlags.object TypeFlags.primitive = false := by decide
  have same (name : String) : s.propertyOf? w name = s.propertyOf? t name := by
    simp only [propertyOf?, flagsT, flagsW, primitive, members, Bool.false_eq_true, ↓reduceIte]
  refine (truthStructure other simple).mpr ⟨fun _ => excessNone fun _ x member => ?_, ?_⟩
  · rw [knows, formW]
    simp [same, literal.found member]
  · have planned : s.structurePlan .assignable t w = s.membersPlan .assignable t w := by
      have object : TypeFlags.meets TypeFlags.object TypeFlags.object = true := by decide
      simp [structurePlan, plainPlan, objectPlan, formT, formW, flagsT, flagsW, primitive, object]
    have properties : s.propertiesOf w = s.propertiesOf t := by rw [propertiesOf, propertiesOf, members]
    have signatures : s.signaturesOf w = [] := by
      obtain ⟨ps, own, -⟩ := literal.members
      simp [signaturesOf, membersOf, twin.members, own]
    rw [planned, membersPlan, signatures, properties]
    unfold Plan.holds
    simp only [Bool.and_eq_true, Plan.holdsAll, List.all_eq_true]
    refine ⟨fun x member => ?_, by simp⟩
    -- Each property is asked to take its own type.
    simp [propertyPlan, literal.found member, Plan.holds, s.truthSelf]

/-- A type without parts is assignable to what it widens to. -/
theorem partAccepted (f : s.Formed) (has : s.Has p) (received : s.Received (s.widenPart p) w) :
    s.truth (.assignable, p, w) = true := by
  have accepted := widenPartAccepted f.interned.classified has
  unfold Received at received
  split at received
  · exact received ▸ accepted
  · next a fresh =>
    have same := widenPartFresh f has fresh
    rw [same] at fresh
    have literal := f.literals p a fresh
    exact twinAccepted literal fresh (literal.twin w received)

theorem Received.flags (f : s.Formed) (received : s.Received u w) : s.flagsAt w = s.flagsAt u := by
  unfold Received at received
  split at received
  · rw [received]
  · next a fresh => exact ((f.literals u a fresh).twin w received).flags

/-- A part of a union is assignable to the union of what the parts widen to. -/
theorem partAcceptedUnion (f : s.Formed) (has : s.Has p) (hasU : s.Has u) (form : (s.typeInfo u).form = .union types)
    (proper : (s.flagsAt p).meets (TypeFlags.union ||| TypeFlags.any ||| TypeFlags.unknown ||| TypeFlags.never) = false)
    (member : s.widenPart p ∈ types) : s.truth (.assignable, p, u) = true := by
  have c := f.interned.classified
  have flags : (s.typeInfo u).flags = TypeFlags.union := by
    have fits := c.fits u hasU
    rwa [form] at fits
  simp only [flagsAt, meetsMaskOr, Bool.or_eq_false_iff] at proper
  have simple : s.simplyRelated .assignable p u = none := by rw [simplyIntoUnion flags]; simp [proper]
  have single (parts : List TypeId) : (s.typeInfo p).form ≠ .union parts := by
    intro formP
    have fits := c.fits p has
    rw [formP] at fits
    have kind : (s.typeInfo p).flags = TypeFlags.union := fits
    rw [kind] at proper
    exact absurd proper.1.1.1 (by decide)
  refine (truthIntoUnion form single simple).mpr ⟨fun fresh => ?_, s.widenPart p, member, widenPartAccepted c has⟩
  -- A literal is a part of what the union widens to, which therefore knows its properties.
  obtain ⟨a, literal⟩ := Option.isSome_iff_exists.mp (isFreshIff.mp fresh)
  have widened : s.widenPart p = p := by
    have base : s.baseOf? p = none := by simp [baseOf?, (freshIff.mp literal).1]
    simp [widenPart, base]
  have right := f.literals p a literal
  have object : (s.typeInfo p).flags.meets TypeFlags.primitive = false := by
    rw [show (s.typeInfo p).flags = _ from right.flags]
    decide
  exact excessOwn form (c.unionPositive hasU form) (widened ▸ member) right.keyed object fresh

/-- A type is assignable to what it widens to. -/
theorem Widens.accepted (f : s.Formed) (has : s.Has t) (widens : s.Widens t u w) :
    s.truth (.assignable, t, w) = true := by
  have i := f.interned
  have c := i.classified
  by_cases union : ∃ types, (s.typeInfo t).form = .union types
  · obtain ⟨types, form⟩ := union
    have own : s.parts t = types := by simp [State.parts, form]
    have canonical := i.canonical t has types form
    have flags : (s.typeInfo t).flags = TypeFlags.union := by
      have fits := c.fits t has
      rwa [form] at fits
    by_cases same : t = w
    · exact same ▸ s.truthSelf t
    -- What some part widens to takes neither everything nor nothing.
    have widened (p : TypeId) (member : p ∈ types) : s.widenPart p ∈ s.parts u :=
      (widens.parts _).mpr (List.mem_map_of_mem (own ▸ member))
    by_cases several : ∃ parts, (s.typeInfo u).form = .union parts
    · obtain ⟨parts, formU⟩ := several
      have partsU : s.parts u = parts := by simp [State.parts, formU]
      have settled : s.fresh? u = none := by simp [fresh?, formU]
      have isU : w = u := by
        have received := widens.received
        rwa [Received, settled] at received
      subst isU
      have flagsU : (s.typeInfo w).flags = TypeFlags.union := by
        have fits := c.fits w widens.has
        rwa [formU] at fits
      refine (truthFromUnion flags form same (flagsU ▸ by decide) (flagsU ▸ by decide)).mpr fun p member => ?_
      exact partAcceptedUnion f (canonical.known p member) widens.has formU (canonical.proper p member)
        (partsU ▸ widened p member)
    · have alone : s.parts u = [u] := (widenLiteralPlain fun parts form => several ⟨parts, form⟩).2
      have each (p : TypeId) (member : p ∈ types) : s.widenPart p = u := by
        simpa [alone] using widened p member
      obtain ⟨p, member⟩ : ∃ p, p ∈ types :=
        List.exists_mem_of_ne_nil types fun empty => absurd canonical.several (by simp [empty])
      have proper := widenPartFlags c (canonical.known p member) (by decide) (canonical.proper p member)
      rw [each p member, ← widens.received.flags f] at proper
      simp only [flagsAt, meetsMaskOr, Bool.or_eq_false_iff] at proper
      have bounded : (s.typeInfo w).flags.meets TypeFlags.anyOrUnknown = false := by
        simp [TypeFlags.anyOrUnknown, meetsMaskOr, proper]
      refine (truthFromUnion flags form same bounded proper.2).mpr fun p member => ?_
      exact partAccepted f (canonical.known p member) (each p member ▸ widens.received)
  · have plain (types : List TypeId) : (s.typeInfo t).form ≠ .union types := fun form => union ⟨types, form⟩
    obtain ⟨run, -⟩ := widenLiteralPlain plain
    cases run.symm.trans widens.asked
    exact partAccepted f has widens.received

end Accepted

section Again

/-- What a union widens to is the union of its own parts, which widen to themselves. -/
theorem unionWidensAgain (f : s.Formed) (has : s.Has t) (formT : (s.typeInfo t).form = .union types)
    (widens : s.LiteralsWiden t u) {parts : List TypeId} (form : (s.typeInfo u).form = .union parts) :
    (Check.widenLiteral u).run s = .ok (u, s) := by
  have i := f.interned
  have c := i.classified
  have known := (i.canonical t has types formT).known
  have knownU := (i.canonical u widens.has parts form).known
  have own : s.parts t = types := by simp [State.parts, formT]
  have partsU : s.parts u = parts := by simp [State.parts, form]
  have asked : (Check.union (types.map s.widenPart)).run s = .ok (u, s) := (widenLiteralUnion formT).symm.trans widens.asked
  have settled : parts.map s.widenPart = parts := by
    rw [List.map_congr_left (g := id) fun q member => ?_, List.map_id]
    obtain ⟨p, inside, rfl⟩ := List.mem_map.mp ((widens.parts q).mp (partsU ▸ member))
    have none := (widenPartBase c (known p (own ▸ inside))).2
    rw [widenPart, none, Option.getD_none, id_eq]
  have flat : parts.flatMap s.parts = parts := by
    rw [List.flatMap_congr fun q member => c.partsSelf (knownU q member) (c.flat u widens.has parts form q member).2,
      List.flatMap_singleton']
  have knownMap : ∀ q ∈ types.map s.widenPart ++ [], s.Has q := by
    intro q member
    obtain ⟨p, inside, rfl⟩ := List.mem_map.mp (List.append_nil _ ▸ member)
    exact (widenPartBase c (known p inside)).1
  calc (Check.widenLiteral u).run s
    _ = (Check.union parts).run s := by rw [widenLiteralUnion form, settled]
    _ = (Check.union [u]).run s := by
      refine i.unionSameParts (fun q member => ?_) fun q => by simp [flat, partsU]
      rcases List.mem_append.mp member with member | member
      · exact knownU q member
      · exact List.mem_singleton.mp member ▸ widens.has
    _ = (Check.union (types.map s.widenPart ++ [])).run s := i.unionSteps knownMap asked .refl
    _ = .ok (u, s) := by rw [List.append_nil, asked]

/-- What a type widens to widens to itself. -/
theorem Widens.again (f : s.Formed) (has : s.Has t) (widens : s.Widens t u w) : (Check.widen w).run s = .ok (w, s) := by
  have i := f.interned
  have c := i.classified
  suffices literals : (Check.widenLiteral w).run s = .ok (w, s) ∧ s.fresh? w = none by
    have received : s.Received w w := by simp [Received, literals.2]
    rw [Check.widen, runThen literals.1]
    exact received.run
  by_cases union : ∃ types, (s.typeInfo u).form = .union types
  · obtain ⟨parts, form⟩ := union
    have settled : s.fresh? u = none := by simp [fresh?, form]
    have same : w = u := by
      have received := widens.received
      rwa [Received, settled] at received
    subst same
    refine ⟨?_, settled⟩
    by_cases several : ∃ types, (s.typeInfo t).form = .union types
    · obtain ⟨types, formT⟩ := several
      exact unionWidensAgain f has formT widens.toLiteralsWiden form
    · -- A type that is no union does not widen to one.
      obtain ⟨run, own⟩ := widenLiteralPlain fun types form => several ⟨types, form⟩
      cases run.symm.trans widens.asked
      have flat := widenPartFlat c has (c.hasParts has t (own ▸ List.mem_singleton_self t)).2
      have fits := c.fits _ widens.has
      rw [form] at fits
      exact absurd fits flat
  · have plain (types : List TypeId) : (s.typeInfo u).form ≠ .union types := fun form => union ⟨types, form⟩
    have alone := (widenLiteralPlain plain).2
    have settled : s.baseOf? u = none := by
      obtain ⟨p, inside, same⟩ := List.mem_map.mp ((widens.parts u).mp (alone ▸ List.mem_singleton_self u))
      exact same ▸ (widenPartBase c (c.hasParts has p inside).1).2
    have received := widens.received
    unfold Received at received
    split at received
    · next none =>
      subst received
      refine ⟨?_, none⟩
      rw [(widenLiteralPlain plain).1, widenPart, settled, Option.getD_none]
    · next a fresh =>
      have twin := (f.literals u a fresh).twin w received
      obtain ⟨b, form⟩ := twin.form
      refine ⟨?_, twin.settled⟩
      have run := (widenLiteralPlain (s := s) (t := w) (by simp [form])).1
      rw [run, widenPart, baseOf?, form, Option.getD_none]

end Again

/-- Every type widens, it is assignable to what it widens to, and this widens to itself. So it is in each state
from then on, after any questions about relations. -/
theorem widensToUpperBound (developed : Developed State.initial s) (has : s.Has t) :
    ∃ w s', (Check.widen t).run s = .ok (w, s') ∧ Developed s s' ∧ s'.Has w ∧ ∀ after, Developed s' after →
      (Check.widen t).run after = .ok (w, after) ∧ (Check.widen w).run after = .ok (w, after) ∧ after.Accepts t w ∧
      (after.Resolved → after.relations = {} → after.relating = [] → after.Settles (.assignable, t, w) true) := by
  obtain ⟨f, -⟩ := initialFormed.along developed
  obtain ⟨u, w, s', run, does, hasW, widens⟩ := State.widens f has
  refine ⟨w, s', run, does, hasW, fun after developed' => ?_⟩
  obtain ⟨f', later⟩ := f.along (does.trans developed')
  have has' := (f.interned.along later).2.has t has
  have holds := (after.truthIff _).mp ((widens after developed').accepted f' has')
  exact ⟨(widens after developed').run, (widens after developed').again f' has', holds,
    fun resolved unasked idle => settlesOfHolds resolved unasked idle holds⟩

section Cases

/-- A property as it is written. -/
def writtenProperty (name : String) : Source.Property :=
  let mark : Source.Mark := ⟨0, ⟨⟨1, 1⟩, ⟨1, 1⟩⟩⟩
  .mk mark name (.boolean mark true) false

/-- An enumeration. -/
def enumInfo : TypeInfo := { flags := TypeFlags.enum, form := .enum [] }

/-- A member of an enumeration. -/
def memberInfo (base : TypeId) : TypeInfo :=
  { flags := TypeFlags.enumLiteral ||| TypeFlags.numberLiteral, form := .enumLiteral (.int 0) base }

/-- The start, after an enumeration and a member of it have been declared. -/
def enumerated : State :=
  { State.initial with types := (initialTypes.push enumInfo).push (memberInfo 12) }

/-- The state after that, with an object literal. -/
def described : State :=
  let x := writtenProperty "x"
  { enumerated with
    types := enumerated.types.push
      { flags := TypeFlags.object, form := .anonymous { isObjectLiteral := true, isFresh := true },
        members := some { properties := [("x", 1)] } }
    symbols := enumerated.symbols.push
      { flags := SymbolFlags.property ||| SymbolFlags.transient, name := "x", declarations := [.objectProperty x],
        valueDeclaration := some (.objectProperty x), type := some booleanType } }

/-- The state after that, with the union of the member and the literal. -/
def mixed : State :=
  { described with
    types := described.types.push { flags := TypeFlags.union, form := .union [13, 14] }
    unions := described.unions.insert ([13, 14], "") 15 }

theorem mixedDeveloped : Developed State.initial mixed := by
  have enum : Develops State.initial { State.initial with types := initialTypes.push enumInfo } := by
    have declares : State.initial.Declares enumInfo := .inl rfl
    exact .constructed (.declared declares rfl) (initialFormed.spares rfl (by simp [enumInfo]) rfl)
  have f₁ := initialFormed.step enum
  have member : Develops { State.initial with types := initialTypes.push enumInfo } enumerated := by
    have declares : State.Declares { State.initial with types := initialTypes.push enumInfo } (memberInfo 12) :=
      ⟨rfl, by unfold Has; decide, rfl⟩
    exact .constructed (.declared declares rfl) (f₁.spares rfl (by simp [memberInfo]) rfl)
  have f₂ := f₁.step member
  have described : Develops enumerated described := by
    have run : (Check.literalOf [(writtenProperty "x", booleanType)]).run enumerated = .ok (14, State.described) := rfl
    exact .literal (by simp) (by unfold Has; decide) run
  have f₃ := f₂.step described
  have united : Develops State.described mixed := by
    have run : (Check.union [13, 14]).run State.described = .ok (15, mixed) := by cbv
    exact .constructed (.union none (by unfold Has; decide) run) (unionSpares f₃ run)
  exact .tail (.tail (.tail (.tail .refl enum) member) described) united

/-- The state after the union has been widened. -/
def united : State :=
  { mixed with
    types := mixed.types.push { flags := TypeFlags.union, form := .union [12, 14] }
    unions := mixed.unions.insert ([12, 14], "") 16 }

/- The union of the member and the literal widens to the union of the enumeration and the literal, and the literal
alone to another type, which is not fresh. -/
theorem mixedWidened :
    ((Check.widen 15).run mixed = .ok (16, united) ∧ (Check.widen 16).run united = .ok (16, united) ∧
      united.Settles (.assignable, 15, 16) true) ∧
    ∃ s', (Check.widen 14).run mixed = .ok (16, s') ∧ s'.isFresh 16 = false ∧ (Check.widen 16).run s' = .ok (16, s') ∧
      s'.Settles (.assignable, 14, 16) true := by
  refine ⟨?_, mixed.receive 14 { isObjectLiteral := true, isFresh := true }, ?_⟩
  · obtain ⟨w, s', run, -, -, always⟩ := widensToUpperBound mixedDeveloped (show mixed.Has 15 by unfold Has; decide)
    have is : (Check.widen 15).run mixed = .ok (16, united) := by cbv
    cases run.symm.trans is
    obtain ⟨-, again, -, settles⟩ := always united .refl
    exact ⟨is, again, settles (resolvedOfWorked (by decide +kernel) rfl) rfl rfl⟩
  · obtain ⟨w, s', run, -, -, always⟩ := widensToUpperBound mixedDeveloped (show mixed.Has 14 by unfold Has; decide)
    have is : (Check.widen 14).run mixed =
        .ok (16, mixed.receive 14 { isObjectLiteral := true, isFresh := true }) := by cbv
    cases run.symm.trans is
    obtain ⟨-, again, -, settles⟩ := always _ .refl
    exact ⟨is, rfl, again, settles (resolvedOfWorked (by decide +kernel) rfl) rfl rfl⟩

end Cases

end State

end Fragment.Typing
