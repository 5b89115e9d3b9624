import Fragment.Proofs.Comparability
import Fragment.Proofs.UnionShape

/-! Questions about unions and about their parts.
A union is assignable if all its parts are, and what is assignable to a part is assignable to the
union. An object literal that nothing has received yet is held to the properties of its target, and a
union knows the properties that its parts know. -/
namespace Fragment.Typing

/-- Whether the form has other types as its parts. -/
def Form.isComposed : Form → Bool
  | .union _ | .intersection _ => true
  | _ => false

namespace State

variable {st : State} {p q t u : TypeId} {types : List TypeId} {name : String}

theorem truthSelf (st : State) (t : TypeId) : st.truth (.assignable, t, t) = true :=
  (st.truthIff _).mpr (acceptsSelf st t)

theorem truthSimple {b : Bool} (other : p ≠ q) (simple : st.simplyRelated .assignable p q = some b) :
    st.truth (.assignable, p, q) = b := by
  rw [← st.truthPlan]
  simp only [plan, other, ↓reduceIte, simple]
  rfl

theorem truthOfSimple (simple : st.simplyRelated .assignable p q = some true) :
    st.truth (.assignable, p, q) = true := by
  by_cases same : p = q
  · exact same ▸ st.truthSelf p
  · exact truthSimple same simple

/-- Where flags leave a question open, a literal that nothing has received yet must have no property too
many, and the structure decides. -/
theorem truthStructure (other : p ≠ q) (simple : st.simplyRelated .assignable p q = none) :
    st.truth (.assignable, p, q) = true ↔ (st.isFresh p = true → st.excess? p q = none) ∧
      (st.structurePlan .assignable p q).holds st.truth = true := by
  rw [← st.truthPlan]
  simp only [plan, other, ↓reduceIte, simple, decide_true, Bool.true_and]
  cases fresh : st.isFresh p with
  | false => simp
  | true =>
    cases excess : st.excess? p q with
    | none => simp
    | some x =>
      unfold Plan.holds
      simp

theorem simplyFromUnion (flags : (st.typeInfo u).flags = TypeFlags.union) (t : TypeId) :
    st.simplyRelated .assignable u t =
      if (st.typeInfo t).flags.meets TypeFlags.anyOrUnknown then some true
      else if (st.typeInfo t).flags.meets TypeFlags.never then some false
      else none := by
  have kept : TypeFlags.meets TypeFlags.union TypeFlags.never = false ∧ TypeFlags.meets TypeFlags.union TypeFlags.any = false ∧
      TypeFlags.meets TypeFlags.union TypeFlags.unknown = false ∧ TypeFlags.meets TypeFlags.union TypeFlags.union = true := by
    decide
  unfold simplyRelated
  simp only [flags, kept, Bool.or_false, Bool.true_or, Bool.false_eq_true, ↓reduceIte]

theorem simplyIntoUnion (flags : (st.typeInfo t).flags = TypeFlags.union) (p : TypeId) :
    st.simplyRelated .assignable p t =
      if (st.typeInfo p).flags.meets TypeFlags.never then some true
      else if (st.typeInfo p).flags.meets TypeFlags.any then some true
      else if (st.typeInfo p).flags.meets TypeFlags.unknown then some false
      else none := by
  have kept : TypeFlags.meets TypeFlags.union TypeFlags.anyOrUnknown = false ∧
      TypeFlags.meets TypeFlags.union TypeFlags.never = false ∧ TypeFlags.meets TypeFlags.union TypeFlags.union = true := by
    decide
  unfold simplyRelated
  simp only [flags, kept, Bool.false_or, Bool.or_true, Bool.false_eq_true, ↓reduceIte]

/-- A union is assignable to a type that takes some things but not all if each part is. -/
theorem truthFromUnion (flags : (st.typeInfo u).flags = TypeFlags.union) (form : (st.typeInfo u).form = .union types)
    (other : u ≠ t) (bounded : (st.typeInfo t).flags.meets TypeFlags.anyOrUnknown = false)
    (inhabited : (st.typeInfo t).flags.meets TypeFlags.never = false) :
    st.truth (.assignable, u, t) = true ↔ ∀ p ∈ types, st.truth (.assignable, p, t) = true := by
  have simple := simplyFromUnion flags t
  simp only [bounded, inhabited, Bool.false_eq_true, ↓reduceIte] at simple
  rw [truthStructure other simple, structurePlan, form]
  simp [isFresh, form, Plan.holdsAll, Plan.holds]

/-- The first type of all is no union. -/
theorem Classified.unionPositive (c : st.Classified) (has : st.Has t) (form : (st.typeInfo t).form = .union types) :
    0 < t := by
  refine Nat.pos_of_ne_zero fun zero => ?_
  have fits := c.fits t has
  rw [form, (c.basic t (zero ▸ by decide)).2, zero] at fits
  exact absurd (show State.initial.flagsAt 0 = TypeFlags.union from fits) (by decide)

/-! Excess properties -/

theorem limitsFlat (flat : (st.typeInfo q).form.isComposed = false) (n m : Nat) :
    st.limits (n + 1) q = st.limits (m + 1) q := by
  unfold limits
  cases form : (st.typeInfo q).form <;> simp_all [Form.isComposed]

theorem knowsFlat (flat : (st.typeInfo q).form.isComposed = false) (n m : Nat) :
    st.knows name (n + 1) q = st.knows name (m + 1) q := by
  unfold knows
  cases form : (st.typeInfo q).form <;> simp_all [Form.isComposed]

theorem excessNone (known : st.limits (t + 1) t = true →
    ∀ x ∈ st.propertiesOf p, st.knows (st.symbol x).name (t + 1) t = true) : st.excess? p t = none := by
  unfold excess?
  split
  · next limits =>
    rw [List.find?_eq_none]
    intro x member
    simp [known limits x member]
  · rfl

/-- What a part of a union takes the union takes. -/
theorem excessUnion (form : (st.typeInfo t).form = .union types) (positive : 0 < t) (member : q ∈ types)
    (flat : (st.typeInfo q).form.isComposed = false) (valued : (st.typeInfo q).flags.meets TypeFlags.voidLike = false)
    (taken : st.excess? p q = none) : st.excess? p t = none := by
  obtain ⟨n, rfl⟩ := Nat.exists_eq_succ_of_ne_zero positive.ne'
  refine excessNone fun limited x inside => ?_
  have limitedPart : st.limits (q + 1) q = true := by
    rw [limits, form] at limited
    rw [limitsFlat flat q n]
    exact List.all_eq_true.mp limited q (List.mem_filter.mpr ⟨member, by simp [valued]⟩)
  rw [excess?, if_pos limitedPart, List.find?_eq_none] at taken
  have known : st.knows (st.symbol x).name (q + 1) q = true := by simpa using taken x inside
  rw [knows, form]
  exact List.any_eq_true.mpr ⟨q, member, (knowsFlat flat n q).trans known⟩

/-- The properties of a type have the names under which they are listed. -/
def Keyed (st : State) (t : TypeId) : Prop :=
  ∀ name x, (name, x) ∈ (st.membersOf t).properties → (st.symbol x).name = name

theorem ownProperty (keyed : st.Keyed p) (object : (st.typeInfo p).flags.meets TypeFlags.primitive = false)
    {x : SymbolId} (member : x ∈ st.propertiesOf p) : (st.propertyOf? p (st.symbol x).name).isSome = true := by
  obtain ⟨⟨key, y⟩, inside, rfl⟩ := List.mem_map.mp member
  simp only [propertyOf?, object, Bool.false_eq_true, ↓reduceIte, keyed key y inside]
  rw [Option.isSome_iff_ne_none, ne_eq, List.lookup_eq_none_iff]
  exact fun absent => absurd (absent _ inside) (by simp)

/-- An object literal has no property too many for a union that has its own type as a part. -/
theorem excessOwn (form : (st.typeInfo t).form = .union types) (positive : 0 < t) (member : p ∈ types)
    (keyed : st.Keyed p) (object : (st.typeInfo p).flags.meets TypeFlags.primitive = false)
    (fresh : st.isFresh p = true) : st.excess? p t = none := by
  obtain ⟨n, rfl⟩ := Nat.exists_eq_succ_of_ne_zero positive.ne'
  refine excessNone fun _ x inside => ?_
  rw [knows, form]
  refine List.any_eq_true.mpr ⟨p, member, ?_⟩
  unfold isFresh at fresh
  unfold knows
  split at fresh
  · next a literal => simp [literal, ownProperty keyed object inside]
  · cases fresh

/-- Where flags leave it open, what is assignable to a part of a union is assignable to the union, and
nothing else is. -/
theorem truthIntoUnion (form : (st.typeInfo t).form = .union types)
    (single : ∀ parts, (st.typeInfo p).form ≠ .union parts) (simple : st.simplyRelated .assignable p t = none) :
    st.truth (.assignable, p, t) = true ↔ (st.isFresh p = true → st.excess? p t = none) ∧
      ∃ q ∈ types, st.truth (.assignable, p, q) = true := by
  have other : p ≠ t := fun same => single types (same ▸ form)
  have planned : st.structurePlan .assignable p t = .any (fun q => .ask (.assignable, p, q)) types := by
    unfold structurePlan
    rw [form]
    split <;> simp_all
  rw [truthStructure other simple, planned, Plan.holdsAny, List.any_eq_true]
  rfl

end State

end Fragment.Typing
