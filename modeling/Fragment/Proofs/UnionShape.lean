import Mathlib.Data.List.Sort
import Mathlib.Data.Nat.Bitwise
import Mathlib.Tactic.Tauto
import Fragment.Typing.Construct

/-! What a union of some types comes to.
The parts of a union are classified by flags, and a part is absorbed by others that say more. Which
parts remain depends only on the set of parts, and parts that remain absorb the same as before, so
that unions can be taken in steps. -/
namespace Fragment.Typing

open Check (boolLiteral)

namespace State

/-- `t` is one of the types that have been made. -/
def Has (s : State) (t : TypeId) : Prop := t < s.types.size

def flagsAt (s : State) (t : TypeId) : TypeFlags := (s.typeInfo t).flags

end State

/-- Whether details of the form are filled in after the type has been made. -/
def Form.isOpen : Form → Bool
  | .enum _ | .typeParameter _ | .interface _ | .anonymous _ => true
  | _ => false

/-- The number and the flags of a type go with its form. -/
def Form.Fits (t : TypeId) (flags : TypeFlags) : Form → Prop
  | .intrinsic _ => t ≤ booleanType
  | .literal (.text _) base => flags = TypeFlags.stringLiteral ∧ base = stringType
  | .literal (.number _) base => flags = TypeFlags.numberLiteral ∧ base = numberType
  | .literal (.bool b) base => t = boolLiteral b ∧ flags = TypeFlags.booleanLiteral ∧ base = booleanType
  | .enumLiteral _ _ => flags = TypeFlags.enumLiteral ||| TypeFlags.numberLiteral
  | .union _ => flags = TypeFlags.union
  | .intersection _ => flags = TypeFlags.intersection
  | .array _ | .reference .. => flags = TypeFlags.object
  | .enum _ | .typeParameter _ | .interface _ | .anonymous _ =>
    flags = TypeFlags.enum ∨ flags = TypeFlags.typeParameter ∨ flags = TypeFlags.object

attribute [local simp] Form.Fits

/-- The first types are those of the start, all types fit their forms, enumeration members belong to
enumerations, and unions are flat. -/
structure State.Classified (s : State) : Prop where
  basic : ∀ t ≤ trueType, s.Has t ∧ s.flagsAt t = State.initial.flagsAt t
  fits : ∀ t, s.Has t → (s.typeInfo t).form.Fits t (s.flagsAt t)
  enums : ∀ t, s.Has t → ∀ value base, (s.typeInfo t).form = .enumLiteral value base →
    s.Has base ∧ s.flagsAt base = TypeFlags.enum
  flat : ∀ t, s.Has t → ∀ types, (s.typeInfo t).form = .union types →
    ∀ p ∈ types, s.Has p ∧ s.flagsAt p ≠ TypeFlags.union

/-- The flags of types that are not there from the start. -/
def madeFlags : List TypeFlags :=
  [TypeFlags.stringLiteral, TypeFlags.numberLiteral, TypeFlags.booleanLiteral,
    TypeFlags.enumLiteral ||| TypeFlags.numberLiteral, TypeFlags.union, TypeFlags.intersection,
    TypeFlags.object, TypeFlags.enum, TypeFlags.typeParameter]

namespace State.Classified

variable {s : State} {t : TypeId}

/-- A type that is not there from the start has the flags of one that was made. -/
theorem made (c : s.Classified) (known : s.Has t) (later : booleanType < t) : s.flagsAt t ∈ madeFlags := by
  have fits := c.fits t known
  revert fits
  cases (s.typeInfo t).form with
  | intrinsic => exact fun bound => absurd bound (Nat.not_le.mpr later)
  | literal value base => cases value <;> simp +contextual [madeFlags]
  | enum | typeParameter | interface | anonymous =>
    rintro (same | same | same) <;> simp [madeFlags, same]
  | _ => simp +contextual [madeFlags]

/-- Flags that no later type has single out types of the start. -/
theorem meetsIff (c : s.Classified) (known : s.Has t) {mask : TypeFlags} (ids : List TypeId)
    (others : ∀ f ∈ madeFlags, f.meets mask = false) (bound : ∀ t ∈ ids, t ≤ booleanType)
    (early : ∀ t ≤ booleanType, ((State.initial.flagsAt t).meets mask ↔ t ∈ ids)) :
    (s.flagsAt t).meets mask ↔ t ∈ ids := by
  by_cases first : t ≤ booleanType
  · rw [(c.basic t (first.trans (by decide))).2]
    exact early t first
  · have no : t ∉ ids := fun member => first (bound t member)
    simp [others _ (c.made known (Nat.lt_of_not_le first)), no]

theorem hasBasic (c : s.Classified) (early : t ≤ trueType) : s.Has t := (c.basic t early).1

end State.Classified

/-- The types beside which `t` adds nothing to a union. -/
def State.absorbers (s : State) (t : TypeId) : List TypeId :=
  match (s.typeInfo t).form with
  | .literal _ base => [base]
  | .enumLiteral _ base => [numberType, base]
  | _ => []

theorem meetsOr (f g mask : TypeFlags) : (f ||| g).meets mask = (f.meets mask || g.meets mask) := by
  simp only [TypeFlags.meets, Nat.and_or_distrib_right]
  by_cases first : f &&& mask = 0 <;> simp [first]

theorem meetsMaskOr (f a b : TypeFlags) : f.meets (a ||| b) = (f.meets a || f.meets b) := by
  simp only [TypeFlags.meets, Nat.and_or_distrib_left]
  by_cases first : f &&& a = 0 <;> simp [first]

/-- Some types have a flag together if one of them has it. -/
theorem flagsOfMeets (s : State) (types : List TypeId) (mask : TypeFlags) :
    (s.flagsOf types).meets mask ↔ ∃ t ∈ types, (s.flagsAt t).meets mask := by
  suffices all : ∀ f : TypeFlags, (types.foldl (fun f t => f ||| (s.typeInfo t).flags) f).meets mask ↔
      f.meets mask ∨ ∃ t ∈ types, (s.flagsAt t).meets mask by
    have none_ : TypeFlags.meets 0 mask = false := by simp [TypeFlags.meets]
    simpa [State.flagsOf, none_] using all 0
  induction types with
  | nil => simp
  | cons t rest ih =>
    intro f
    rw [List.foldl_cons, ih, meetsOr]
    simp [State.flagsAt, or_assoc]

section Remains

variable {s : State} {all A B R : List TypeId} {t a : TypeId}

/-- The part stays beside the others: it is not empty, and nothing absorbs it. -/
def State.Kept (s : State) (all : List TypeId) (t : TypeId) : Prop :=
  t ∈ all ∧ t ≠ neverType ∧ ∀ a ∈ s.absorbers t, a ∉ all

/-- Both truth values are there, and not yet as one type. -/
def Joins (all : List TypeId) : Prop := trueType ∈ all ∧ falseType ∈ all ∧ booleanType ∉ all

/-- The part is in the union of the parts `all`. -/
def State.Remains (s : State) (all : List TypeId) (t : TypeId) : Prop :=
  (s.Kept all t ∧ ¬ (Joins all ∧ (t = trueType ∨ t = falseType))) ∨ (Joins all ∧ t = booleanType)

namespace State.Classified

/-- Only literals and enumeration members are absorbed. -/
theorem absorbersNil (c : s.Classified) (known : s.Has t)
    (plain : (s.flagsAt t).meets (TypeFlags.literal ||| TypeFlags.enumLiteral) = false) : s.absorbers t = [] := by
  have fits := c.fits t known
  unfold absorbers
  cases form : (s.typeInfo t).form with
  | literal value base =>
    rw [form] at fits
    have flags : s.flagsAt t ∈ [TypeFlags.stringLiteral, TypeFlags.numberLiteral, TypeFlags.booleanLiteral] := by
      cases value with
      | text => simp [fits.1]
      | number => simp [fits.1]
      | bool => simp [fits.2.1]
    have meets : ∀ f ∈ [TypeFlags.stringLiteral, TypeFlags.numberLiteral, TypeFlags.booleanLiteral],
        f.meets (TypeFlags.literal ||| TypeFlags.enumLiteral) = true := by decide
    exact absurd (meets _ flags) (by simp [plain])
  | enumLiteral value base =>
    rw [form, Form.Fits] at fits
    rw [fits] at plain
    exact absurd plain (by decide)
  | _ => rfl

/-- What absorbs is a basic type or an enumeration. -/
theorem absorberCases (c : s.Classified) (known : s.Has t) (member : a ∈ s.absorbers t) :
    a = stringType ∨ a = numberType ∨ (a = booleanType ∧ (t = trueType ∨ t = falseType)) ∨
      (s.Has a ∧ s.flagsAt a = TypeFlags.enum) := by
  have fits := c.fits t known
  unfold absorbers at member
  cases form : (s.typeInfo t).form with
  | literal value base =>
    rw [form] at fits member
    cases List.mem_singleton.mp member
    cases value with
    | text => exact .inl fits.2
    | number => exact .inr (.inl fits.2)
    | bool b =>
      refine .inr (.inr (.inl ⟨fits.2.2, ?_⟩))
      rw [fits.1]
      cases b <;> simp [boolLiteral]
  | enumLiteral value base =>
    rw [form] at member
    rcases List.mem_cons.mp member with first | second
    · exact .inr (.inl first)
    · have enum := c.enums t known value base form
      rw [← List.mem_singleton.mp second] at enum
      exact .inr (.inr (.inr enum))
  | _ => simp [form] at member

/-- What absorbs is not absorbed itself. -/
theorem absorberKept (c : s.Classified) (known : s.Has t) (member : a ∈ s.absorbers t) :
    s.absorbers a = [] ∧ a ≠ neverType ∧ a ≠ trueType ∧ a ≠ falseType := by
  -- The four types that are told apart here are known by their flags.
  have apart (has : s.Has a) (flags : s.flagsAt a ∈ [TypeFlags.string, TypeFlags.number, TypeFlags.boolean, TypeFlags.enum]) :
      s.absorbers a = [] ∧ a ≠ neverType ∧ a ≠ trueType ∧ a ≠ falseType := by
    have other {b : TypeId} (early : b ≤ trueType)
        (differ : State.initial.flagsAt b ∉ [TypeFlags.string, TypeFlags.number, TypeFlags.boolean, TypeFlags.enum]) :
        a ≠ b := by
      rintro rfl
      exact differ ((c.basic a early).2 ▸ flags)
    have plain : ∀ f ∈ [TypeFlags.string, TypeFlags.number, TypeFlags.boolean, TypeFlags.enum],
        f.meets (TypeFlags.literal ||| TypeFlags.enumLiteral) = false := by decide
    exact ⟨c.absorbersNil has (plain _ flags), other (by decide) (by decide), other (by decide) (by decide),
      other (by decide) (by decide)⟩
  rcases c.absorberCases known member with rfl | rfl | ⟨rfl, _⟩ | ⟨has, enum⟩
  · exact apart (c.hasBasic (by decide)) (by rw [(c.basic stringType (by decide)).2]; decide)
  · exact apart (c.hasBasic (by decide)) (by rw [(c.basic numberType (by decide)).2]; decide)
  · exact apart (c.hasBasic (by decide)) (by rw [(c.basic booleanType (by decide)).2]; decide)
  · exact apart has (by simp [enum])

/-- The truth values are absorbed by their type, and by nothing else. -/
theorem absorbersBool (c : s.Classified) (is : t = trueType ∨ t = falseType) : s.absorbers t = [booleanType] := by
  have early : t ≤ trueType := by rcases is with rfl | rfl <;> decide
  have flags : s.flagsAt t = TypeFlags.booleanLiteral := by
    rw [(c.basic t early).2]
    rcases is with rfl | rfl <;> rfl
  have fits := c.fits t (c.hasBasic early)
  unfold absorbers
  rw [flags] at fits
  cases form : (s.typeInfo t).form with
  | literal value base =>
    rw [form] at fits
    cases value with
    | text => exact absurd fits.1 (by decide)
    | number => exact absurd fits.1 (by decide)
    | bool => simp [fits.2.2]
  | intrinsic =>
    rw [form, Form.Fits] at fits
    rcases is with rfl | rfl <;> exact absurd fits (by decide)
  | enum | typeParameter | interface | anonymous =>
    rw [form] at fits
    rcases fits with flags | flags | flags <;> exact absurd flags (by decide)
  | _ =>
    rw [form, Form.Fits] at fits
    exact absurd fits (by decide)

theorem absorbersBoolean (c : s.Classified) : s.absorbers booleanType = [] :=
  c.absorbersNil (c.hasBasic (by decide)) (by rw [(c.basic booleanType (by decide)).2]; decide)

theorem remainsBoolean (c : s.Classified) :
    s.Remains all booleanType ↔ booleanType ∈ all ∨ (trueType ∈ all ∧ falseType ∈ all) := by
  have other : booleanType ≠ trueType ∧ booleanType ≠ falseType ∧ booleanType ≠ neverType := by decide
  simp only [Remains, Kept, Joins, c.absorbersBoolean]
  simp only [other.1, other.2.1, List.not_mem_nil]
  tauto

theorem remainsTrue (c : s.Classified) :
    s.Remains all trueType ↔ trueType ∈ all ∧ falseType ∉ all ∧ booleanType ∉ all := by
  have other : trueType ≠ neverType ∧ trueType ≠ booleanType := by decide
  simp only [Remains, Kept, Joins, c.absorbersBool (.inl rfl), List.mem_singleton, forall_eq, other]
  tauto

theorem remainsFalse (c : s.Classified) :
    s.Remains all falseType ↔ falseType ∈ all ∧ trueType ∉ all ∧ booleanType ∉ all := by
  have other : falseType ≠ neverType ∧ falseType ≠ booleanType := by decide
  simp only [Remains, Kept, Joins, c.absorbersBool (.inr rfl), List.mem_singleton, forall_eq, other]
  tauto

theorem remainsOther (noTrue : t ≠ trueType) (noFalse : t ≠ falseType) (noBoolean : t ≠ booleanType) :
    s.Remains all t ↔ s.Kept all t := by
  simp [Remains, noTrue, noFalse, noBoolean]

/-- Parts that remain of `A` stand for `A` beside any other parts. -/
theorem remainsAppend (c : s.Classified) (knownA : ∀ t ∈ A, s.Has t) (knownB : ∀ t ∈ B, s.Has t)
    (agrees : ∀ t, t ≠ neverType → (t ∈ R ↔ s.Remains A t)) (t : TypeId) :
    s.Remains (R ++ B) t ↔ s.Remains (A ++ B) t := by
  have isTrue := (agrees trueType (by decide)).trans c.remainsTrue
  have isFalse := (agrees falseType (by decide)).trans c.remainsFalse
  have isBoolean := (agrees booleanType (by decide)).trans c.remainsBoolean
  by_cases eqTrue : t = trueType
  · subst eqTrue
    simp only [c.remainsTrue, List.mem_append, isTrue, isFalse, isBoolean]
    grind
  by_cases eqFalse : t = falseType
  · subst eqFalse
    simp only [c.remainsFalse, List.mem_append, isTrue, isFalse, isBoolean]
    grind
  by_cases eqBoolean : t = booleanType
  · subst eqBoolean
    simp only [c.remainsBoolean, List.mem_append, isTrue, isFalse, isBoolean]
    grind
  rw [remainsOther eqTrue eqFalse eqBoolean, remainsOther eqTrue eqFalse eqBoolean]
  by_cases eqNever : t = neverType
  · simp [Kept, eqNever]
  have isPart := (agrees t eqNever).trans (remainsOther eqTrue eqFalse eqBoolean)
  -- An absorber of `t` is among what remains exactly if it is in `A`.
  have absorber (known : s.Has t) (a : TypeId) (member : a ∈ s.absorbers t) : a ∈ R ↔ a ∈ A := by
    obtain ⟨none_, noNever, noTrue, noFalse⟩ := c.absorberKept known member
    have noBoolean : a ≠ booleanType := by
      rintro rfl
      rcases c.absorberCases known member with eq | eq | ⟨_, eq⟩ | ⟨_, eq⟩
      · exact absurd eq (by decide)
      · exact absurd eq (by decide)
      · exact eq.elim eqTrue eqFalse
      · rw [(c.basic booleanType (by decide)).2] at eq
        exact absurd eq (by decide)
    rw [agrees a noNever, remainsOther noTrue noFalse noBoolean]
    simp [Kept, noNever, none_]
  constructor
  · rintro ⟨member, _, free⟩
    have inA : t ∈ A ∨ t ∈ B := (List.mem_append.mp member).imp (fun m => (isPart.mp m).1) id
    have known : s.Has t := inA.elim (knownA t) (knownB t)
    refine ⟨List.mem_append.mpr inA, eqNever, fun a is => ?_⟩
    simpa [absorber known a is] using free a is
  · rintro ⟨member, _, free⟩
    have inA := List.mem_append.mp member
    have known : s.Has t := inA.elim (knownA t) (knownB t)
    refine ⟨List.mem_append.mpr (inA.imp_left fun m => isPart.mpr ⟨m, eqNever, fun a is there => ?_⟩), eqNever, ?_⟩
    · exact free a is (List.mem_append_left _ there)
    · intro a is
      simpa [absorber known a is] using free a is

/-- Flags of the start are there if their types are. -/
theorem includesIff (c : s.Classified) (known : ∀ t ∈ all, s.Has t) {mask : TypeFlags} (ids : List TypeId)
    (others : ∀ f ∈ madeFlags, f.meets mask = false) (bound : ∀ t ∈ ids, t ≤ booleanType)
    (early : ∀ t ≤ booleanType, ((State.initial.flagsAt t).meets mask ↔ t ∈ ids)) :
    (s.flagsOf all).meets mask ↔ ∃ t ∈ ids, t ∈ all := by
  rw [flagsOfMeets]
  constructor
  · rintro ⟨t, member, meets⟩
    exact ⟨t, (c.meetsIff (known t member) ids others bound early).mp meets, member⟩
  · rintro ⟨t, is, member⟩
    exact ⟨t, member, (c.meetsIff (known t member) ids others bound early).mpr is⟩

theorem includesString (c : s.Classified) (known : ∀ t ∈ all, s.Has t) :
    (s.flagsOf all).meets TypeFlags.string ↔ stringType ∈ all := by
  simpa using c.includesIff known [stringType] (by decide) (by decide) (by decide)

theorem includesNumber (c : s.Classified) (known : ∀ t ∈ all, s.Has t) :
    (s.flagsOf all).meets TypeFlags.number ↔ numberType ∈ all := by
  simpa using c.includesIff known [numberType] (by decide) (by decide) (by decide)

theorem includesBoolean (c : s.Classified) (known : ∀ t ∈ all, s.Has t) :
    (s.flagsOf all).meets TypeFlags.boolean ↔ booleanType ∈ all := by
  simpa using c.includesIff known [booleanType] (by decide) (by decide) (by decide)

theorem includesUnknown (c : s.Classified) (known : ∀ t ∈ all, s.Has t) :
    (s.flagsOf all).meets TypeFlags.unknown ↔ unknownType ∈ all := by
  simpa using c.includesIff known [unknownType] (by decide) (by decide) (by decide)

theorem includesAny (c : s.Classified) (known : ∀ t ∈ all, s.Has t) :
    (s.flagsOf all).meets TypeFlags.any ↔ anyType ∈ all ∨ errorType ∈ all := by
  simpa using c.includesIff known [anyType, errorType] (by decide) (by decide) (by decide)

theorem isNever (c : s.Classified) (known : s.Has t) : (s.flagsAt t).meets TypeFlags.never ↔ t = neverType := by
  simpa using c.meetsIff known [neverType] (by decide) (by decide) (by decide)

/-- A type that nothing absorbs has no flag of literals or enumeration members. -/
theorem plainFlags (c : s.Classified) (has : s.Has t) (plain : s.absorbers t = []) :
    (s.flagsAt t).meets (TypeFlags.literal ||| TypeFlags.enumLiteral) = false := by
  have fits := c.fits t has
  unfold absorbers at plain
  cases form : (s.typeInfo t).form with
  | literal | enumLiteral => simp [form] at plain
  | intrinsic =>
    rw [form, Form.Fits] at fits
    have all : ∀ t ≤ booleanType,
        (State.initial.flagsAt t).meets (TypeFlags.literal ||| TypeFlags.enumLiteral) = false := by decide
    rw [(c.basic t (fits.trans (by decide))).2]
    exact all t fits
  | enum | typeParameter | interface | anonymous =>
    rw [form] at fits
    rcases fits with flags | flags | flags <;> rw [flags] <;> decide
  | _ =>
    rw [form, Form.Fits] at fits
    rw [fits]
    decide

/-- A part is absorbed if it is empty or one of its absorbers is there. -/
theorem absorbedIff (c : s.Classified) (known : ∀ t ∈ all, s.Has t) (has : s.Has t) :
    s.isAbsorbed all t ↔ t = neverType ∨ ∃ a ∈ s.absorbers t, a ∈ all := by
  have fits := c.fits t has
  have never := c.isNever has
  simp only [isAbsorbed, Bool.or_eq_true, Bool.and_eq_true, c.includesString known, c.includesNumber known,
    c.includesBoolean known]
  simp only [flagsAt] at fits never
  rw [never]
  cases form : (s.typeInfo t).form with
  | literal value base =>
    have absorbers : s.absorbers t = [base] := by simp [State.absorbers, form]
    rw [form] at fits
    cases value with
    | text =>
      obtain ⟨flags, rfl⟩ := fits
      simp [absorbers, flags, TypeFlags.meets, TypeFlags.stringLiteral, TypeFlags.numberLiteral, TypeFlags.booleanLiteral,
        TypeFlags.enumLiteral]
    | number =>
      obtain ⟨flags, rfl⟩ := fits
      simp [absorbers, flags, TypeFlags.meets, TypeFlags.stringLiteral, TypeFlags.numberLiteral, TypeFlags.booleanLiteral,
        TypeFlags.enumLiteral]
    | bool =>
      obtain ⟨_, flags, rfl⟩ := fits
      simp [absorbers, flags, TypeFlags.meets, TypeFlags.stringLiteral, TypeFlags.numberLiteral, TypeFlags.booleanLiteral,
        TypeFlags.enumLiteral]
  | enumLiteral value base =>
    have absorbers : s.absorbers t = [numberType, base] := by simp [State.absorbers, form]
    rw [form, Form.Fits] at fits
    simp [absorbers, baseOf?, form, fits, TypeFlags.meets, TypeFlags.stringLiteral, TypeFlags.numberLiteral,
      TypeFlags.booleanLiteral, TypeFlags.enumLiteral, or_assoc]
  | _ =>
    have absorbers : s.absorbers t = [] := by simp [State.absorbers, form]
    have plain := c.plainFlags has absorbers
    simp only [TypeFlags.literal, meetsMaskOr, Bool.or_eq_false_iff, flagsAt] at plain
    simp [plain, absorbers]

end State.Classified

/-- What a list of parts comes to, before it is put in order. -/
def State.remaining (s : State) (all : List TypeId) : List TypeId :=
  joinBooleans (all.filter (!s.isAbsorbed all ·))

theorem memDistinct (ids : List Nat) (t : Nat) : t ∈ distinct ids ↔ t ∈ ids := by
  suffices all : ∀ seen : List Nat,
      t ∈ ids.foldl (fun seen id => if seen.contains id then seen else seen ++ [id]) seen ↔ t ∈ seen ∨ t ∈ ids by
    simpa [distinct] using all []
  induction ids with
  | nil => simp
  | cons id rest ih =>
    intro seen
    rw [List.foldl_cons, ih]
    split
    · next there =>
      have there : id ∈ seen := by simpa using there
      rw [List.mem_cons]
      grind
    · simp [or_assoc]

theorem distinctNodup (ids : List Nat) : (distinct ids).Nodup := by
  suffices all : ∀ seen : List Nat, seen.Nodup →
      (ids.foldl (fun seen id => if seen.contains id then seen else seen ++ [id]) seen).Nodup by
    exact all [] List.nodup_nil
  induction ids with
  | nil => exact fun seen fine => fine
  | cons id rest ih =>
    intro seen fine
    rw [List.foldl_cons]
    refine ih _ ?_
    split
    · exact fine
    · next new => exact fine.append (List.nodup_singleton id) (by simpa using new)

namespace State.Classified

theorem memKept (c : s.Classified) (known : ∀ t ∈ all, s.Has t) :
    t ∈ all.filter (!s.isAbsorbed all ·) ↔ s.Kept all t := by
  rw [List.mem_filter]
  constructor
  · rintro ⟨member, stays⟩
    have free : ¬ s.isAbsorbed all t := by simpa using stays
    rw [c.absorbedIff known (known t member)] at free
    exact ⟨member, fun is => free (.inl is), fun a is there => free (.inr ⟨a, is, there⟩)⟩
  · rintro ⟨member, notNever, free⟩
    have no : ¬ s.isAbsorbed all t := by
      rw [c.absorbedIff known (known t member)]
      rintro (is | ⟨a, is, there⟩)
      · exact notNever is
      · exact free a is there
    exact ⟨member, by simpa using no⟩

/-- Whether the truth values are joined. -/
theorem joinsIff (c : s.Classified) (known : ∀ t ∈ all, s.Has t) :
    (trueType ∈ all.filter (!s.isAbsorbed all ·) ∧ falseType ∈ all.filter (!s.isAbsorbed all ·)) ↔ Joins all := by
  have other : trueType ≠ neverType ∧ falseType ≠ neverType := by decide
  simp only [c.memKept known, Kept, Joins, c.absorbersBool (.inl rfl), c.absorbersBool (.inr rfl),
    List.mem_singleton, forall_eq]
  tauto

theorem memRemaining (c : s.Classified) (known : ∀ t ∈ all, s.Has t) : t ∈ s.remaining all ↔ s.Remains all t := by
  have joins := c.joinsIff known
  unfold remaining joinBooleans Remains
  by_cases both : Joins all
  · rw [if_pos (by simpa using joins.mpr both)]
    simp only [List.mem_append, List.mem_singleton, both, true_and, ← c.memKept known]
    rw [List.mem_filter (p := fun t => t ≠ trueType && t ≠ falseType)]
    simp [not_or]
  · rw [if_neg (by simpa using mt joins.mp both)]
    simp [both, c.memKept known]

theorem remainingNodup (c : s.Classified) (known : ∀ t ∈ all, s.Has t) (nodup : all.Nodup) :
    (s.remaining all).Nodup := by
  have kept := nodup.filter (!s.isAbsorbed all ·)
  unfold remaining joinBooleans
  split
  · next both =>
    have both := (c.joinsIff known).mp (by simpa using both)
    refine (kept.filter _).append (List.nodup_singleton _) ?_
    simp only [List.disjoint_singleton]
    exact fun member => both.2.2 (List.mem_of_mem_filter (List.mem_of_mem_filter member))
  · exact kept

end State.Classified

/-- The shape of a union whose parts have been worked out. -/
def shapeOf (types : List TypeId) : UnionShape :=
  match types with
  | [] => .single neverType
  | [t] => .single t
  | ts => .several (ts.mergeSort (· ≤ ·))

theorem shapeOfPerm {xs ys : List TypeId} (perm : xs.Perm ys) : shapeOf xs = shapeOf ys := by
  match xs, ys, perm.length_eq with
  | [], [], _ => rfl
  | [x], [y], _ => rw [List.singleton_perm_singleton.mp perm]
  | x :: x' :: xs, y :: y' :: ys, _ =>
    have same : (x :: x' :: xs).mergeSort (· ≤ ·) = (y :: y' :: ys).mergeSort (· ≤ ·) :=
      ((List.mergeSort_perm _ _).trans (perm.trans (List.mergeSort_perm _ _).symm)).eq_of_pairwise'
        (List.pairwise_mergeSort' (· ≤ ·) _) (List.pairwise_mergeSort' (· ≤ ·) _)
    unfold shapeOf
    simp only [same]

theorem unionShapeEq (s : State) (types : List TypeId) : s.unionShape types =
    let all := distinct (types.flatMap s.parts)
    if (s.flagsOf all).meets TypeFlags.any then .single (if all.contains errorType then errorType else anyType)
    else if (s.flagsOf all).meets TypeFlags.unknown then .single unknownType
    else shapeOf (s.remaining all) := by
  unfold State.unionShape shapeOf State.remaining
  rfl

end Remains

/-- The parts of a shape. -/
def UnionShape.parts : UnionShape → List TypeId
  | .single t => [t]
  | .several types => types

/-- The parts of a union: at least two, in order, none of them a union or a type that takes in or adds
nothing, and none beside another one that absorbs it. -/
structure State.Canonical (s : State) (types : List TypeId) : Prop where
  several : 2 ≤ types.length
  increasing : types.Pairwise (· < ·)
  known : ∀ t ∈ types, s.Has t
  proper : ∀ t ∈ types, (s.flagsAt t).meets
    (TypeFlags.union ||| TypeFlags.any ||| TypeFlags.unknown ||| TypeFlags.never) = false
  /-- No literal stands beside its basic type, and no enumeration member beside its enumeration. -/
  literals : ∀ t ∈ types, ∀ base, s.baseOf? t = some base → base ∉ types
  /-- No enumeration member stands beside the type of numbers either. -/
  numbers : ∀ t ∈ types, (s.flagsAt t).meets TypeFlags.numberLiteral → numberType ∉ types
  booleans : ¬ (trueType ∈ types ∧ falseType ∈ types)

namespace State.Classified

variable {s : State} {xs ys types : List TypeId} {t u : TypeId}

theorem unionOfFlags (c : s.Classified) (has : s.Has t) (flags : s.flagsAt t = TypeFlags.union) :
    ∃ types, (s.typeInfo t).form = .union types := by
  have fits := c.fits t has
  cases form : (s.typeInfo t).form with
  | union types => exact ⟨types, rfl⟩
  | intrinsic =>
    rw [form, Form.Fits] at fits
    have all : ∀ t ≤ booleanType, State.initial.flagsAt t ≠ TypeFlags.union := by decide
    rw [(c.basic t (fits.trans (by decide))).2] at flags
    exact absurd flags (all t fits)
  | literal value base =>
    rw [form, flags] at fits
    cases value with
    | text | number => exact absurd fits.1 (by decide)
    | bool => exact absurd fits.2.1 (by decide)
  | enum | typeParameter | interface | anonymous =>
    rw [form, flags] at fits
    rcases fits with wrong | wrong | wrong <;> exact absurd wrong (by decide)
  | _ =>
    rw [form, flags, Form.Fits] at fits
    exact absurd fits (by decide)

theorem hasParts (c : s.Classified) (has : s.Has t) : ∀ p ∈ s.parts t, s.Has p ∧ s.flagsAt p ≠ TypeFlags.union := by
  intro p member
  unfold parts at member
  split at member
  · next types form => exact c.flat t has types form p member
  · next other =>
    cases List.mem_singleton.mp member
    refine ⟨has, fun flags => ?_⟩
    obtain ⟨types, form⟩ := c.unionOfFlags has flags
    exact other types form

theorem hasFlat (c : s.Classified) (known : ∀ t ∈ xs, s.Has t) : ∀ p ∈ xs.flatMap s.parts, s.Has p := by
  intro p member
  obtain ⟨t, is, part⟩ := List.mem_flatMap.mp member
  exact (c.hasParts (known t is) p part).1

/-- A type without the flag of unions is its only part. -/
theorem partsSelf (c : s.Classified) (has : s.Has t) (flat : s.flagsAt t ≠ TypeFlags.union) : s.parts t = [t] := by
  unfold parts
  split
  · next types form =>
    have fits := c.fits t has
    rw [form] at fits
    exact absurd fits flat
  · rfl

theorem remainsCongr {A B : List TypeId} (same : ∀ t, t ∈ A ↔ t ∈ B) (t : TypeId) :
    s.Remains A t ↔ s.Remains B t := by
  simp only [Remains, Kept, Joins, same]

/-- The shape of a union, by what is among its parts. -/
theorem shapeCases (c : s.Classified) (known : ∀ t ∈ xs, s.Has t) :
    ((anyType ∈ xs.flatMap s.parts ∨ errorType ∈ xs.flatMap s.parts) ∧
      s.unionShape xs = .single (if errorType ∈ xs.flatMap s.parts then errorType else anyType)) ∨
    (¬ (anyType ∈ xs.flatMap s.parts ∨ errorType ∈ xs.flatMap s.parts) ∧ unknownType ∈ xs.flatMap s.parts ∧
      s.unionShape xs = .single unknownType) ∨
    (¬ (anyType ∈ xs.flatMap s.parts ∨ errorType ∈ xs.flatMap s.parts) ∧ unknownType ∉ xs.flatMap s.parts ∧
      ∃ all : List TypeId, all.Nodup ∧ (∀ t, t ∈ all ↔ s.Remains (xs.flatMap s.parts) t) ∧
        s.unionShape xs = shapeOf all) := by
  have member (t : TypeId) := memDistinct (xs.flatMap s.parts) t
  have known' : ∀ t ∈ distinct (xs.flatMap s.parts), s.Has t := fun t is => c.hasFlat known t ((member t).mp is)
  rw [unionShapeEq]
  simp only [c.includesAny known', c.includesUnknown known', List.contains_iff_mem, member]
  by_cases any : anyType ∈ xs.flatMap s.parts ∨ errorType ∈ xs.flatMap s.parts
  · exact .inl ⟨any, by rw [if_pos any]⟩
  by_cases unknown : unknownType ∈ xs.flatMap s.parts
  · exact .inr (.inl ⟨any, unknown, by rw [if_neg any, if_pos unknown]⟩)
  · refine .inr (.inr ⟨any, unknown, _, c.remainingNodup known' (distinctNodup _), fun t => ?_, ?_⟩)
    · rw [c.memRemaining known', remainsCongr member]
    · rw [if_neg any, if_neg unknown]

/-- Unions of the same parts have the same shape. What else is there plays no part beside a type that
takes everything in, and otherwise only what remains counts. -/
theorem shapeAlike (c : s.Classified) (knownX : ∀ t ∈ xs, s.Has t) (knownY : ∀ t ∈ ys, s.Has t)
    (any : (anyType ∈ xs.flatMap s.parts ∨ errorType ∈ xs.flatMap s.parts) ↔
      (anyType ∈ ys.flatMap s.parts ∨ errorType ∈ ys.flatMap s.parts))
    (error : errorType ∈ xs.flatMap s.parts ↔ errorType ∈ ys.flatMap s.parts)
    (unknown : ¬ (anyType ∈ xs.flatMap s.parts ∨ errorType ∈ xs.flatMap s.parts) →
      (unknownType ∈ xs.flatMap s.parts ↔ unknownType ∈ ys.flatMap s.parts))
    (remains : ¬ (anyType ∈ xs.flatMap s.parts ∨ errorType ∈ xs.flatMap s.parts) →
      unknownType ∉ xs.flatMap s.parts →
      ∀ t, s.Remains (xs.flatMap s.parts) t ↔ s.Remains (ys.flatMap s.parts) t) :
    s.unionShape xs = s.unionShape ys := by
  rcases c.shapeCases knownX with ⟨isX, shapeX⟩ | ⟨noX, isX, shapeX⟩ | ⟨noX, noX', allX, nodupX, memX, shapeX⟩ <;>
    rcases c.shapeCases knownY with ⟨isY, shapeY⟩ | ⟨noY, isY, shapeY⟩ | ⟨noY, noY', allY, nodupY, memY, shapeY⟩
  case inl.inl => simp only [shapeX, shapeY, error]
  case inr.inl.inr.inl => rw [shapeX, shapeY]
  case inr.inr.inr.inr =>
    rw [shapeX, shapeY]
    refine shapeOfPerm ((List.perm_ext_iff_of_nodup nodupX nodupY).mpr fun t => ?_)
    rw [memX, memY, remains noX noX']
  all_goals first
    | exact absurd (any.mp isX) noY
    | exact absurd (any.mpr isY) noX
    | exact absurd ((unknown noX).mp isX) noY'
    | exact absurd ((unknown noX).mpr isY) noX'

/-- What remains of some parts is what the shape of their union has. -/
theorem memShapeOf {all : List TypeId} (other : t ≠ neverType) : t ∈ (shapeOf all).parts ↔ t ∈ all := by
  unfold shapeOf
  split
  · simp [UnionShape.parts, other]
  · rfl
  · simp [UnionShape.parts]

/-- A union of some types and a union of it with others come to the same as one union of all. -/
theorem shapeAppend (c : s.Classified) (knownX : ∀ t ∈ xs, s.Has t) (knownY : ∀ t ∈ ys, s.Has t) (has : s.Has u)
    (is : s.parts u = (s.unionShape xs).parts) : s.unionShape (u :: ys) = s.unionShape (xs ++ ys) := by
  have knownU : ∀ t ∈ u :: ys, s.Has t := by simpa using ⟨has, knownY⟩
  have knownXY : ∀ t ∈ xs ++ ys, s.Has t := by
    intro t member
    exact (List.mem_append.mp member).elim (knownX t) (knownY t)
  have flatU : (u :: ys).flatMap s.parts = (s.unionShape xs).parts ++ ys.flatMap s.parts := by simp [is]
  have flatXY : (xs ++ ys).flatMap s.parts = xs.flatMap s.parts ++ ys.flatMap s.parts := List.flatMap_append
  rcases c.shapeCases knownX with ⟨any, shape⟩ | ⟨noAny, unknown, shape⟩ | ⟨noAny, noUnknown, all, _, mem, shape⟩
  · have error : errorType ∈ (s.unionShape xs).parts ↔ errorType ∈ xs.flatMap s.parts := by
      rw [shape]
      split
      · next there => simp [UnionShape.parts, there]
      · next gone =>
        have other : errorType ≠ anyType := by decide
        simp [UnionShape.parts, gone, other]
    have still : anyType ∈ (s.unionShape xs).parts ∨ errorType ∈ (s.unionShape xs).parts := by
      rw [shape]
      split <;> simp [UnionShape.parts]
    refine c.shapeAlike knownU knownXY ?_ ?_ ?_ ?_ <;> rw [flatU]
    · rw [flatXY]
      simp only [List.mem_append]
      tauto
    · rw [flatXY, List.mem_append, List.mem_append, error]
    all_goals
      intro no
      exact absurd (still.imp (List.mem_append_left _) (List.mem_append_left _)) no
  · have parts : (s.unionShape xs).parts = [unknownType] := by rw [shape]; rfl
    have other : anyType ≠ unknownType ∧ errorType ≠ unknownType := by decide
    refine c.shapeAlike knownU knownXY ?_ ?_ ?_ ?_ <;> rw [flatU, parts]
    · rw [flatXY]
      simp only [List.mem_append, List.mem_singleton, other]
      tauto
    · rw [flatXY]
      simp only [List.mem_append, List.mem_singleton, other]
      tauto
    · intro _
      simp [flatXY, unknown]
    · exact fun _ no => absurd (by simp) no
  · have agrees (t : TypeId) (notNever : t ≠ neverType) :
        t ∈ (s.unionShape xs).parts ↔ s.Remains (xs.flatMap s.parts) t := by
      rw [shape, memShapeOf notNever, mem]
    -- A part of the start that is not the type of truth values is there only if it was.
    have basic (t : TypeId) (notNever : t ≠ neverType) (notBoolean : t ≠ booleanType)
        (gone : t ∉ xs.flatMap s.parts) : t ∉ (s.unionShape xs).parts := by
      rw [agrees t notNever]
      rintro (⟨kept, _⟩ | ⟨_, wrong⟩)
      · exact gone kept.1
      · exact notBoolean wrong
    have noAny' := basic anyType (by decide) (by decide) fun there => noAny (.inl there)
    have noError' := basic errorType (by decide) (by decide) fun there => noAny (.inr there)
    have noUnknown' := basic unknownType (by decide) (by decide) noUnknown
    rw [not_or] at noAny
    refine c.shapeAlike knownU knownXY ?_ ?_ ?_ ?_ <;> rw [flatU, flatXY]
    · simp [noAny', noError', noAny]
    · simp [noError', noAny]
    · intro _
      simp [noUnknown', noUnknown]
    · intro _ _ t
      exact c.remainsAppend (c.hasFlat knownX) (c.hasFlat knownY) agrees t

/-- A union that comes to a single type comes to one that is no union. -/
theorem shapeSingle (c : s.Classified) (known : ∀ t ∈ xs, s.Has t) (is : s.unionShape xs = .single t) :
    s.Has t ∧ s.flagsAt t ≠ TypeFlags.union := by
  have basic {b : TypeId} (early : b ≤ trueType) (flat : State.initial.flagsAt b ≠ TypeFlags.union) :
      s.Has b ∧ s.flagsAt b ≠ TypeFlags.union := by
    obtain ⟨has, flags⟩ := c.basic b early
    exact ⟨has, flags ▸ flat⟩
  rcases c.shapeCases known with ⟨_, shape⟩ | ⟨_, _, shape⟩ | ⟨_, _, all, _, mem, shape⟩ <;> rw [shape] at is
  · cases is
    split
    · exact basic (by decide) (by decide)
    · exact basic (by decide) (by decide)
  · cases is
    exact basic (by decide) (by decide)
  · match all, is with
    | [], is =>
      cases is
      exact basic (by decide) (by decide)
    | [t], is =>
      cases is
      rcases (mem t).mp (List.mem_singleton_self t) with ⟨kept, _⟩ | ⟨_, rfl⟩
      · obtain ⟨x, isX, part⟩ := List.mem_flatMap.mp kept.1
        exact c.hasParts (known x isX) t part
      · exact basic (by decide) (by decide)

/-- What absorbs a part that remains does not remain. -/
theorem remainsApart (c : s.Classified) (has : s.Has t) {all : List TypeId} (remains : s.Remains all t) {a : TypeId}
    (absorbs : a ∈ s.absorbers t) : ¬ s.Remains all a := by
  intro both
  by_cases truth : t = trueType ∨ t = falseType
  · rw [c.absorbersBool truth, List.mem_singleton] at absorbs
    subst absorbs
    rw [c.remainsBoolean] at both
    rcases truth with rfl | rfl
    · rw [c.remainsTrue] at remains
      tauto
    · rw [c.remainsFalse] at remains
      tauto
  · have kept : s.Kept all t := by
      rcases remains with ⟨kept, _⟩ | ⟨_, rfl⟩
      · exact kept
      · simp [c.absorbersBoolean] at absorbs
    rcases both with ⟨there, _⟩ | ⟨_, rfl⟩
    · exact kept.2.2 a absorbs there.1
    · rcases c.absorberCases has absorbs with wrong | wrong | ⟨_, wrong⟩ | ⟨_, wrong⟩
      · exact absurd wrong (by decide)
      · exact absurd wrong (by decide)
      · exact truth wrong
      · rw [(c.basic booleanType (by decide)).2] at wrong
        exact absurd wrong (by decide)

theorem baseAbsorbs (s : State) {base : TypeId} (is : s.baseOf? t = some base) : base ∈ s.absorbers t := by
  unfold baseOf? at is
  unfold absorbers
  split at is <;> simp_all

theorem numberAbsorbs (c : s.Classified) (has : s.Has t) (is : (s.flagsAt t).meets TypeFlags.numberLiteral) :
    numberType ∈ s.absorbers t := by
  have fits := c.fits t has
  cases form : (s.typeInfo t).form with
  | literal value base =>
    rw [form] at fits
    cases value with
    | text =>
      rw [fits.1] at is
      exact absurd is (by decide)
    | number => simp [absorbers, form, fits.2]
    | bool =>
      rw [fits.2.1] at is
      exact absurd is (by decide)
  | enumLiteral => simp [absorbers, form]
  | _ =>
    have plain := c.plainFlags has (by simp [absorbers, form])
    simp [TypeFlags.literal, meetsMaskOr, is] at plain

/-- A part that no union, and no type that takes in or adds nothing, is. -/
theorem properFlags (c : s.Classified) (has : s.Has t) (flat : s.flagsAt t ≠ TypeFlags.union)
    (other : t ∉ [anyType, errorType, unknownType, neverType]) : (s.flagsAt t).meets
      (TypeFlags.union ||| TypeFlags.any ||| TypeFlags.unknown ||| TypeFlags.never) = false := by
  by_cases early : t ≤ booleanType
  · have all : ∀ t ≤ booleanType, t ∉ [anyType, errorType, unknownType, neverType] → (State.initial.flagsAt t).meets
        (TypeFlags.union ||| TypeFlags.any ||| TypeFlags.unknown ||| TypeFlags.never) = false := by decide
    rw [(c.basic t (early.trans (by decide))).2]
    exact all t early other
  · have all : ∀ f ∈ madeFlags, f ≠ TypeFlags.union → f.meets
        (TypeFlags.union ||| TypeFlags.any ||| TypeFlags.unknown ||| TypeFlags.never) = false := by decide
    exact all _ (c.made has (Nat.lt_of_not_le early)) flat

/-- A union that does not come to a single type is canonical. -/
theorem shapeCanonical (c : s.Classified) (known : ∀ t ∈ xs, s.Has t) (is : s.unionShape xs = .several types) :
    s.Canonical types := by
  rcases c.shapeCases known with ⟨_, shape⟩ | ⟨_, _, shape⟩ | ⟨noAny, noUnknown, all, nodup, mem, shape⟩
  · cases is.symm.trans shape
  · cases is.symm.trans shape
  -- The parts are `all` in order, and there are several.
  obtain ⟨sorted, several⟩ : types = all.mergeSort (· ≤ ·) ∧ 2 ≤ all.length := by
    rw [shape] at is
    match all, is with
    | _ :: _ :: _, is =>
      cases is
      exact ⟨rfl, by simp⟩
  have perm : types.Perm all := sorted ▸ List.mergeSort_perm all (· ≤ ·)
  have remains (t : TypeId) : t ∈ types ↔ s.Remains (xs.flatMap s.parts) t := by rw [perm.mem_iff, mem]
  have has (t : TypeId) (member : t ∈ types) : s.Has t := by
    rcases (remains t).mp member with ⟨kept, _⟩ | ⟨_, rfl⟩
    · exact c.hasFlat known t kept.1
    · exact c.hasBasic (by decide)
  have apart (t : TypeId) (member : t ∈ types) (a : TypeId) (absorbs : a ∈ s.absorbers t) : a ∉ types := by
    rw [remains]
    exact c.remainsApart (has t member) ((remains t).mp member) absorbs
  refine ⟨perm.length_eq ▸ several, ?_, has, fun t member => ?_, ?_, ?_, ?_⟩
  · have ordered : types.Pairwise (· ≤ ·) := sorted ▸ List.pairwise_mergeSort' (· ≤ ·) all
    have different : types.Pairwise (· ≠ ·) := perm.nodup_iff.mpr nodup
    exact (ordered.and different).imp fun ⟨le, ne⟩ => lt_of_le_of_ne le ne
  · rcases (remains t).mp member with ⟨kept, _⟩ | ⟨_, rfl⟩
    · obtain ⟨x, isX, part⟩ := List.mem_flatMap.mp kept.1
      refine c.properFlags (has t member) (c.hasParts (known x isX) t part).2 fun wrong => ?_
      simp only [List.mem_cons, List.not_mem_nil, or_false] at wrong
      rcases wrong with rfl | rfl | rfl | rfl
      · exact noAny (.inl kept.1)
      · exact noAny (.inr kept.1)
      · exact noUnknown kept.1
      · exact kept.2.1 rfl
    · rw [(c.basic booleanType (by decide)).2]
      decide
  · exact fun t member base is => apart t member base (baseAbsorbs s is)
  · exact fun t member is => apart t member _ (c.numberAbsorbs (has t member) is)
  · rw [remains, remains, c.remainsTrue, c.remainsFalse]
    tauto

end State.Classified

end Fragment.Typing
