import Mathlib.Logic.Relation
import Mathlib.Tactic.IntervalCases
import Std.Data.HashMap.Lemmas
import Fragment.Proofs.UnionShape

/-! Types that exist once for each shape.
Unions, arrays and references are looked up before they are made. Along any sequence of constructions
the tables hold exactly the types that there are, a type keeps its flags and what it is made of, and so
a union asked for again, in any order and in any steps, is the same type. -/
namespace Fragment.Typing

/-- What may change in a type once it is there: its members, and details of an open form. -/
structure TypeInfo.Revises (i j : TypeInfo) : Prop where
  flags : j.flags = i.flags
  closed : i.form.isOpen = false → j.form = i.form ∧ j.givenName = i.givenName
  opened : i.form.isOpen → j.form.isOpen

theorem TypeInfo.Revises.refl (i : TypeInfo) : i.Revises i := ⟨rfl, fun _ => ⟨rfl, rfl⟩, id⟩

theorem TypeInfo.Revises.trans {i j k : TypeInfo} (first : i.Revises j) (second : j.Revises k) : i.Revises k where
  flags := second.flags.trans first.flags
  closed is := by
    obtain ⟨form, name⟩ := first.closed is
    obtain ⟨form', name'⟩ := second.closed (form ▸ is)
    exact ⟨form'.trans form, name'.trans name⟩
  opened is := second.opened (first.opened is)

/-- A type that a declaration makes: an enumeration or one of its members, a type parameter, an interface
or an object type. -/
def State.Declares (s : State) (info : TypeInfo) : Prop :=
  match info.form with
  | .enum _ | .typeParameter _ | .interface _ | .anonymous _ =>
    info.flags = TypeFlags.enum ∨ info.flags = TypeFlags.typeParameter ∨ info.flags = TypeFlags.object
  | .enumLiteral _ base =>
    info.flags = TypeFlags.enumLiteral ||| TypeFlags.numberLiteral ∧ s.Has base ∧ s.flagsAt base = TypeFlags.enum
  | _ => False

/-- One call of a constructor of types, on types that there are. -/
inductive Constructs (s : State) : State → Prop
  | text {s' : State} {id : TypeId} (t : String) (run : (Check.textLiteral t).run s = .ok (id, s')) : Constructs s s'
  | number {s' : State} {id : TypeId} (n : Number) (run : (Check.numberLiteral n).run s = .ok (id, s')) :
    Constructs s s'
  | array {s' : State} {id element : TypeId} (known : s.Has element)
      (run : (Check.arrayOf element).run s = .ok (id, s')) : Constructs s s'
  | reference {s' : State} {id target : TypeId} {args : List TypeId} (known : ∀ t ∈ target :: args, s.Has t)
      (run : (Check.referenceTo target args).run s = .ok (id, s')) : Constructs s s'
  | union {s' : State} {id : TypeId} {types : List TypeId} (name : Option String) (known : ∀ t ∈ types, s.Has t)
      (run : (Check.namedUnion types name).run s = .ok (id, s')) : Constructs s s'
  | intersection {s' : State} {id : TypeId} {types : List TypeId} (known : ∀ t ∈ types, s.Has t)
      (run : (Check.intersection types).run s = .ok (id, s')) : Constructs s s'
  | declared {s' : State} {id : TypeId} {info : TypeInfo} (declares : s.Declares info)
      (run : (Check.newType info).run s = .ok (id, s')) : Constructs s s'
  /-- A detail of a type is filled in. -/
  | revised {s' : State} {t : TypeId} {f : TypeInfo → TypeInfo} (revises : (s.typeInfo t).Revises (f (s.typeInfo t)))
      (run : (Check.modifyType t f).run s = .ok ((), s')) : Constructs s s'
  /-- Something happens that concerns no types. -/
  | elsewhere {s' : State} (types : s'.types = s.types) (unions : s'.unions = s.unions) (arrays : s'.arrays = s.arrays)
      (references : s'.references = s.references) : Constructs s s'

/-- The second state is the first one or comes after it. -/
abbrev Later : State → State → Prop := Relation.ReflTransGen Constructs

namespace State

/-- The tables hold exactly the types that there are, and unions are canonical. -/
structure Interned (s : State) : Prop where
  classified : s.Classified
  unions : ∀ types name t, s.unions[(types, name)]? = some t ↔
    s.Has t ∧ (s.typeInfo t).form = .union types ∧ (s.typeInfo t).givenName.getD "" = name
  arrays : ∀ element t, s.arrays[element]? = some t ↔ s.Has t ∧ (s.typeInfo t).form = .array element
  references : ∀ target args t, s.references[(target, args)]? = some t ↔
    s.Has t ∧ (s.typeInfo t).form = .reference target args
  canonical : ∀ t, s.Has t → ∀ types, (s.typeInfo t).form = .union types → s.Canonical types

/-- All types of `s` are there in `s'`, with the same flags and made of the same. -/
structure Extends (s s' : State) : Prop where
  has : ∀ t, s.Has t → s'.Has t
  revises : ∀ t, s.Has t → (s.typeInfo t).Revises (s'.typeInfo t)

theorem Extends.refl (s : State) : s.Extends s := ⟨fun _ has => has, fun _ _ => .refl _⟩

theorem Extends.trans {s s' s'' : State} (first : s.Extends s') (second : s'.Extends s'') : s.Extends s'' where
  has t has := second.has t (first.has t has)
  revises t has := (first.revises t has).trans (second.revises t (first.has t has))

namespace Extends

variable {s s' : State} {t : TypeId} {types : List TypeId}

theorem flagsAt (e : s.Extends s') (has : s.Has t) : s'.flagsAt t = s.flagsAt t := (e.revises t has).flags

/-- A form that is not open stays, and an open one never becomes another. -/
theorem form (e : s.Extends s') (has : s.Has t) (form : Form) (closed : form.isOpen = false) :
    (s'.typeInfo t).form = form ↔ (s.typeInfo t).form = form := by
  have revises := e.revises t has
  by_cases opened : (s.typeInfo t).form.isOpen
  · have still := revises.opened opened
    constructor <;> intro is <;> simp [is, closed] at opened still
  · rw [(revises.closed (by simpa using opened)).1]

theorem parts (e : s.Extends s') (has : s.Has t) : s'.parts t = s.parts t := by
  unfold State.parts
  cases before : (s.typeInfo t).form with
  | union types => rw [(e.form has (.union types) rfl).mpr before]
  | _ =>
    split
    · next types after =>
      rw [(e.form has (.union types) rfl)] at after
      simp [before] at after
    · rfl

theorem baseOf? (e : s.Extends s') (has : s.Has t) : s'.baseOf? t = s.baseOf? t := by
  have revises := e.revises t has
  by_cases opened : (s.typeInfo t).form.isOpen
  · have still := revises.opened opened
    have none_ {s : State} (is : (s.typeInfo t).form.isOpen) : s.baseOf? t = none := by
      unfold State.baseOf?
      revert is
      unfold Form.isOpen
      cases (s.typeInfo t).form <;> simp
    rw [none_ still, none_ opened]
  · unfold State.baseOf?
    rw [(revises.closed (by simpa using opened)).1]

theorem flagsOf (e : s.Extends s') (known : ∀ t ∈ types, s.Has t) : s'.flagsOf types = s.flagsOf types := by
  unfold State.flagsOf
  refine List.foldl_ext _ _ _ fun f t member => ?_
  exact congrArg (f ||| ·) (e.flagsAt (known t member))

theorem isAbsorbed (e : s.Extends s') (known : ∀ t ∈ types, s.Has t) (has : s.Has t) :
    s'.isAbsorbed types t = s.isAbsorbed types t := by
  have flags : (s'.typeInfo t).flags = (s.typeInfo t).flags := e.flagsAt has
  simp only [State.isAbsorbed, flags, e.flagsOf known, e.baseOf? has]

/-- A union comes to the same later. -/
theorem unionShape (e : s.Extends s') (c : s.Classified) (known : ∀ t ∈ types, s.Has t) :
    s'.unionShape types = s.unionShape types := by
  have flat : types.flatMap s'.parts = types.flatMap s.parts := List.flatMap_congr fun t member => e.parts (known t member)
  have has (t : TypeId) (member : t ∈ distinct (types.flatMap s.parts)) : s.Has t :=
    c.hasFlat known t ((memDistinct _ t).mp member)
  have kept : (distinct (types.flatMap s.parts)).filter (!s'.isAbsorbed (distinct (types.flatMap s.parts)) ·) =
      (distinct (types.flatMap s.parts)).filter (!s.isAbsorbed (distinct (types.flatMap s.parts)) ·) :=
    List.filter_congr fun t member => by rw [e.isAbsorbed has (has t member)]
  rw [unionShapeEq, unionShapeEq]
  simp only [flat, e.flagsOf has, remaining, kept]

theorem canonical (e : s.Extends s') (is : s.Canonical types) : s'.Canonical types where
  several := is.several
  increasing := is.increasing
  known t member := e.has t (is.known t member)
  proper t member := e.flagsAt (is.known t member) ▸ is.proper t member
  literals t member base base_ := is.literals t member base (e.baseOf? (is.known t member) ▸ base_)
  numbers t member number := is.numbers t member (e.flagsAt (is.known t member) ▸ number)
  booleans := is.booleans

end Extends

section Push

variable {s s' : State} {info : TypeInfo}

theorem typeInfoPush (types : s'.types = s.types.push info) (t : TypeId) :
    s'.typeInfo t = if t = s.types.size then info else s.typeInfo t := by
  simp only [State.typeInfo, types, Array.getD_eq_getD_getElem?, Array.getElem?_push]
  split <;> rfl

theorem hasPush (types : s'.types = s.types.push info) (t : TypeId) : s'.Has t ↔ t = s.types.size ∨ s.Has t := by
  simp only [Has, types, Array.size_push]
  exact Nat.lt_succ_iff_lt_or_eq.trans or_comm

theorem typeInfoOld (types : s'.types = s.types.push info) {t : TypeId} (has : s.Has t) :
    s'.typeInfo t = s.typeInfo t := by
  rw [typeInfoPush types, if_neg (Nat.ne_of_lt has)]

theorem extendsPush (types : s'.types = s.types.push info) : s.Extends s' where
  has t has := (hasPush types t).mpr (.inr has)
  revises _ has := typeInfoOld types has ▸ .refl _

/-- A new entry of a table beside the old ones. -/
theorem tableInsert {K : Type} [BEq K] [LawfulBEq K] [Hashable K] {m : Std.HashMap K TypeId} {k : K} {n : TypeId}
    (absent : m[k]? = none) (k' : K) (t : TypeId) :
    (m.insert k n)[k']? = some t ↔ m[k']? = some t ∨ (t = n ∧ k = k') := by
  rw [Std.HashMap.getElem?_insert]
  by_cases same : k = k'
  · subst same
    simp [absent, eq_comm]
  · simp [same]

/-- The types that an entry of a table stands for, when one type more is there. -/
theorem tablePush (types : s'.types = s.types.push info) (P : TypeInfo → Prop) {before after : Option TypeId}
    (held : ∀ t, before = some t ↔ s.Has t ∧ P (s.typeInfo t))
    (adds : ∀ t, after = some t ↔ before = some t ∨ (t = s.types.size ∧ P info)) (t : TypeId) :
    after = some t ↔ s'.Has t ∧ P (s'.typeInfo t) := by
  rw [adds, held, hasPush types, typeInfoPush types]
  by_cases new : t = s.types.size
  · subst new
    simp [Has]
  · simp [new]

/-- A new type that fits, and is entered in the table of its form. -/
theorem Interned.push (i : s.Interned) (types : s'.types = s.types.push info)
    (fits : info.form.Fits s.types.size info.flags)
    (enum : ∀ value base, info.form = .enumLiteral value base → s.Has base ∧ s.flagsAt base = TypeFlags.enum)
    (canonical : ∀ ts, info.form = .union ts → s.Canonical ts)
    (unions : ∀ ts name t, s'.unions[(ts, name)]? = some t ↔ s.unions[(ts, name)]? = some t ∨
      (t = s.types.size ∧ info.form = .union ts ∧ info.givenName.getD "" = name))
    (arrays : ∀ e t, s'.arrays[e]? = some t ↔ s.arrays[e]? = some t ∨ (t = s.types.size ∧ info.form = .array e))
    (references : ∀ target args t, s'.references[(target, args)]? = some t ↔
      s.references[(target, args)]? = some t ∨ (t = s.types.size ∧ info.form = .reference target args)) :
    s'.Interned where
  classified := by
    have e := extendsPush types
    have c := i.classified
    refine ⟨fun t early => ?_, fun t has => ?_, fun t has value base form => ?_, fun t has ts form p member => ?_⟩
    · obtain ⟨has, flags⟩ := c.basic t early
      exact ⟨e.has t has, (e.flagsAt has).trans flags⟩
    · rcases (hasPush types t).mp has with rfl | old
      · simpa [flagsAt, typeInfoPush types] using fits
      · simpa [flagsAt, typeInfoOld types old] using c.fits t old
    · have old : s.Has base ∧ s.flagsAt base = TypeFlags.enum := by
        rcases (hasPush types t).mp has with rfl | old
        · exact enum value base (by simpa [typeInfoPush types] using form)
        · exact c.enums t old value base (typeInfoOld types old ▸ form)
      exact ⟨e.has base old.1, (e.flagsAt old.1).trans old.2⟩
    · have old : s.Has p ∧ s.flagsAt p ≠ TypeFlags.union := by
        rcases (hasPush types t).mp has with rfl | old
        · have is := canonical ts (by simpa [typeInfoPush types] using form)
          refine ⟨is.known p member, fun flags => ?_⟩
          have proper := is.proper p member
          rw [flags] at proper
          exact absurd proper (by decide)
        · exact c.flat t old ts (typeInfoOld types old ▸ form) p member
      exact ⟨e.has p old.1, (e.flagsAt old.1).symm ▸ old.2⟩
  unions ts name := tablePush types (fun info => info.form = .union ts ∧ info.givenName.getD "" = name)
    (i.unions ts name) (unions ts name)
  arrays e := tablePush types (fun info => info.form = .array e) (i.arrays e) (arrays e)
  references target args := tablePush types (fun info => info.form = .reference target args)
    (i.references target args) (references target args)
  canonical t has ts form := by
    have e := extendsPush types
    rcases (hasPush types t).mp has with rfl | old
    · exact e.canonical (canonical ts (by simpa [typeInfoPush types] using form))
    · exact e.canonical (i.canonical t old ts (typeInfoOld types old ▸ form))

/-- A type without a table: its form is none of those that exist once. -/
theorem Interned.pushLoose (i : s.Interned) (types : s'.types = s.types.push info)
    (fits : info.form.Fits s.types.size info.flags)
    (enum : ∀ value base, info.form = .enumLiteral value base → s.Has base ∧ s.flagsAt base = TypeFlags.enum)
    (loose : ∀ ts e target args, info.form ≠ .union ts ∧ info.form ≠ .array e ∧ info.form ≠ .reference target args)
    (unions : s'.unions = s.unions) (arrays : s'.arrays = s.arrays) (references : s'.references = s.references) :
    s'.Interned := by
  refine i.push types fits enum (fun ts is => absurd is (loose ts 0 0 []).1) (fun ts name t => ?_) (fun e t => ?_)
    fun target args t => ?_
  · simp [unions, (loose ts 0 0 []).1]
  · simp [arrays, (loose [] e 0 []).2.1]
  · simp [references, (loose [] 0 target args).2.2]

/-- The flags of an open form do not say which one it is. -/
theorem fitsOpen {form : Form} (opened : form.isOpen) (t : TypeId) (flags : TypeFlags) : form.Fits t flags ↔
    flags = TypeFlags.enum ∨ flags = TypeFlags.typeParameter ∨ flags = TypeFlags.object := by
  cases form with
  | enum | typeParameter | interface | anonymous => rfl
  | _ =>
    unfold Form.isOpen at opened
    simp at opened

/-- A state in which at most details of types have been filled in. -/
theorem Interned.revised (i : s.Interned) (e : s.Extends s') (size : s'.types.size = s.types.size)
    (unions : s'.unions = s.unions) (arrays : s'.arrays = s.arrays) (references : s'.references = s.references) :
    s'.Interned := by
  have has (t : TypeId) : s'.Has t ↔ s.Has t := by simp [Has, size]
  have c := i.classified
  refine ⟨⟨fun t early => ?_, fun t there => ?_, fun t there value base form => ?_, fun t there ts form p member => ?_⟩,
    fun ts name t => ?_, fun element t => ?_, fun target args t => ?_, fun t there ts form => ?_⟩
  · obtain ⟨there, flags⟩ := c.basic t early
    exact ⟨e.has t there, (e.flagsAt there).trans flags⟩
  · have before := (has t).mp there
    have revises := e.revises t before
    have fits := c.fits t before
    rw [e.flagsAt before]
    by_cases opened : (s.typeInfo t).form.isOpen
    · rw [fitsOpen opened] at fits
      rwa [fitsOpen (revises.opened opened)]
    · rwa [(revises.closed (by simpa using opened)).1]
  · have before := (has t).mp there
    obtain ⟨old, flags⟩ := c.enums t before value base ((e.form before _ rfl).mp form)
    exact ⟨e.has base old, (e.flagsAt old).trans flags⟩
  · have before := (has t).mp there
    obtain ⟨old, flags⟩ := c.flat t before ts ((e.form before _ rfl).mp form) p member
    exact ⟨e.has p old, (e.flagsAt old).symm ▸ flags⟩
  · rw [unions, i.unions, has]
    refine and_congr_right fun before => ?_
    rw [e.form before _ rfl]
    refine and_congr_right fun form => ?_
    rw [((e.revises t before).closed (by rw [form]; rfl)).2]
  · rw [arrays, i.arrays, has]
    exact and_congr_right fun before => (e.form before _ rfl).symm
  · rw [references, i.references, has]
    exact and_congr_right fun before => (e.form before _ rfl).symm
  · have before := (has t).mp there
    exact e.canonical (i.canonical t before ts ((e.form before _ rfl).mp form))

/-- Changing one type to a revision of it. -/
theorem extendsModify {t : TypeId} {f : TypeInfo → TypeInfo} (types : s'.types = s.types.modify t f)
    (revises : (s.typeInfo t).Revises (f (s.typeInfo t))) : s.Extends s' where
  has u has := by simpa [Has, types] using has
  revises u has := by
    have there : s.types[u]? = some (s.typeInfo u) := by
      have bound : u < s.types.size := has
      simp [State.typeInfo, Array.getD_eq_getD_getElem?, bound]
    have after : s'.typeInfo u = if t = u then f (s.typeInfo u) else s.typeInfo u := by
      rw [State.typeInfo, types, Array.getD_eq_getD_getElem?, Array.getElem?_modify, there]
      split <;> simp
    rw [after]
    split
    · next same => exact same ▸ revises
    · exact .refl _

end Push

section Run

variable (s : State)

/-- A type that is looked up, and made and entered if it is not there. -/
theorem internRun (found : State → Option TypeId) (info : State → TypeInfo) (enter : TypeId → State → State) :
    StateT.run (m := Except Fault) (do
      match found (← get) with
      | some id => return id
      | none =>
        let s ← get
        let id ← Check.newType (info s)
        modify (enter id)
        return id) s =
    match found s with
    | some id => .ok (id, s)
    | none => .ok (s.types.size, enter s.types.size { s with types := s.types.push (info s) }) := by
  rw [StateT.run_bind, StateT.run_get, pure_bind]
  cases there : found s <;> rfl

theorem textRun (t : String) : (Check.textLiteral t).run s = match s.textLiterals[t]? with
    | some id => .ok (id, s)
    | none => .ok (s.types.size, { s with
        types := s.types.push { flags := TypeFlags.stringLiteral, form := .literal (.text t) stringType }
        textLiterals := s.textLiterals.insert t s.types.size }) :=
  internRun s (·.textLiterals[t]?) (fun _ => { flags := TypeFlags.stringLiteral, form := .literal (.text t) stringType })
    fun id s => { s with textLiterals := s.textLiterals.insert t id }

theorem referenceRun (target : TypeId) (args : List TypeId) :
    (Check.referenceTo target args).run s = match s.references[(target, args)]? with
    | some id => .ok (id, s)
    | none => .ok (s.types.size, { s with
        types := s.types.push
          { flags := TypeFlags.object, form := .reference target args, symbol := (s.typeInfo target).symbol }
        references := s.references.insert (target, args) s.types.size }) :=
  internRun s (·.references[(target, args)]?)
    (fun s => { flags := TypeFlags.object, form := .reference target args, symbol := (s.typeInfo target).symbol })
    fun id s => { s with references := s.references.insert (target, args) id }

theorem numberRun (n : Number) : (Check.numberLiteral n).run s = match s.numberLiterals[n.normalize.key]? with
    | some id => .ok (id, s)
    | none => .ok (s.types.size, { s with
        types := s.types.push { flags := TypeFlags.numberLiteral, form := .literal (.number n.normalize) numberType }
        numberLiterals := s.numberLiterals.insert n.normalize.key s.types.size }) :=
  internRun s (·.numberLiterals[n.normalize.key]?)
    (fun _ => { flags := TypeFlags.numberLiteral, form := .literal (.number n.normalize) numberType })
    fun id s => { s with numberLiterals := s.numberLiterals.insert n.normalize.key id }

theorem arrayRun (element : TypeId) : (Check.arrayOf element).run s = match s.arrays[element]? with
    | some id => .ok (id, s)
    | none => .ok (s.types.size, { s with
        types := s.types.push { flags := TypeFlags.object, form := .array element }
        arrays := s.arrays.insert element s.types.size }) :=
  internRun s (·.arrays[element]?) (fun _ => { flags := TypeFlags.object, form := .array element })
    fun id s => { s with arrays := s.arrays.insert element id }

/-- Looks up a union of parts that have been worked out. -/
def enterUnion (types : List TypeId) (name : Option String) : Except Fault (TypeId × State) :=
  match s.unions[(types, name.getD "")]? with
  | some id => .ok (id, s)
  | none => .ok (s.types.size, { s with
      types := s.types.push { flags := TypeFlags.union, form := .union types, givenName := name }
      unions := s.unions.insert (types, name.getD "") s.types.size })

theorem unionRun (types : List TypeId) (name : Option String) :
    (Check.namedUnion types name).run s = match s.unionShape types with
    | .single t => .ok (t, s)
    | .several ts => s.enterUnion ts name := by
  have look (ts : List TypeId) := internRun s (·.unions[(ts, name.getD "")]?)
    (fun _ => { flags := TypeFlags.union, form := .union ts, givenName := name })
    fun id s => { s with unions := s.unions.insert (ts, name.getD "") id }
  simp only [Check.namedUnion, StateT.run_bind, StateT.run_get, pure_bind]
  cases s.unionShape types with
  | single t => rfl
  | several ts => exact look ts

/-- An intersection is there already, or it is made of several types. -/
theorem intersectionRun {types : List TypeId} {id : TypeId} {s' : State}
    (run : (Check.intersection types).run s = .ok (id, s')) : s' = s ∨ ∃ ts key, s' = { s with
      types := s.types.push { flags := TypeFlags.intersection, form := .intersection ts }
      intersections := s.intersections.insert key s.types.size } := by
  have same {t : TypeId} (is : (pure t : Check TypeId).run s = .ok (id, s')) : s' = s := by
    cases is
    rfl
  simp only [Check.intersection, StateT.run_bind, StateT.run_get, pure_bind] at run
  generalize (distinct (types.flatMap s.factors)).filter _ = ts at run
  split at run
  · exact .inl (same run)
  split at run
  · exact .inl (same run)
  split at run
  · exact .inl (same run)
  split at run
  · exact .inl (same run)
  · exact .inl (same run)
  · have run := (internRun s (·.intersections[ts.mergeSort (· ≤ ·)]?)
      (fun _ => { flags := TypeFlags.intersection, form := .intersection ts })
      fun id s => { s with intersections := s.intersections.insert (ts.mergeSort (· ≤ ·)) id }).symm.trans run
    split at run <;> cases run
    · exact .inl rfl
    · exact .inr ⟨ts, _, rfl⟩

end Run

section Along

variable {s s' : State}

/-- One construction keeps the tables right and every type as it is. -/
theorem Interned.step (i : s.Interned) (does : Constructs s s') : s'.Interned ∧ s.Extends s' := by
  cases does with
  | text t run =>
    rw [textRun] at run
    split at run <;> cases run
    · exact ⟨i, .refl s⟩
    · exact ⟨i.pushLoose rfl ⟨rfl, rfl⟩ (by simp) (by simp) rfl rfl rfl, extendsPush rfl⟩
  | number n run =>
    rw [numberRun] at run
    split at run <;> cases run
    · exact ⟨i, .refl s⟩
    · exact ⟨i.pushLoose rfl ⟨rfl, rfl⟩ (by simp) (by simp) rfl rfl rfl, extendsPush rfl⟩
  | array _ run =>
    rw [arrayRun] at run
    split at run <;> cases run
    · exact ⟨i, .refl s⟩
    · next absent =>
      refine ⟨i.push rfl rfl (by simp) (by simp) (by simp) (fun e t => ?_) (by simp), extendsPush rfl⟩
      simp [tableInsert absent]
  | reference _ run =>
    rw [referenceRun] at run
    split at run <;> cases run
    · exact ⟨i, .refl s⟩
    · next absent =>
      refine ⟨i.push rfl rfl (by simp) (by simp) (by simp) (by simp) fun r as t => ?_, extendsPush rfl⟩
      simp [tableInsert absent]
  | union name known run =>
    rw [unionRun] at run
    split at run
    · cases run
      exact ⟨i, .refl s⟩
    · next ts shape =>
      unfold enterUnion at run
      split at run <;> cases run
      · exact ⟨i, .refl s⟩
      · next absent =>
        refine ⟨i.push rfl rfl (by simp) (fun us is => ?_) (fun us n t => ?_) (by simp) (by simp), extendsPush rfl⟩
        · cases is
          exact i.classified.shapeCanonical known shape
        · simp [tableInsert absent]
  | intersection _ run =>
    rcases intersectionRun s run with rfl | ⟨ts, key, rfl⟩
    · exact ⟨i, .refl s'⟩
    · exact ⟨i.pushLoose rfl rfl (by simp) (by simp) rfl rfl rfl, extendsPush rfl⟩
  | @declared _ info declares run =>
    cases run
    refine ⟨i.pushLoose rfl ?_ ?_ ?_ rfl rfl rfl, extendsPush rfl⟩ <;> revert declares <;> unfold Declares <;>
      cases info.form <;> simp +contextual [Form.Fits]
  | @revised t f revises run =>
    cases run
    have e : s.Extends { s with types := s.types.modify t f } := extendsModify rfl revises
    exact ⟨i.revised e (by simp) rfl rfl rfl, e⟩
  | elsewhere types unions arrays references =>
    have e : s.Extends s' := by
      refine ⟨fun t has => by simpa [Has, types] using has, fun t _ => ?_⟩
      simp [State.typeInfo, types, TypeInfo.Revises.refl]
    exact ⟨i.revised e (by rw [types]) unions arrays references, e⟩

theorem Interned.along (i : s.Interned) (later : Later s s') : s'.Interned ∧ s.Extends s' := by
  induction later with
  | refl => exact ⟨i, .refl s⟩
  | tail _ does ih =>
    obtain ⟨interned, e⟩ := ih.1.step does
    exact ⟨interned, ih.2.trans e⟩

/-- None of the types of the start is in a table. -/
theorem initialLoose (t : TypeId) (has : State.initial.Has t) : match (State.initial.typeInfo t).form with
    | .union _ | .array _ | .reference .. | .enumLiteral .. => False
    | form => form.Fits t (State.initial.flagsAt t) := by
  have bound : t < 12 := has
  interval_cases t
  all_goals simp [State.initial, initialTypes, State.typeInfo, flagsAt, intrinsic, Form.Fits, booleanType]
  all_goals decide

theorem initialInterned : State.initial.Interned where
  classified := by
    refine ⟨fun t early => ⟨Nat.lt_of_le_of_lt early (by decide), rfl⟩, fun t has => ?_, fun t has _ _ form => ?_,
      fun t has _ form => ?_⟩
    all_goals have loose := initialLoose t has
    · split at loose <;> first | exact loose.elim | exact loose
    · simp [form] at loose
    · simp [form] at loose
  unions types name t := by
    constructor
    · intro found
      simp [State.initial] at found
    · rintro ⟨has, form, _⟩
      simpa [form] using initialLoose t has
  arrays element t := by
    constructor
    · intro found
      simp [State.initial] at found
    · rintro ⟨has, form⟩
      simpa [form] using initialLoose t has
  references target args t := by
    constructor
    · intro found
      simp [State.initial] at found
    · rintro ⟨has, form⟩
      simpa [form] using initialLoose t has
  canonical t has types form := by
    have loose := initialLoose t has
    simp [form] at loose

end Along

/-- Unions exist once for each set of parts, arrays once for each element and references once for what
they refer to. -/
structure OnePerShape (s : State) : Prop where
  /-- A union is given by the set of its parts. -/
  sameParts : ∀ xs ys, (∀ t ∈ xs ++ ys, s.Has t) → (∀ t, t ∈ xs.flatMap s.parts ↔ t ∈ ys.flatMap s.parts) →
    (Check.union xs).run s = (Check.union ys).run s
  /-- A union can always be had, and it is the same type whenever it is asked for again. -/
  returns : ∀ xs, (∀ t ∈ xs, s.Has t) → ∃ u s', (Check.union xs).run s = .ok (u, s') ∧ s'.Has u ∧
    ∀ after, Later s' after → (Check.union xs).run after = .ok (u, after)
  /-- A union with a union is the union of all. -/
  steps : ∀ xs ys, (∀ t ∈ xs ++ ys, s.Has t) → ∀ u s', (Check.union xs).run s = .ok (u, s') →
    ∀ after, Later s' after → (Check.union (u :: ys)).run after = (Check.union (xs ++ ys)).run after
  canonical : ∀ t, s.Has t → ∀ types, (s.typeInfo t).form = .union types → s.Canonical types
  /-- A literal widens to the basic type of its kind, and an enumeration member to an enumeration. -/
  bases : ∀ t, s.Has t → match (s.typeInfo t).form with
    | .literal (.text _) base => base = stringType
    | .literal (.number _) base => base = numberType
    | .literal (.bool _) base => base = booleanType
    | .enumLiteral _ base => s.flagsAt base = TypeFlags.enum
    | _ => True
  sameUnion : ∀ t u types, s.Has t → s.Has u → (s.typeInfo t).form = .union types →
    (s.typeInfo u).form = .union types → (s.typeInfo t).givenName = none → (s.typeInfo u).givenName = none → t = u
  sameArray : ∀ t u element, s.Has t → s.Has u → (s.typeInfo t).form = .array element →
    (s.typeInfo u).form = .array element → t = u
  sameReference : ∀ t u target args, s.Has t → s.Has u → (s.typeInfo t).form = .reference target args →
    (s.typeInfo u).form = .reference target args → t = u

namespace Interned

variable {s s' : State} {xs ys : List TypeId} {u : TypeId}

/-- What asking for a union gives: a type that there is, with the parts that the union comes to. -/
theorem unionResult (i : s.Interned) (known : ∀ t ∈ xs, s.Has t) :
    ∃ u s', (Check.union xs).run s = .ok (u, s') ∧ Constructs s s' ∧ s'.Has u ∧
      s'.parts u = (s.unionShape xs).parts ∧
      ((s.unionShape xs = .single u) ∨
        ∃ ts, s.unionShape xs = .several ts ∧ (s'.typeInfo u).form = .union ts ∧
          (s'.typeInfo u).givenName.getD "" = "") := by
  obtain ⟨⟨u, s'⟩, run⟩ : ∃ r, (Check.union xs).run s = .ok r := by
    rw [Check.union, unionRun]
    split
    · exact ⟨_, rfl⟩
    · unfold enterUnion
      split <;> exact ⟨_, rfl⟩
  have does : Constructs s s' := .union none known run
  refine ⟨u, s', run, does, ?_⟩
  have after := (i.step does).1
  rw [Check.union, unionRun] at run
  cases shape : s.unionShape xs with
  | single t =>
    rw [shape] at run
    cases run
    obtain ⟨has, flat⟩ := i.classified.shapeSingle known shape
    exact ⟨has, i.classified.partsSelf has flat, .inl rfl⟩
  | several ts =>
    have entered : s'.unions[(ts, "")]? = some u := by
      rw [shape] at run
      simp only [enterUnion, Option.getD_none] at run
      split at run <;> cases run
      · assumption
      · simp
    obtain ⟨has, form, name⟩ := (after.unions ts "" u).mp entered
    exact ⟨has, by simp [State.parts, form, UnionShape.parts], .inr ⟨ts, rfl, form, name⟩⟩

/-- A union that is there is found again in every later state. -/
theorem unionAgain (i : s.Interned) (known : ∀ t ∈ xs, s.Has t) (run : (Check.union xs).run s = .ok (u, s'))
    {after : State} (later : Later s' after) : (Check.union xs).run after = .ok (u, after) := by
  obtain ⟨u', s'', run', does, has, _, made⟩ := i.unionResult known
  cases run.symm.trans run'
  obtain ⟨i', e⟩ := i.step does
  obtain ⟨i'', e'⟩ := i'.along later
  rw [Check.union, unionRun, (e.trans e').unionShape i.classified known]
  rcases made with shape | ⟨ts, shape, form, name⟩
  · rw [shape]
  · rw [shape]
    have closed := ((e'.revises u has).closed (by rw [form]; rfl)).2
    have found : after.unions[(ts, "")]? = some u :=
      (i''.unions ts "" u).mpr ⟨e'.has u has, (e'.form has _ rfl).mpr form, closed ▸ name⟩
    simp [enterUnion, found]

/-- A union of a union and other types is the union of all. -/
theorem unionSteps (i : s.Interned) (known : ∀ t ∈ xs ++ ys, s.Has t) (run : (Check.union xs).run s = .ok (u, s'))
    {after : State} (later : Later s' after) :
    (Check.union (u :: ys)).run after = (Check.union (xs ++ ys)).run after := by
  have knownX (t : TypeId) (member : t ∈ xs) : s.Has t := known t (List.mem_append_left _ member)
  have knownY (t : TypeId) (member : t ∈ ys) : s.Has t := known t (List.mem_append_right _ member)
  obtain ⟨u', s'', run', does, has, parts, _⟩ := i.unionResult knownX
  cases run.symm.trans run'
  obtain ⟨i', e⟩ := i.step does
  obtain ⟨i'', e'⟩ := i'.along later
  have all := e.trans e'
  have same : after.parts u = (after.unionShape xs).parts := by
    rw [e'.parts has, parts, all.unionShape i.classified knownX]
  rw [Check.union, Check.union, unionRun, unionRun,
    i''.classified.shapeAppend (fun t member => all.has t (knownX t member)) (fun t member => all.has t (knownY t member))
      (e'.has u has) same]

theorem unionSameParts (i : s.Interned) (known : ∀ t ∈ xs ++ ys, s.Has t)
    (same : ∀ t, t ∈ xs.flatMap s.parts ↔ t ∈ ys.flatMap s.parts) :
    (Check.union xs).run s = (Check.union ys).run s := by
  have knownX (t : TypeId) (member : t ∈ xs) : s.Has t := known t (List.mem_append_left _ member)
  have knownY (t : TypeId) (member : t ∈ ys) : s.Has t := known t (List.mem_append_right _ member)
  have shape : s.unionShape xs = s.unionShape ys := by
    refine i.classified.shapeAlike knownX knownY ?_ (same _) (fun _ => same _) fun _ _ => ?_
    · rw [same, same]
    · exact Classified.remainsCongr same
  rw [Check.union, Check.union, unionRun, unionRun, shape]

theorem basesRight (i : s.Interned) (t : TypeId) (has : s.Has t) : match (s.typeInfo t).form with
    | .literal (.text _) base => base = stringType
    | .literal (.number _) base => base = numberType
    | .literal (.bool _) base => base = booleanType
    | .enumLiteral _ base => s.flagsAt base = TypeFlags.enum
    | _ => True := by
  have fits := i.classified.fits t has
  cases form : (s.typeInfo t).form with
  | literal value base =>
    rw [form] at fits
    cases value with
    | text | number => exact fits.2
    | bool => exact fits.2.2
  | enumLiteral value base => exact (i.classified.enums t has value base form).2
  | _ => trivial

end Interned

/-- In every state that constructions lead to, a union depends only on its parts, whatever the order and
the steps in which it is made, and there is one type for each shape. -/
theorem unionsCanonical (s : State) (later : Later State.initial s) : s.OnePerShape := by
  obtain ⟨i, _⟩ := initialInterned.along later
  refine ⟨fun xs ys => i.unionSameParts, fun xs known => ?_, fun xs ys known u s' run after => i.unionSteps known run,
    i.canonical, i.basesRight, fun t u types hasT hasU formT formU nameT nameU => ?_,
    fun t u element hasT hasU formT formU => ?_, fun t u target args hasT hasU formT formU => ?_⟩
  · obtain ⟨u, s', run, _, has, _⟩ := i.unionResult known
    exact ⟨u, s', run, has, fun after => i.unionAgain known run⟩
  · have first := (i.unions types "" t).mpr ⟨hasT, formT, by simp [nameT]⟩
    have second := (i.unions types "" u).mpr ⟨hasU, formU, by simp [nameU]⟩
    exact Option.some.inj (first.symm.trans second)
  · have first := (i.arrays element t).mpr ⟨hasT, formT⟩
    have second := (i.arrays element u).mpr ⟨hasU, formU⟩
    exact Option.some.inj (first.symm.trans second)
  · have first := (i.references target args t).mpr ⟨hasT, formT⟩
    have second := (i.references target args u).mpr ⟨hasU, formU⟩
    exact Option.some.inj (first.symm.trans second)

/-- One such state: numbers and texts have been joined. -/
theorem numberOrTextCanonical : ∃ u s, (Check.union [numberType, stringType]).run State.initial = .ok (u, s) ∧
    Later State.initial s ∧ (s.typeInfo u).form = .union [stringType, numberType] ∧ s.OnePerShape := by
  have known : ∀ t ∈ [numberType, stringType], State.initial.Has t := by
    unfold Has
    decide
  obtain ⟨u, s, run, does, _, _, made⟩ := initialInterned.unionResult known
  have shape : State.initial.unionShape [numberType, stringType] = .several [stringType, numberType] := by
    have parts : State.initial.remaining [numberType, stringType] = [numberType, stringType] := by decide
    have sorted : [numberType, stringType].mergeSort (· ≤ ·) = [stringType, numberType] := by
      simp [List.mergeSort, numberType, stringType]
    rw [← sorted]
    exact (unionShapeEq _ _).trans (congrArg shapeOf parts)
  rcases made with single | ⟨ts, several, form, _⟩
  · cases shape.symm.trans single
  · cases shape.symm.trans several
    exact ⟨u, s, run, .single does, form, unionsCanonical s (.single does)⟩

end State

end Fragment.Typing
