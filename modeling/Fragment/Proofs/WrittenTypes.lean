import Fragment.Proofs.Growing
import Fragment.Proofs.Interning

/-! Types that are written down.
What an annotation, a declaration or an instance stands for is built by constructions on types that there are, and the tables
of the checker keep naming such types. Scopes stay, and so does what an interface was declared as. -/
namespace Fragment.Typing

open Fragment.Source (TypeNode TypeParam Mark)

/-- The types that instances of the form are made of. -/
def Form.uses : Form → List TypeId
  | .union types => types
  | .intersection types => types
  | .array element => [element]
  | .reference target args => target :: args
  | .anonymous a => a.target.toList ++ a.mapper.map (·.2)
  | _ => []

attribute [local simp] Form.uses

/-- A reference has arguments. -/
def Form.isApplied : Form → Bool
  | .reference _ [] => false
  | _ => true

theorem appliedOpen {form : Form} (opened : form.isOpen) : form.isApplied := by
  cases form with
  | reference => cases opened
  | _ => rfl

namespace State

variable {s s' s'' : State} {t u : TypeId} {types : List TypeId} {x : SymbolId}

/-- The tables name types below a number. -/
structure Tables (s : State) (size : Nat) : Prop where
  declared : ∀ x t, (s.symbol x).declaredType = some t → t < size
  parameters : ∀ x, ∀ t ∈ (s.symbol x).typeParameters, t < size
  nodes : ∀ (n : NodeId) t, s.typeNodeTypes[n]? = some t → t < size
  texts : ∀ (v : String) t, s.textLiterals[v]? = some t → t < size
  numbers : ∀ (k : Option UInt64 × Int) t, s.numberLiterals[k]? = some t → t < size
  intersections : ∀ (ts : List TypeId) t, s.intersections[ts]? = some t → t < size
  instances : ∀ (k : TypeId × List (TypeId × TypeId)) t, s.instances[k]? = some t → t < size

theorem Tables.mono {size size' : Nat} (tables : s.Tables size) (more : size ≤ size') : s.Tables size' where
  declared x t is := Nat.lt_of_lt_of_le (tables.declared x t is) more
  parameters x t member := Nat.lt_of_lt_of_le (tables.parameters x t member) more
  nodes n t is := Nat.lt_of_lt_of_le (tables.nodes n t is) more
  texts v t is := Nat.lt_of_lt_of_le (tables.texts v t is) more
  numbers k t is := Nat.lt_of_lt_of_le (tables.numbers k t is) more
  intersections ts t is := Nat.lt_of_lt_of_le (tables.intersections ts t is) more
  instances k t is := Nat.lt_of_lt_of_le (tables.instances k t is) more

/-- What is known names types that there are. -/
structure Recorded (s : State) : Prop where
  interned : s.Interned
  tables : s.Tables s.types.size
  uses : ∀ t, s.Has t → ∀ u ∈ (s.typeInfo t).form.uses, s.Has u
  applied : ∀ t, s.Has t → (s.typeInfo t).form.isApplied

/-- The second state comes after the first by constructions. -/
structure Built (s s' : State) : Prop where
  later : Later s s'
  recorded : s'.Recorded
  scopes : s'.scopes = s.scopes
  symbols : s.symbols.size ≤ s'.symbols.size
  flags : ∀ x < s.symbols.size, (s'.symbol x).flags = (s.symbol x).flags
  interfaces : ∀ x < s.symbols.size, (s.symbol x).flags.meets SymbolFlags.interface = true →
    ∀ t, (s.symbol x).declaredType = some t → (s'.symbol x).declaredType = some t

theorem Built.refl (n : s.Recorded) : s.Built s := ⟨.refl, n, rfl, le_rfl, fun _ _ => rfl, fun _ _ _ _ is => is⟩

theorem Built.trans (first : s.Built s') (second : s'.Built s'') : s.Built s'' where
  later := first.later.trans second.later
  recorded := second.recorded
  scopes := second.scopes.trans first.scopes
  symbols := first.symbols.trans second.symbols
  flags x bound := (second.flags x (Nat.lt_of_lt_of_le bound first.symbols)).trans (first.flags x bound)
  interfaces x bound is t declared := second.interfaces x (Nat.lt_of_lt_of_le bound first.symbols)
    ((first.flags x bound).symm ▸ is) t (first.interfaces x bound is t declared)

theorem Built.extends (n : s.Recorded) (built : s.Built s') : s.Extends s' := (n.interned.along built.later).2

/-- What the step builds. -/
def Builds {α : Type} (s : State) (post : State → α → Prop) (m : Check α) : Prop :=
  ∀ a s', m.run s = .ok (a, s') → s.Built s' ∧ post s' a

section Rules

variable {α β : Type} {P : State → α → Prop} {Q : State → β → Prop} {m : Check α} {f : α → Check β} {a : α}

theorem Builds.pure (n : s.Recorded) (holds : P s a) : s.Builds P (pure a) := by
  intro b s' run
  cases run
  exact ⟨.refl n, holds⟩

theorem Builds.bind (first : s.Builds P m) (next : ∀ a s', s.Built s' → P s' a → s'.Builds Q (f a)) :
    s.Builds Q (m >>= f) := by
  intro b s' run
  obtain ⟨a, s₁, start, rest⟩ := runBind run
  obtain ⟨built, holds⟩ := first a s₁ start
  obtain ⟨built', holds'⟩ := next a s₁ built holds b s' rest
  exact ⟨built.trans built', holds'⟩

/-- A step that only reads. -/
theorem Builds.read (same : m.run s = .ok (a, s)) (next : s.Builds Q (f a)) : s.Builds Q (m >>= f) := by
  intro b s' run
  rw [runThen same] at run
  exact next b s' run

theorem Builds.weaken {R : State → α → Prop} (builds : s.Builds P m) (weaker : ∀ s' a, s.Built s' → P s' a → R s' a) :
    s.Builds R m := by
  intro a s' run
  obtain ⟨built, holds⟩ := builds a s' run
  exact ⟨built, weaker s' a built holds⟩

theorem Builds.fail {e : Fault} : s.Builds P (throw e) := nofun

theorem Builds.mapM {R : State → α → Prop} (lasting : ∀ s s' a, s.Recorded → s.Built s' → R s a → R s' a) {g : β → Check α}
    {xs : List β} (n : s.Recorded) (each : ∀ x ∈ xs, ∀ s', s.Built s' → s'.Builds R (g x)) :
    s.Builds (fun s' as => as.length = xs.length ∧ ∀ a ∈ as, R s' a) (xs.mapM g) := by
  induction xs generalizing s with
  | nil => exact .pure n ⟨rfl, nofun⟩
  | cons x xs ih =>
    rw [List.mapM_cons]
    obtain ⟨first, rest⟩ := List.forall_mem_cons.mp each
    refine .bind (first s (.refl n)) fun a s₁ built holds => ?_
    have others := ih built.recorded fun y member s' built' => rest y member s' (built.trans built')
    refine .bind others fun as s₂ built' ⟨same, all⟩ => ?_
    refine .pure built'.recorded ⟨congrArg (· + 1) same, List.forall_mem_cons.mpr ⟨?_, all⟩⟩
    exact lasting s₁ s₂ a built.recorded built' holds

theorem Builds.forIn {f : β → PUnit → Check (ForInStep PUnit)} {xs : List β} {b : PUnit} (n : s.Recorded)
    (each : ∀ x b s', s.Built s' → s'.Builds (fun _ _ => True) (f x b)) : s.Builds (fun _ _ => True) (forIn xs b f) := by
  induction xs generalizing s b with
  | nil =>
    rw [List.forIn_nil]
    exact .pure n trivial
  | cons x xs ih =>
    rw [List.forIn_cons]
    refine .bind (each x b s (.refl n)) fun step s₁ built _ => ?_
    split
    · exact .pure built.recorded trivial
    · exact ih built.recorded fun x b s' built' => each x b s' (built.trans built')

theorem hasLasting (s s' : State) (t : TypeId) (n : s.Recorded) (built : s.Built s') (has : s.Has t) : s'.Has t :=
  (built.extends n).has t has

end Rules

/-! Making types -/

section Making

variable {info : TypeInfo}

theorem Recorded.push (n : s.Recorded) (interned : s'.Interned) (types : s'.types = s.types.push info)
    (tables : s'.Tables (s.types.size + 1)) (applied : info.form.isApplied) (known : ∀ u ∈ info.form.uses, s.Has u) :
    s'.Recorded where
  interned := interned
  tables := by
    rw [types, Array.size_push]
    exact tables
  uses t has u member := by
    refine (hasPush types u).mpr (.inr ?_)
    rcases (hasPush types t).mp has with rfl | old
    · rw [typeInfoPush types, if_pos rfl] at member
      exact known u member
    · exact n.uses t old u (typeInfoOld types old ▸ member)
  applied t has := by
    rcases (hasPush types t).mp has with rfl | old
    · rwa [typeInfoPush types, if_pos rfl]
    · exact typeInfoOld types old ▸ n.applied t old

theorem builtTypes (does : Constructs s s') (recorded : s'.Recorded) (scopes : s'.scopes = s.scopes)
    (symbols : s'.symbols = s.symbols) : s.Built s' := by
  have same (x : SymbolId) : s'.symbol x = s.symbol x := by rw [State.symbol, State.symbol, symbols]
  refine ⟨.single does, recorded, scopes, symbols ▸ le_rfl, fun x _ => by rw [same], fun x _ _ t is => ?_⟩
  rwa [same]

theorem buildsNew (n : s.Recorded) (declares : s.Declares info) (known : ∀ u ∈ info.form.uses, s.Has u) :
    s.Builds (fun s' t => s'.Has t ∧ s'.typeInfo t = info ∧ s'.symbols = s.symbols) (Check.newType info) := by
  intro t s' run
  have does : Constructs s s' := .declared declares run
  have i' := (n.interned.step does).1
  have applied : info.form.isApplied := by
    revert declares
    unfold Declares
    unfold Form.isApplied
    cases info.form <;> simp
  cases run
  refine ⟨builtTypes does (n.push i' rfl { n.tables.mono (Nat.le_succ _) with } applied known) rfl rfl, ?_, ?_, rfl⟩
  · exact (hasPush rfl _).mpr (.inl rfl)
  · exact (typeInfoPush rfl _).trans (if_pos rfl)

theorem tableBound {K : Type} [BEq K] [LawfulBEq K] [Hashable K] {m : Std.HashMap K TypeId} {k : K} {size : Nat}
    (bound : ∀ (k : K) (t : TypeId), m[k]? = some t → t < size) (k' : K) (t : TypeId) (is : (m.insert k size)[k']? = some t) :
    t < size + 1 := by
  rw [Std.HashMap.getElem?_insert] at is
  split at is
  · cases is
    exact Nat.lt_succ_self size
  · exact Nat.lt_succ_of_lt (bound k' t is)

theorem buildsText (n : s.Recorded) (v : String) : s.Builds Has (Check.textLiteral v) := by
  intro t s' run
  have does : Constructs s s' := .text v run
  have i' := (n.interned.step does).1
  rw [textRun] at run
  split at run <;> cases run
  · next found => exact ⟨.refl n, n.tables.texts _ _ found⟩
  · have tables := n.tables.mono (Nat.le_succ _)
    refine ⟨builtTypes does (n.push i' rfl { tables with texts := tableBound n.tables.texts } rfl (by simp)) rfl rfl, ?_⟩
    exact (hasPush rfl _).mpr (.inl rfl)

theorem buildsNumber (n : s.Recorded) (v : Number) : s.Builds Has (Check.numberLiteral v) := by
  intro t s' run
  have does : Constructs s s' := .number v run
  have i' := (n.interned.step does).1
  rw [numberRun] at run
  split at run <;> cases run
  · next found => exact ⟨.refl n, n.tables.numbers _ _ found⟩
  · have tables := n.tables.mono (Nat.le_succ _)
    refine ⟨builtTypes does (n.push i' rfl { tables with numbers := tableBound n.tables.numbers } rfl (by simp)) rfl rfl, ?_⟩
    exact (hasPush rfl _).mpr (.inl rfl)

theorem buildsArray (n : s.Recorded) (known : s.Has t) : s.Builds Has (Check.arrayOf t) := by
  intro u s' run
  have does : Constructs s s' := .array known run
  have i' := (n.interned.step does).1
  rw [arrayRun] at run
  split at run <;> cases run
  · next found => exact ⟨.refl n, ((n.interned.arrays _ _).mp found).1⟩
  · refine ⟨builtTypes does (n.push i' rfl { n.tables.mono (Nat.le_succ _) with } rfl ?_) rfl rfl, ?_⟩
    · simpa using known
    · exact (hasPush rfl _).mpr (.inl rfl)

theorem buildsReference (n : s.Recorded) (known : ∀ u ∈ t :: types, s.Has u) (applied : 0 < types.length) :
    s.Builds Has (Check.referenceTo t types) := by
  intro u s' run
  have does : Constructs s s' := .reference known run
  have i' := (n.interned.step does).1
  rw [referenceRun] at run
  split at run <;> cases run
  · next found => exact ⟨.refl n, ((n.interned.references _ _ _).mp found).1⟩
  · obtain ⟨u, us, rfl⟩ := List.exists_cons_of_length_pos applied
    refine ⟨builtTypes does (n.push i' rfl { n.tables.mono (Nat.le_succ _) with } rfl known) rfl rfl, ?_⟩
    exact (hasPush rfl _).mpr (.inl rfl)

theorem buildsUnion (n : s.Recorded) (known : ∀ u ∈ types, s.Has u) (name : Option String) :
    s.Builds Has (Check.namedUnion types name) := by
  intro u s' run
  have does : Constructs s s' := .union name known run
  have i' := (n.interned.step does).1
  rw [unionRun] at run
  split at run
  · next single =>
    cases run
    exact ⟨.refl n, (n.interned.classified.shapeSingle known single).1⟩
  · next several =>
    unfold enterUnion at run
    split at run <;> cases run
    · next found => exact ⟨.refl n, ((n.interned.unions _ _ _).mp found).1⟩
    · have canonical := n.interned.classified.shapeCanonical known several
      refine ⟨builtTypes does (n.push i' rfl { n.tables.mono (Nat.le_succ _) with } rfl canonical.known) rfl rfl, ?_⟩
      exact (hasPush rfl _).mpr (.inl rfl)

theorem buildsIntersection (n : s.Recorded) (known : ∀ u ∈ types, s.Has u) : s.Builds Has (Check.intersection types) := by
  intro u s' run
  have does : Constructs s s' := .intersection known run
  have i' := (n.interned.step does).1
  have basic {t : TypeId} (early : t ≤ trueType) {s' : State}
      (is : (pure t : Check TypeId).run s = .ok (u, s')) : s.Built s' ∧ s'.Has u := by
    cases is
    exact ⟨.refl n, n.interned.classified.hasBasic early⟩
  have factors : ∀ t ∈ distinct (types.flatMap s.factors), s.Has t := by
    intro t member
    obtain ⟨p, inside, part⟩ := List.mem_flatMap.mp ((memDistinct _ t).mp member)
    unfold State.factors at part
    split at part
    · next ts form => exact n.uses p (known p inside) t (by rwa [form, Form.uses])
    · exact List.mem_singleton.mp part ▸ known p inside
  simp only [Check.intersection, StateT.run_bind, StateT.run_get, pure_bind] at run
  have kept (p : TypeId → Bool) : ∀ t ∈ (distinct (types.flatMap s.factors)).filter p, s.Has t :=
    fun t member => factors t (List.mem_filter.mp member).1
  replace kept := kept fun t => !(s.typeInfo t).flags.meets TypeFlags.unknown
  generalize (distinct (types.flatMap s.factors)).filter _ = ts at run kept
  split at run
  · exact basic (by decide) run
  split at run
  · exact basic (by decide) run
  split at run
  · exact basic (by decide) run
  split at run
  · exact basic (by decide) run
  · cases run
    exact ⟨.refl n, kept _ (List.mem_singleton_self _)⟩
  · have run := (internRun s (·.intersections[ts.mergeSort (· ≤ ·)]?)
      (fun _ => { flags := TypeFlags.intersection, form := .intersection ts })
      fun id s => { s with intersections := s.intersections.insert (ts.mergeSort (· ≤ ·)) id }).symm.trans run
    split at run <;> cases run
    · next found => exact ⟨.refl n, n.tables.intersections _ _ found⟩
    · have tables := n.tables.mono (Nat.le_succ _)
      have intersections := tableBound (k := ts.mergeSort (· ≤ ·)) n.tables.intersections
      refine ⟨builtTypes does (n.push i' rfl { tables with intersections } rfl kept) rfl rfl, ?_⟩
      exact (hasPush rfl _).mpr (.inl rfl)

end Making

/-! Filling in what is known -/

section Filling

theorem builtElsewhere (n : s.Recorded) (types : s'.types = s.types) (unions : s'.unions = s.unions)
    (arrays : s'.arrays = s.arrays) (references : s'.references = s.references) (symbols : s'.symbols = s.symbols)
    (scopes : s'.scopes = s.scopes) (tables : s'.Tables s.types.size) : s.Built s' := by
  have does : Constructs s s' := .elsewhere types unions arrays references
  have info (t : TypeId) : s'.typeInfo t = s.typeInfo t := by rw [State.typeInfo, State.typeInfo, types]
  have has (t : TypeId) : s'.Has t ↔ s.Has t := by rw [Has, Has, types]
  have i' := (n.interned.step does).1
  refine builtTypes does ⟨i', types ▸ tables, fun t there u member => ?_, fun t there => ?_⟩ scopes symbols
  · rw [info] at member
    exact (has u).mpr (n.uses t ((has t).mp there) u member)
  · rw [info]
    exact n.applied t ((has t).mp there)

theorem buildsError (n : s.Recorded) (mark : Mark) (m : Message) : s.Builds (fun _ _ => True) (Check.error mark m) := by
  intro _ s' run
  cases run
  exact ⟨builtElsewhere n rfl rfl rfl rfl rfl rfl { n.tables with }, trivial⟩

theorem nodeBound {size : Nat} {k : Nat} (bound : ∀ (n : NodeId) (t : TypeId), s.typeNodeTypes[n]? = some t → t < size)
    (new : t < size) (n : NodeId) (u : TypeId) (is : (s.typeNodeTypes.insert k t)[n]? = some u) : u < size := by
  rw [Std.HashMap.getElem?_insert] at is
  split at is
  · cases is
    exact new
  · exact bound n u is

theorem buildsNode (n : s.Recorded) (known : s.Has t) (k : NodeId) : s.Builds (fun _ _ => True)
    (modify fun s => { s with typeNodeTypes := s.typeNodeTypes.insert k t } : Check Unit) := by
  intro _ s' run
  cases run
  exact ⟨builtElsewhere n rfl rfl rfl rfl rfl rfl { n.tables with nodes := nodeBound n.tables.nodes known }, trivial⟩

theorem instanceBound {size : Nat} {k : TypeId × List (TypeId × TypeId)}
    (bound : ∀ (k : TypeId × List (TypeId × TypeId)) (t : TypeId), s.instances[k]? = some t → t < size) (new : t < size)
    (k' : TypeId × List (TypeId × TypeId)) (u : TypeId) (is : (s.instances.insert k t)[k']? = some u) : u < size := by
  rw [Std.HashMap.getElem?_insert] at is
  split at is
  · cases is
    exact new
  · exact bound k' u is

theorem buildsInstance (n : s.Recorded) (known : s.Has t) (k : TypeId × List (TypeId × TypeId)) : s.Builds (fun _ _ => True)
    (modify fun s => { s with instances := s.instances.insert k t } : Check Unit) := by
  intro _ s' run
  cases run
  have bound := instanceBound (k := k) n.tables.instances known
  exact ⟨builtElsewhere n rfl rfl rfl rfl rfl rfl { n.tables with instances := bound }, trivial⟩

theorem typeInfoModify (s : State) (t : TypeId) (f : TypeInfo → TypeInfo) (u : TypeId) :
    State.typeInfo { s with types := s.types.modify t f } u = s.typeInfo u ∨
      (u = t ∧ State.typeInfo { s with types := s.types.modify t f } u = f (s.typeInfo u)) := by
  simp only [State.typeInfo, Array.getD_eq_getD_getElem?, Array.getElem?_modify]
  by_cases same : t = u
  · subst same
    cases there : s.types[t]? with
    | none => simp
    | some info => exact .inr ⟨rfl, by simp⟩
  · exact .inl (by rw [if_neg same])

theorem buildsDetail (n : s.Recorded) {f : TypeInfo → TypeInfo} (revises : (s.typeInfo t).Revises (f (s.typeInfo t)))
    (known : ∀ u ∈ (f (s.typeInfo t)).form.uses, s.Has u) : s.Builds (fun _ _ => True) (Check.modifyType t f) := by
  intro _ s' run
  have does : Constructs s s' := .revised revises run
  have i' := (n.interned.step does).1
  cases run
  have tables : State.Tables { s with types := s.types.modify t f } s.types.size := { n.tables with }
  have same (u : TypeId) : State.Has { s with types := s.types.modify t f } u ↔ s.Has u := by simp [Has]
  have applied (old : s.Has t) : (f (s.typeInfo t)).form.isApplied := by
    by_cases opened : (s.typeInfo t).form.isOpen
    · exact appliedOpen (revises.opened opened)
    · exact (revises.closed (by simpa using opened)).1 ▸ n.applied t old
  refine ⟨builtTypes does ⟨i', by simpa using tables, fun u has v member => ?_, fun u has => ?_⟩ rfl rfl, trivial⟩
  all_goals have old := (same u).mp has
  · rw [same]
    rcases typeInfoModify s t f u with info | ⟨rfl, info⟩
    · exact n.uses u old v (info ▸ member)
    · exact known v (info ▸ member)
  · rcases typeInfoModify s t f u with info | ⟨rfl, info⟩
    · exact info ▸ n.applied u old
    · exact info ▸ applied old

theorem symbolMissing (outside : ¬x < s.symbols.size) : s.symbol x = { flags := 0, name := "" } := by
  rw [State.symbol, Array.getD_eq_getD_getElem?, Array.getElem?_eq_none (Nat.le_of_not_lt outside), Option.getD_none]

/-- What may be filled in of a symbol. -/
structure Fills (s : State) (old new : Symbol) : Prop where
  flags : new.flags = old.flags
  declared : ∀ t, new.declaredType = some t → s.Has t
  parameters : ∀ t ∈ new.typeParameters, s.Has t
  interfaces : old.flags.meets SymbolFlags.interface = true → ∀ t, old.declaredType = some t → new.declaredType = some t

theorem buildsSymbol (n : s.Recorded) {f : Symbol → Symbol} (fills : s.Fills (s.symbol x) (f (s.symbol x))) :
    s.Builds (fun s' _ => (∀ y ≠ x, s'.symbol y = s.symbol y) ∧ (x < s.symbols.size → s'.symbol x = f (s.symbol x)))
      (Check.modifySymbol x f) := by
  intro _ s' run
  have does : Constructs s s' := by
    cases run
    exact .elsewhere rfl rfl rfl rfl
  have i' := (n.interned.step does).1
  cases run
  have other (y : SymbolId) (unlike : y ≠ x) : State.symbol { s with symbols := s.symbols.modify x f } y = s.symbol y := by
    rw [symbolModify, if_neg fun both => unlike both.1.symm]
  have filled : s.Fills (s.symbol x) (State.symbol { s with symbols := s.symbols.modify x f } x) := by
    rw [symbolModify]
    split
    · exact fills
    · exact ⟨rfl, n.tables.declared x, n.tables.parameters x, fun _ _ => id⟩
  have each (y : SymbolId) : s.Fills (s.symbol y) (State.symbol { s with symbols := s.symbols.modify x f } y) := by
    by_cases same : y = x
    · exact same ▸ filled
    · rw [other y same]
      exact ⟨rfl, n.tables.declared y, n.tables.parameters y, fun _ _ => id⟩
  have tables : State.Tables { s with symbols := s.symbols.modify x f } s.types.size :=
    { n.tables with
      declared := fun y => (each y).declared
      parameters := fun y => (each y).parameters }
  have recorded : State.Recorded { s with symbols := s.symbols.modify x f } := ⟨i', tables, n.uses, n.applied⟩
  refine ⟨⟨.single does, recorded, rfl, by simp, fun y _ => (each y).flags, fun y _ => (each y).interfaces⟩, other, fun bound => ?_⟩
  rw [symbolModify, if_pos ⟨rfl, bound⟩]

theorem buildsNewSymbol (n : s.Recorded) {new : Symbol} (declared : new.declaredType = none)
    (parameters : new.typeParameters = []) :
    s.Builds (fun s' x => x = s.symbols.size ∧ s'.symbol x = new ∧ ∀ y < s.symbols.size, s'.symbol y = s.symbol y)
      (Check.newSymbol new) := by
  intro x s' run
  have does : Constructs s s' := by
    cases run
    exact .elsewhere rfl rfl rfl rfl
  have i' := (n.interned.step does).1
  cases run
  have symbols (y : SymbolId) : State.symbol { s with symbols := s.symbols.push new } y =
      if y = s.symbols.size then new else s.symbol y := by
    simp only [State.symbol, Array.getD_eq_getD_getElem?, Array.getElem?_push]
    split <;> rfl
  have old (y : SymbolId) (bound : y < s.symbols.size) :
      State.symbol { s with symbols := s.symbols.push new } y = s.symbol y := by
    rw [symbols, if_neg (Nat.ne_of_lt bound)]
  have tables : State.Tables { s with symbols := s.symbols.push new } s.types.size :=
    { n.tables with
      declared := fun y t is => by
        rw [symbols] at is
        split at is
        · cases declared.symm.trans is
        · exact n.tables.declared y t is
      parameters := fun y t member => by
        rw [symbols] at member
        split at member
        · rw [parameters] at member
          cases member
        · exact n.tables.parameters y t member }
  have recorded : State.Recorded { s with symbols := s.symbols.push new } := ⟨i', tables, n.uses, n.applied⟩
  refine ⟨⟨.single does, recorded, rfl, by simp, fun y bound => ?_, fun y bound _ t is => ?_⟩, rfl, ?_, old⟩
  · rw [old y bound]
  · rw [old y bound, is]
  · rw [symbols, if_pos rfl]

end Filling

end State

/-! Questions about written types -/

open State

/-- Answers that build types. -/
structure Queries.Builds (q : Queries) : Prop where
  declared : ∀ s : State, s.Recorded → ∀ x, s.Builds Has (q.declaredType x)
  node : ∀ s : State, s.Recorded → ∀ node scope, (∀ p ∈ scope, s.Has p.2) → s.Builds Has (q.typeOfNode node scope)
  instances : ∀ s : State, s.Recorded → ∀ t mapper, s.Has t → (∀ p ∈ mapper, s.Has p.2) →
    s.Builds Has (q.instantiate t mapper)

namespace Queries

variable {q : Queries} {s : State} {t : TypeId} {x : SymbolId} {scope : TypeScope} {mapper : Mapper}

theorem Builds.nodes (b : q.Builds) (n : s.Recorded) (known : ∀ p ∈ scope, s.Has p.2) (nodes : List TypeNode) :
    s.Builds (fun s' ts => ts.length = nodes.length ∧ ∀ t ∈ ts, s'.Has t) (nodes.mapM (q.typeOfNode · scope)) :=
  .mapM hasLasting n fun node _ s' built => b.node s' built.recorded node scope fun p member =>
    (built.extends n).has p.2 (known p member)

theorem Builds.parts (b : q.Builds) (n : s.Recorded) (known : ∀ p ∈ mapper, s.Has p.2) {types : List TypeId}
    (has : ∀ t ∈ types, s.Has t) : s.Builds (fun s' ts => ts.length = types.length ∧ ∀ t ∈ ts, s'.Has t)
      (types.mapM (q.instantiate · mapper)) :=
  .mapM hasLasting n fun t member s' built => b.instances s' built.recorded t mapper ((built.extends n).has t (has t member))
    fun p inside => (built.extends n).has p.2 (known p inside)

theorem lookupMem {α β : Type} [BEq α] [LawfulBEq α] {ps : List (α × β)} {a : α} {b : β} (found : ps.lookup a = some b) :
    (a, b) ∈ ps := by
  obtain ⟨before, after, rfl, -⟩ := List.lookup_eq_some_iff.mp found
  simp

theorem instanceBuilds (n : s.Recorded) (has : s.Has t) (known : ∀ p ∈ mapper, s.Has p.2) :
    s.Builds Has (Check.anonymousInstance t mapper) := by
  unfold Check.anonymousInstance
  refine .read (a := s) rfl ?_
  dsimp only
  split
  · next existing found => exact .pure n (n.tables.instances _ _ found)
  refine .read (a := s.typeInfo t) rfl ?_
  have uses : ∀ u ∈ t :: mapper.map (·.2), s.Has u := by
    refine List.forall_mem_cons.mpr ⟨has, fun u member => ?_⟩
    obtain ⟨p, inside, rfl⟩ := List.mem_map.mp member
    exact known p inside
  refine .bind (buildsNew n (.inr (.inr rfl)) uses) fun u s₁ built made => ?_
  refine .bind (buildsInstance built.recorded made.1 _) fun _ _ built' _ => ?_
  exact .pure built'.recorded ((built'.extends built.recorded).has u made.1)

theorem computeInstanceBuilds (b : q.Builds) (n : s.Recorded) (has : s.Has t) (known : ∀ p ∈ mapper, s.Has p.2) :
    s.Builds Has (q.computeInstance t mapper) := by
  unfold computeInstance
  split
  · exact .pure n has
  refine .read (a := s.typeInfo t) rfl ?_
  have uses := n.uses t has
  dsimp only
  cases form : (s.typeInfo t).form with
  | typeParameter =>
    refine .pure n ?_
    cases found : mapper.lookup t with
    | none => exact has
    | some u => exact known _ (lookupMem found)
  | union types =>
    rw [form] at uses
    exact .bind (b.parts n known uses) fun ts s₁ built ⟨_, all⟩ => buildsUnion built.recorded all _
  | intersection types =>
    rw [form] at uses
    exact .bind (b.parts n known uses) fun ts s₁ built ⟨_, all⟩ => buildsIntersection built.recorded all
  | array element =>
    rw [form] at uses
    exact .bind (b.instances s n element mapper (uses _ (List.mem_singleton_self _)) known) fun u s₁ built has =>
      buildsArray built.recorded has
  | reference target args =>
    rw [form] at uses
    obtain ⟨hasTarget, hasArgs⟩ := List.forall_mem_cons.mp uses
    have applied : 0 < args.length := by
      cases args with
      | nil => cases form ▸ n.applied t has
      | cons => exact Nat.zero_lt_succ _
    refine .bind (b.parts n known hasArgs) fun ts s₁ built ⟨same, all⟩ => buildsReference built.recorded ?_ (same ▸ applied)
    exact List.forall_mem_cons.mpr ⟨(built.extends n).has target hasTarget, all⟩
  | anonymous a =>
    rw [form] at uses
    dsimp only
    split
    · exact .pure n has
    cases target : a.target with
    | none => exact instanceBuilds n has known
    | some u =>
      rw [Form.uses, target, Option.toList_some, List.singleton_append] at uses
      obtain ⟨hasTarget, hasValues⟩ := List.forall_mem_cons.mp uses
      have pair (p : TypeId × TypeId) (member : p ∈ a.mapper) (s' : State) (built : s.Built s') :
          s'.Builds (fun s' (p : TypeId × TypeId) => s'.Has p.2) (do return (p.1, ← q.instantiate p.2 mapper)) := by
        have value := (built.extends n).has p.2 (hasValues _ (List.mem_map_of_mem member))
        have known' (p : TypeId × TypeId) (inside : p ∈ mapper) := (built.extends n).has p.2 (known p inside)
        exact .bind (b.instances s' built.recorded p.2 mapper value known') fun _ _ built' has => .pure built'.recorded has
      have lasting (s s' : State) (p : TypeId × TypeId) (n : s.Recorded) (built : s.Built s') (has : s.Has p.2) : s'.Has p.2 :=
        (built.extends n).has p.2 has
      refine .bind (.mapM lasting n pair) fun combined s₁ built ⟨_, all⟩ => ?_
      exact instanceBuilds built.recorded ((built.extends n).has u hasTarget) all
  | _ => exact .pure n has

/-! Annotations -/

theorem intrinsicEarly (name : String) : ∀ t ∈ intrinsicType? name, t ≤ trueType := by
  unfold intrinsicType?
  split <;> simp <;> decide

theorem reportsBuild (n : s.Recorded) (has : s.Has t) (mark : Mark) (m : Message) :
    s.Builds Has (do Check.error mark m; return t) :=
  .bind (buildsError n mark m) fun _ _ built _ => .pure built.recorded ((built.extends n).has t has)

theorem paramNameBuilds (n : s.Recorded) (p : TypeId) : s.Builds (fun _ _ => True) (namedType.paramName p) := by
  unfold namedType.paramName
  refine .read (a := s.typeInfo p) rfl ?_
  split
  · next x _ => exact .read (a := s.symbol x) rfl (.pure n trivial)
  · exact .pure n trivial

theorem namedTypeBuilds (b : q.Builds) (n : s.Recorded) (known : ∀ p ∈ scope, s.Has p.2) (mark : Mark) (name : String)
    (args : List TypeNode) : s.Builds Has (q.namedType mark name args scope) := by
  have error {s : State} (n : s.Recorded) : s.Has errorType := n.interned.classified.hasBasic (by decide)
  unfold namedType
  split
  case h_1 t found =>
    have has : s.Has t := by
      rcases Option.or_eq_some_iff.mp found with inScope | ⟨-, word⟩
      · exact known _ (lookupMem inScope)
      · exact n.interned.classified.hasBasic (intrinsicEarly name t word)
    dsimp only
    split
    · exact .pure n has
    · exact reportsBuild n has _ _
  case h_2 =>
    refine .read (a := s.resolve name SymbolFlags.type (globalScope + 1) globalScope) rfl ?_
    split
    case h_1 =>
      refine .read (a := s.resolve name SymbolFlags.value (globalScope + 1) globalScope) rfl ?_
      dsimp only
      split <;> exact reportsBuild n (error n) _ _
    case h_2 x found =>
      refine .bind (b.declared s n x) fun t s₁ built has => ?_
      refine .read (a := s₁.symbol x) rfl ?_
      have known₁ (p : String × TypeId) (member : p ∈ scope) := (built.extends n).has p.2 (known p member)
      have params : ∀ p ∈ (s₁.symbol x).typeParameters, s₁.Has p := built.recorded.tables.parameters x
      revert params
      generalize (s₁.symbol x).typeParameters = params
      intro hasParams
      refine .bind (b.nodes built.recorded known₁ args) fun types s₂ built' made => ?_
      have all := made.2
      have e := built'.extends built.recorded
      split
      · split
        · exact .pure built'.recorded (e.has t has)
        · exact reportsBuild built'.recorded (error built'.recorded) _ _
      next several =>
      split
      · refine .bind (.mapM (fun _ _ _ _ _ => id) built'.recorded fun p _ s' built => paramNameBuilds built.recorded p) ?_
        exact fun names s₃ built _ => reportsBuild built.recorded (error built.recorded) _ _
      next same =>
      have applied : 0 < types.length := by
        rw [not_not.mp same]
        exact List.length_pos_of_ne_nil fun none => several (by rw [none]; rfl)
      refine .read (a := (s₂.typeInfo t).form) rfl ?_
      split
      · exact buildsReference built'.recorded (List.forall_mem_cons.mpr ⟨e.has t has, all⟩) applied
      · refine b.instances s₂ built'.recorded t _ (e.has t has) fun p member => ?_
        exact all p.2 (List.of_mem_zip member).2

theorem anonymousBuilds (n : s.Recorded) (a : Anonymous) (plain : a.target.toList ++ a.mapper.map (·.2) = []) :
    s.Builds Has (Check.newType { flags := TypeFlags.object, form := .anonymous a }) := by
  have declares : s.Declares { flags := TypeFlags.object, form := .anonymous a } := .inr (.inr rfl)
  refine (buildsNew n declares fun u member => ?_).weaken fun _ _ _ made => made.1
  rw [Form.uses, plain] at member
  cases member

theorem computeAnnotationBuilds (b : q.Builds) (n : s.Recorded) (known : ∀ p ∈ scope, s.Has p.2) (node : TypeNode) :
    s.Builds Has (q.computeAnnotation node scope) := by
  unfold computeAnnotation
  split
  · exact namedTypeBuilds b n known _ _ _
  · exact .bind (b.node s n _ scope known) fun t s₁ built has => buildsArray built.recorded has
  · exact .bind (b.nodes n known _) fun ts s₁ built made => buildsUnion built.recorded made.2 none
  · exact .bind (b.nodes n known _) fun ts s₁ built made => buildsIntersection built.recorded made.2
  · next b => exact .pure n (n.interned.classified.hasBasic (by cases b <;> decide))
  · exact buildsText n _
  · exact buildsNumber n _
  all_goals exact anonymousBuilds n { node := some _, typeScope := scope } (by simp)

theorem annotationBuilds (b : q.Builds) (n : s.Recorded) (known : ∀ p ∈ scope, s.Has p.2) (node : TypeNode) :
    s.Builds Has (q.annotation node scope) := by
  unfold annotation
  refine .read (a := s) rfl ?_
  split
  · next t found => exact .pure n (n.tables.nodes _ _ found)
  · refine .bind (computeAnnotationBuilds b n known node) fun t s₁ built has => ?_
    refine .bind (buildsNode built.recorded has _) fun _ s₂ built' _ => ?_
    exact .pure built'.recorded ((built'.extends built.recorded).has t has)

/-! Declarations -/

theorem typeParameterBuilds (n : s.Recorded) (p : TypeParam) :
    s.Builds (fun s' t => (s'.Has t ∧ (s'.typeInfo t).form.isOpen) ∧ ∀ y < s.symbols.size, s'.symbol y = s.symbol y) (do
      let x ← Check.newSymbol { flags := SymbolFlags.typeParameter, name := p.name, declarations := [.typeParam p] }
      let t ← Check.newType { flags := TypeFlags.typeParameter, form := .typeParameter none, symbol := some x }
      Check.modifySymbol x fun s => { s with declaredType := some t }
      return t) := by
  refine .bind (buildsNewSymbol n rfl rfl) fun x s₁ built made => ?_
  obtain ⟨is, own, old⟩ := made
  have declares : s₁.Declares { flags := TypeFlags.typeParameter, form := .typeParameter none, symbol := some x } :=
    .inr (.inl rfl)
  refine .bind (buildsNew built.recorded declares (by simp)) fun t s₂ built' made => ?_
  obtain ⟨has, info, symbols⟩ := made
  have same (y : SymbolId) : s₂.symbol y = s₁.symbol y := by rw [State.symbol, State.symbol, symbols]
  have fills : s₂.Fills (s₂.symbol x) { s₂.symbol x with declaredType := some t } := by
    refine ⟨rfl, fun u is => ?_, built'.recorded.tables.parameters x, fun _ u is => ?_⟩
    · cases is
      exact has
    · rw [same, own] at is
      cases is
  refine .bind (buildsSymbol built'.recorded fills) fun _ s₃ built'' filled => ?_
  have other := filled.1
  have e := built''.extends built'.recorded
  refine .pure built''.recorded ⟨⟨e.has t has, (e.revises t has).opened (by rw [info]; rfl)⟩, fun y bound => ?_⟩
  rw [other y fun same => absurd bound (by rw [same, is]; exact lt_irrefl _), same, old y bound]

theorem typeParametersBuild (n : s.Recorded) (params : List TypeParam) :
    s.Builds (fun s' ts => (∀ t ∈ ts, s'.Has t ∧ (s'.typeInfo t).form.isOpen) ∧
      ∀ y < s.symbols.size, s'.symbol y = s.symbol y) (Check.newTypeParameters params) := by
  unfold Check.newTypeParameters
  induction params generalizing s with
  | nil => exact .pure n ⟨nofun, fun _ _ => rfl⟩
  | cons p ps ih =>
    rw [List.mapM_cons]
    refine .bind (typeParameterBuilds n p) fun t s₁ built ⟨⟨has, opened⟩, kept⟩ => ?_
    refine .bind (ih built.recorded) fun ts s₂ built' ⟨all, kept'⟩ => ?_
    have e := built'.extends built.recorded
    have both := List.forall_mem_cons.mpr ⟨⟨e.has t has, (e.revises t has).opened opened⟩, all⟩
    refine .pure built'.recorded ⟨both, fun y bound => ?_⟩
    rw [kept' y (Nat.lt_of_lt_of_le bound built.symbols), kept y bound]

theorem boundsBuild (b : q.Builds) (n : s.Recorded) (known : ∀ p ∈ scope, s.Has p.2) (params : List TypeParam)
    {types : List TypeId} (opened : ∀ t ∈ types, s.Has t ∧ (s.typeInfo t).form.isOpen) :
    s.Builds (fun _ _ => True) (q.boundTypeParameters scope params types) := by
  induction params generalizing s types with
  | nil => exact .pure n trivial
  | cons p ps ih =>
    cases types with
    | nil => exact .pure n trivial
    | cons t ts =>
      obtain ⟨first, others⟩ := List.forall_mem_cons.mp opened
      have rest (s' : State) (built : s.Built s') : s'.Builds (fun _ _ => True) (q.boundTypeParameters scope ps ts) := by
        have e := built.extends n
        refine ih built.recorded (fun p member => e.has p.2 (known p member)) fun t member => ?_
        exact ⟨e.has t (others t member).1, (e.revises t (others t member).1).opened (others t member).2⟩
      unfold boundTypeParameters
      cases p.constraint with
      | none => exact rest s (.refl n)
      | some node =>
        refine .bind (b.node s n node scope known) fun bound s₁ built has => ?_
        have e := built.extends n
        have still := (e.revises t first.1).opened first.2
        refine .bind (buildsDetail built.recorded ?_ ?_) fun _ s₂ built' _ => rest s₂ (built.trans built')
        · exact ⟨rfl, fun closed => absurd closed (by simp [still]), fun _ => rfl⟩
        · simp

theorem scopeKnown (params : List TypeParam) {types : List TypeId} (has : ∀ t ∈ types, s.Has t) :
    ∀ p ∈ typeScopeOf params types, s.Has p.2 := by
  intro p member
  exact has p.2 (List.of_mem_zip (List.mem_reverse.mp member)).2

theorem declareInterfaceBuilds (b : q.Builds) (n : s.Recorded) (bound : x < s.symbols.size)
    (is : (s.symbol x).flags.meets SymbolFlags.interface = true) (fresh : (s.symbol x).declaredType = none) :
    s.Builds (fun s' t => s'.Has t ∧ (s'.symbol x).declaredType = some t) (q.declareInterface x) := by
  unfold declareInterface
  refine .read (a := s.symbol x) rfl ?_
  dsimp only
  generalize Option.getD _ [] = params
  have declares : s.Declares { flags := TypeFlags.object, form := .interface [], symbol := some x } := .inr (.inr rfl)
  refine .bind (buildsNew n declares (by simp)) fun t s₁ built₁ made => ?_
  obtain ⟨has, info, symbols⟩ := made
  refine .bind (typeParametersBuild built₁.recorded params) fun types s₂ built₂ made => ?_
  obtain ⟨opened, kept⟩ := made
  have same : s₂.symbol x = s.symbol x := by
    rw [kept x (Nat.lt_of_lt_of_le bound built₁.symbols), State.symbol, symbols]
    rfl
  have bound₂ := Nat.lt_of_lt_of_le bound (built₁.trans built₂).symbols
  have e₂ := built₂.extends built₁.recorded
  -- The type is filled in before the bounds are looked at, so questions that these lead to find it.
  have fills : s₂.Fills (s₂.symbol x) { s₂.symbol x with declaredType := some t, typeScope := typeScopeOf params types } := by
    refine ⟨rfl, fun u is => ?_, built₂.recorded.tables.parameters x, fun _ u is => ?_⟩
    · cases is
      exact e₂.has t has
    · rw [same, fresh] at is
      cases is
  refine .bind (buildsSymbol built₂.recorded fills) fun _ s₃ built₃ filled => ?_
  have own := filled.2 bound₂
  have e₃ := built₃.extends built₂.recorded
  have opened₃ (u : TypeId) (member : u ∈ types) : s₃.Has u ∧ (s₃.typeInfo u).form.isOpen :=
    ⟨e₃.has u (opened u member).1, (e₃.revises u (opened u member).1).opened (opened u member).2⟩
  have known := scopeKnown params fun u member => (opened₃ u member).1
  refine .bind (boundsBuild b built₃.recorded known params opened₃) fun _ s₄ built₄ _ => ?_
  have e₄ := e₂.trans (e₃.trans (built₄.extends built₃.recorded))
  have still := (e₄.revises t has).opened (by rw [info]; rfl)
  refine .bind (buildsDetail built₄.recorded ⟨rfl, fun closed => absurd closed (by simp [still]), fun _ => rfl⟩ (by simp))
    fun _ s₅ built₅ _ => ?_
  have e₅ := built₅.extends built₄.recorded
  have hasTypes (u : TypeId) (member : u ∈ types) : s₅.Has u :=
    e₅.has u ((built₄.extends built₃.recorded).has u (opened₃ u member).1)
  have fills₅ : s₅.Fills (s₅.symbol x) { s₅.symbol x with typeParameters := types } :=
    ⟨rfl, built₅.recorded.tables.declared x, hasTypes, fun _ _ => id⟩
  refine .bind (buildsSymbol built₅.recorded fills₅) fun _ s₆ built₆ _ => ?_
  refine .pure built₆.recorded ⟨(built₆.extends built₅.recorded).has t (e₅.has t (e₄.has t has)), ?_⟩
  -- What an interface was declared as is never replaced, whatever the bounds led to.
  have rest := built₄.trans (built₅.trans built₆)
  refine rest.interfaces x (Nat.lt_of_lt_of_le bound₂ built₃.symbols) ?_ t (by rw [own])
  rw [own, same]
  exact is

theorem liftBuilds {α : Type} (n : s.Recorded) (e : Except Fault α) :
    s.Builds (fun _ _ => True) (liftM e : Check α) := by
  intro a s' run
  cases e with
  | error => cases run
  | ok =>
    cases run
    exact ⟨.refl n, trivial⟩

theorem memberValueBuilds (n : s.Recorded) (t : TypeId) (name : String) :
    s.Builds (fun _ _ => True) (memberValue? t name) := by
  unfold memberValue?
  refine .read (a := (s.typeInfo t).form) rfl ?_
  split
  · exact .read (a := s) rfl (.pure n trivial)
  · exact .pure n trivial

theorem constantBuilds (b : q.Builds) (n : s.Recorded) (self : SymbolId) (e : Source.Expr) :
    s.Builds (fun _ _ => True) (q.constantValue self t e) := by
  fun_induction q.constantValue self t e generalizing s with
  | case1 | case4 | case5 | case9 => exact .pure n trivial
  | case2 _ _ ih => exact .bind (ih n) fun _ _ built _ => .pure built.recorded trivial
  | case3 _ _ ih => exact ih n
  | case6 _ _ _ _ _ left right =>
    refine .bind (left n) fun a s₁ built _ => .bind (right built.recorded) fun b s₂ built' _ => ?_
    split
    · split
      · exact .bind (liftBuilds built'.recorded _) fun _ _ built _ => .pure built.recorded trivial
      · exact .pure built'.recorded trivial
    · exact .pure built'.recorded trivial
  | case7 => exact memberValueBuilds n _ _
  | case8 =>
    refine .read (a := s) rfl ?_
    split
    · exact .pure n trivial
    next other _ =>
    refine .read (a := s.symbol other) rfl ?_
    split
    · exact .pure n trivial
    split
    · exact memberValueBuilds n _ _
    · exact .bind (b.declared s n other) fun _ _ built _ => memberValueBuilds built.recorded _ _

theorem initialBuilds (b : q.Builds) (n : s.Recorded) (self : SymbolId) (next : Number) (init : Option Source.Expr) :
    s.Builds (fun _ _ => True) (q.initialValue self t next init) := by
  unfold initialValue
  split
  · exact .pure n trivial
  · refine .bind (constantBuilds b n self _) fun _ s₁ built _ => ?_
    split
    · exact .pure built.recorded trivial
    · exact .bind (buildsError built.recorded _ _) fun _ _ built _ => .pure built.recorded trivial

theorem addEnumMembersBuilds (b : q.Builds) (n : s.Recorded) (has : s.Has t) (flags : s.flagsAt t = TypeFlags.enum)
    (self : SymbolId) (next : Number) (members : List Source.EnumMember) :
    s.Builds (fun _ _ => True) (q.addEnumMembers self t next members) := by
  induction members generalizing s next with
  | nil => exact .pure n trivial
  | cons m rest ih =>
    obtain ⟨mark, name, init⟩ := m
    have others {s' : State} (built : s.Built s') (next : Number) :
        s'.Builds (fun _ _ => True) (q.addEnumMembers self t next rest) := by
      have e := built.extends n
      exact ih built.recorded (e.has t has) ((e.flagsAt has).trans flags) next
    unfold addEnumMembers
    refine .read (a := (s.typeInfo t).form) rfl (.read (a := s) rfl ?_)
    extract_lets isTaken
    split
    · exact .bind (buildsError n _ _) fun _ _ built _ => others built next
    refine .bind (initialBuilds b n self next init) fun value s₁ built₁ _ => ?_
    extract_lets value
    refine .bind (buildsNewSymbol built₁.recorded rfl rfl) fun y s₂ built₂ _ => ?_
    have e₂ := (built₁.trans built₂).extends n
    have declares : s₂.Declares
        { flags := TypeFlags.enumLiteral ||| TypeFlags.numberLiteral, form := .enumLiteral value t, symbol := some y } :=
      ⟨rfl, e₂.has t has, (e₂.flagsAt has).trans flags⟩
    refine .bind (buildsNew built₂.recorded declares (by simp)) fun u s₃ built₃ _ => ?_
    have fills : s₃.Fills (s₃.symbol y) { s₃.symbol y with type := some u } :=
      ⟨rfl, built₃.recorded.tables.declared y, built₃.recorded.tables.parameters y, fun _ _ => id⟩
    refine .bind (buildsSymbol built₃.recorded fills) fun _ s₄ built₄ _ => ?_
    have uses := built₄.recorded.uses t (((built₃.trans built₄).extends built₂.recorded).has t (e₂.has t has))
    refine .bind (buildsDetail built₄.recorded ⟨rfl, ?_, ?_⟩ ?_) fun _ s₅ built₅ _ => ?_
    case refine_4 =>
      refine .bind (liftBuilds built₅.recorded _) fun next s₆ built₆ _ => ?_
      exact others (built₁.trans (built₂.trans (built₃.trans (built₄.trans (built₅.trans built₆))))) next
    all_goals revert uses
    all_goals cases (s₄.typeInfo t).form <;> simp [Form.isOpen]

theorem declareEnumBuilds (b : q.Builds) (n : s.Recorded) (other : (s.symbol x).flags.meets SymbolFlags.interface = false) :
    s.Builds Has (q.declareEnum x) := by
  unfold declareEnum
  have declares : s.Declares { flags := TypeFlags.enum, form := .enum [], symbol := some x } := .inl rfl
  refine .bind (buildsNew n declares (by simp)) fun t s₁ built₁ ⟨has, info, symbols⟩ => ?_
  have same : s₁.symbol x = s.symbol x := by rw [State.symbol, State.symbol, symbols]
  have fills : s₁.Fills (s₁.symbol x) { s₁.symbol x with declaredType := some t } := by
    refine ⟨rfl, fun u is => ?_, built₁.recorded.tables.parameters x, fun is => ?_⟩
    · cases is
      exact has
    · rw [same, other] at is
      cases is
  refine .bind (buildsSymbol built₁.recorded fills) fun _ s₂ built₂ _ => ?_
  refine .read (a := s₂.symbol x) rfl ?_
  have e₂ := built₂.extends built₁.recorded
  have flags : s₁.flagsAt t = TypeFlags.enum := by rw [flagsAt, info]
  refine .bind (.forIn built₂.recorded fun d _ s₃ built₃ => ?_) fun _ s₄ built₄ _ => ?_
  · have e₃ := e₂.trans (built₃.extends built₂.recorded)
    split
    · refine .bind (addEnumMembersBuilds b built₃.recorded (e₃.has t has) ((e₃.flagsAt has).trans flags) _ _ _) ?_
      exact fun _ s₄ built₄ _ => .pure built₄.recorded trivial
    · exact .pure built₃.recorded trivial
  · exact .pure built₄.recorded ((built₄.extends built₂.recorded).has t (e₂.has t has))

theorem aliasedBuilds (b : q.Builds) (n : s.Recorded) (known : ∀ p ∈ scope, s.Has p.2) (name : String) (node : TypeNode) :
    s.Builds Has (q.aliasedType name node scope) := by
  unfold aliasedType
  split
  · refine .bind (b.nodes n known _) fun ts s₁ built₁ made => ?_
    refine .bind (buildsUnion built₁.recorded made.2 _) fun t s₂ built₂ has => ?_
    refine .bind (buildsNode built₂.recorded has _) fun _ s₃ built₃ _ => ?_
    exact .pure built₃.recorded ((built₃.extends built₂.recorded).has t has)
  · refine .bind (b.node s n _ scope known) fun t s₁ built₁ has => ?_
    refine .read (a := s₁.typeInfo t) rfl ?_
    have uses := built₁.recorded.uses t has
    revert uses
    dsimp only
    cases form : (s₁.typeInfo t).form with
    | anonymous a =>
      intro uses
      dsimp only
      split
      · refine .bind (buildsDetail built₁.recorded ⟨rfl, fun closed => ?_, id⟩ (by rwa [form])) fun _ s₂ built₂ _ => ?_
        · rw [form] at closed
          cases closed
        · exact .pure built₂.recorded ((built₂.extends built₁.recorded).has t has)
      · exact .pure built₁.recorded has
    | _ => exact fun _ => .pure built₁.recorded has

theorem otherFills {s' : State} (new : Symbol) (built : s.Built s') (bound : x < s.symbols.size)
    (other : (s.symbol x).flags.meets SymbolFlags.interface = false) (flags : new.flags = (s'.symbol x).flags)
    (declared : ∀ t, new.declaredType = some t → s'.Has t) (parameters : ∀ t ∈ new.typeParameters, s'.Has t) :
    s'.Fills (s'.symbol x) new := by
  refine ⟨flags, declared, parameters, fun is => ?_⟩
  rw [built.flags x bound, other] at is
  cases is

theorem declareAliasBuilds (b : q.Builds) (n : s.Recorded) (other : (s.symbol x).flags.meets SymbolFlags.interface = false) :
    s.Builds Has (q.declareAlias x) := by
  have error {s : State} (n : s.Recorded) : s.Has errorType := n.interned.classified.hasBasic (by decide)
  unfold declareAlias
  refine .read (a := s.symbol x) rfl ?_
  split
  · exact .pure n (error n)
  next params node found =>
  have bound : x < s.symbols.size := by
    by_contra outside
    rw [symbolMissing outside] at found
    cases found
  refine .bind (typeParametersBuild n params) fun types s₁ built₁ made => ?_
  have opened := made.1
  have fills₁ := otherFills { s₁.symbol x with typeScope := typeScopeOf params types } built₁ bound other rfl
    (built₁.recorded.tables.declared x) (built₁.recorded.tables.parameters x)
  refine .bind (buildsSymbol built₁.recorded fills₁) fun _ s₂ built₂ _ => ?_
  have e₂ := built₂.extends built₁.recorded
  have opened₂ (u : TypeId) (member : u ∈ types) : s₂.Has u ∧ (s₂.typeInfo u).form.isOpen :=
    ⟨e₂.has u (opened u member).1, (e₂.revises u (opened u member).1).opened (opened u member).2⟩
  have known := scopeKnown params fun u member => (opened₂ u member).1
  refine .bind (boundsBuild b built₂.recorded known params opened₂) fun _ s₃ built₃ _ => ?_
  have e₃ := built₃.extends built₂.recorded
  have upTo₃ := built₁.trans (built₂.trans built₃)
  have fills₃ := otherFills { s₃.symbol x with typeParameters := types, declaredType := some errorType } upTo₃ bound
    other rfl (fun t is => Option.some_inj.mp is ▸ error built₃.recorded) fun u member => e₃.has u (opened₂ u member).1
  refine .bind (buildsSymbol built₃.recorded fills₃) fun _ s₄ built₄ _ => ?_
  have known₄ (p : String × TypeId) (member : p ∈ typeScopeOf params types) : s₄.Has p.2 :=
    (built₄.extends built₃.recorded).has p.2 (e₃.has p.2 (known p member))
  refine .bind (aliasedBuilds b built₄.recorded known₄ _ node) fun t s₅ built₅ has => ?_
  have upTo₅ := upTo₃.trans (built₄.trans built₅)
  have fills₅ := otherFills { s₅.symbol x with declaredType := some t } upTo₅ bound other rfl
    (fun u is => Option.some_inj.mp is ▸ has) (built₅.recorded.tables.parameters x)
  refine .bind (buildsSymbol built₅.recorded fills₅) fun _ s₆ built₆ _ => ?_
  exact .pure built₆.recorded ((built₆.extends built₅.recorded).has t has)

theorem computeDeclaredBuilds (b : q.Builds) (n : s.Recorded) (x : SymbolId) : s.Builds Has (q.computeDeclared x) := by
  unfold computeDeclared
  refine .read (a := s.symbol x) rfl ?_
  cases declared : (s.symbol x).declaredType with
  | some t => exact .pure n (n.tables.declared x t declared)
  | none =>
    dsimp only
    split
    · next is =>
      have bound : x < s.symbols.size := by
        by_contra outside
        rw [symbolMissing outside] at is
        exact absurd is (by decide)
      exact (declareInterfaceBuilds b n bound is declared).weaken fun _ _ _ made => made.1
    next other =>
    have other : (s.symbol x).flags.meets SymbolFlags.interface = false := by simpa using other
    split
    · exact declareEnumBuilds b n other
    split
    · exact declareAliasBuilds b n other
    · exact .pure n (n.interned.classified.hasBasic (by decide))

theorem Builds.step (b : q.Builds) : q.step.Builds where
  declared _ n x := computeDeclaredBuilds b n x
  node _ n node _ known := annotationBuilds b n known node
  instances _ n _ _ has known := computeInstanceBuilds b n has known

/-- At every level, declarations, annotations and instances lead only to constructions. -/
theorem answersBuild (d : Nat) : (Queries.ofDepth d).Builds := by
  induction d with
  | zero => exact ⟨fun _ _ _ => .fail, fun _ _ _ _ _ => .fail, fun _ _ _ _ _ _ => .fail⟩
  | succ d ih => exact ih.step

end Queries

end Fragment.Typing
