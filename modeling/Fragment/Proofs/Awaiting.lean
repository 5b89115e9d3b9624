import Fragment.Proofs.RelationRead
import Fragment.Proofs.Widening
import Fragment.Proofs.WrittenTypes

/-! Awaiting a type.
Awaiting takes promises off a type and off the parts of unions as often as they are there, and joins what is left. What comes
of it has no promise among its parts, so it is settled: awaiting it again finds the same type. Only unions are made on the
way, if the type of promises is known, and every step goes to an older type. -/
namespace Fragment.Typing

/-! What types are made of -/

/-- The parts of a union and the arguments of a reference. -/
def Form.under : Form → List TypeId
  | .union types => types
  | .reference _ args => args
  | _ => []

theorem underOpen {form : Form} (opened : form.isOpen) : form.under = [] := by
  cases form with
  | union | reference => cases opened
  | _ => rfl

namespace State

variable {s s' : State} {t r u : TypeId} {types xs : List TypeId}

/-- A type is made of older ones. -/
def Grounded (s : State) : Prop := ∀ t, s.Has t → ∀ p ∈ (s.typeInfo t).form.under, p < t

theorem Grounded.push {info : TypeInfo} (g : s.Grounded) (types : s'.types = s.types.push info)
    (known : ∀ p ∈ info.form.under, s.Has p) : s'.Grounded := by
  intro t has p member
  rcases (hasPush types t).mp has with rfl | old
  · rw [typeInfoPush types, if_pos rfl] at member
    exact known p member
  · exact g t old p (typeInfoOld types old ▸ member)

theorem Grounded.revised (g : s.Grounded) (e : s.Extends s') (size : s'.types.size = s.types.size) : s'.Grounded := by
  intro t has p member
  have old : s.Has t := by simpa [Has, size] using has
  have revises := e.revises t old
  by_cases opened : (s.typeInfo t).form.isOpen
  · rw [underOpen (revises.opened opened)] at member
    cases member
  · rw [(revises.closed (by simpa using opened)).1] at member
    exact g t old p member

theorem Grounded.step (g : s.Grounded) (i : s.Interned) (does : Constructs s s') : s'.Grounded := by
  have e := (i.step does).2
  -- What is made is made of types that are there, and these are older.
  cases does with
  | text _ run =>
    rw [textRun] at run
    split at run <;> cases run
    · exact g
    · exact g.push rfl (by simp [Form.under])
  | number _ run =>
    rw [numberRun] at run
    split at run <;> cases run
    · exact g
    · exact g.push rfl (by simp [Form.under])
  | array _ run =>
    rw [arrayRun] at run
    split at run <;> cases run
    · exact g
    · exact g.push rfl (by simp [Form.under])
  | reference known run =>
    rw [referenceRun] at run
    split at run <;> cases run
    · exact g
    · exact g.push rfl fun p member => known p (List.mem_cons_of_mem _ member)
  | union name known run =>
    rw [unionRun] at run
    split at run
    · cases run
      exact g
    · next ts shape =>
      unfold enterUnion at run
      split at run <;> cases run
      · exact g
      · exact g.push rfl (i.classified.shapeCanonical known shape).known
  | intersection _ run =>
    rcases intersectionRun s run with rfl | ⟨ts, key, rfl⟩
    · exact g
    · exact g.push rfl (by simp [Form.under])
  | @declared _ info declares run =>
    cases run
    refine g.push rfl fun p member => ?_
    revert declares member
    unfold Declares
    unfold Form.under
    cases info.form <;> simp
  | revised _ run =>
    cases run
    exact g.revised e (by simp)
  | elsewhere types => exact g.revised e (by rw [types])

theorem initialGrounded : State.initial.Grounded := by
  intro t has p member
  have loose := initialLoose t has
  revert loose member
  unfold Form.under
  cases (State.initial.typeInfo t).form <;> simp

theorem Grounded.along (g : s.Grounded) (i : s.Interned) (later : Later s s') : s'.Grounded := by
  induction later with
  | refl => exact g
  | tail before does ih => exact ih.step (i.along before).1 does

/-! The type of promises -/

end State

def Form.params? : Form → Option (List TypeId)
  | .interface params => some params
  | _ => none

namespace State

variable {s s' : State} {t r u : TypeId} {types xs : List TypeId}

/-- The type of promises, where it is known. -/
def promise? (s : State) : Option TypeId :=
  match (s.scopes[globalScope]?).bind (·.names["Promise"]?) with
  | none => none
  | some x =>
    if (s.symbol x).flags.meets SymbolFlags.interface then
      let declared := (s.symbol x).declaredType.getD errorType
      match (s.typeInfo declared).form.params? with
      | some params => if params.length = 1 then some declared else none
      | none => none
    else none

/-- What a type promises, where the type of promises is known. -/
def promised? (s : State) (t : TypeId) : Option TypeId :=
  match s.promise?, (s.typeInfo t).form with
  | some promise, .reference target args => if target = promise then args.head? else none
  | _, _ => none

theorem promiseReads (known : s.PromiseKnown) (n : Nat) :
    Reads s (1 ≤ n) (Queries.ofDepth n).promiseType s.promise? := by
  have lookup : Reads s (1 ≤ n) (Queries.globalType.lookupGlobal "Promise")
      ((s.scopes[globalScope]?).bind (·.names["Promise"]?)) := fun _ _ => .inl rfl
  refine lookup.bind ?_
  unfold promise?
  cases found : (s.scopes[globalScope]?).bind (·.names["Promise"]?) with
  | none => exact .pure none
  | some x =>
    refine (readsSymbol _ x).bind ?_
    cases isInterface : (s.symbol x).flags.meets SymbolFlags.interface with
    | false =>
      simp only [isInterface, Bool.false_eq_true, if_false]
      exact .pure none
    | true =>
      simp only [isInterface, if_true]
      refine (readsDeclared (known x found isInterface)).bind ((readsForm _ _).bind ?_)
      cases (s.typeInfo ((s.symbol x).declaredType.getD errorType)).form <;> exact .pure _

theorem promisedReads (known : s.PromiseKnown) (n : Nat) (t : TypeId) :
    Reads s (1 ≤ n) ((Queries.ofDepth n).promised t) (s.promised? t) := by
  refine (promiseReads known n).bind ((readsForm _ t).bind ?_)
  unfold promised?
  cases s.promise? with
  | none => exact .pure none
  | some promise => cases (s.typeInfo t).form <;> exact .pure _

theorem promisedUnder {inner : TypeId} (is : s.promised? t = some inner) : inner ∈ (s.typeInfo t).form.under := by
  unfold promised? at is
  split at is
  case h_1 promise target args _ form =>
    split at is
    · rw [form]
      exact List.mem_of_mem_head? is
    · cases is
  case h_2 => cases is

/-! States with more unions -/

/-- At most unions have been made. -/
structure Unites (s s' : State) : Prop where
  later : Later s s'
  symbols : s'.symbols = s.symbols
  scopes : s'.scopes = s.scopes
  params : ∀ t, (s'.typeInfo t).form.params? = (s.typeInfo t).form.params?
  applied : (∀ t, s.Has t → (s.typeInfo t).form.isApplied) → ∀ t, s'.Has t → (s'.typeInfo t).form.isApplied

theorem Unites.refl (s : State) : s.Unites s := ⟨.refl, rfl, rfl, fun _ => rfl, id⟩

theorem Unites.trans {s s' s'' : State} (first : s.Unites s') (second : s'.Unites s'') : s.Unites s'' where
  later := first.later.trans second.later
  symbols := second.symbols.trans first.symbols
  scopes := second.scopes.trans first.scopes
  params t := (second.params t).trans (first.params t)
  applied := second.applied ∘ first.applied

theorem unionUnites (known : ∀ t ∈ xs, s.Has t) (run : (Check.union xs).run s = .ok (u, s')) : s.Unites s' := by
  have does : Constructs s s' := .union none known run
  rw [Check.union, unionRun] at run
  split at run
  · cases run
    exact .refl s
  unfold enterUnion at run
  split at run <;> cases run
  · exact .refl s
  · refine ⟨.single does, rfl, rfl, fun t => ?_, fun applied t has => ?_⟩
    · rw [typeInfoPush rfl]
      split
      next new =>
        have absent : s.typeInfo t = intrinsic TypeFlags.any "any" := by simp [typeInfo, new]
        rw [absent]
        rfl
      next => rfl
    · rcases (hasPush rfl t).mp has with rfl | old
      · rw [typeInfoPush rfl, if_pos rfl]
        rfl
      · rw [typeInfoPush rfl, if_neg (Nat.ne_of_lt old)]
        exact applied t old

theorem Unites.promise? (unites : s.Unites s') : s'.promise? = s.promise? := by
  have same (x : SymbolId) : s'.symbol x = s.symbol x := by rw [State.symbol, State.symbol, unites.symbols]
  unfold State.promise?
  simp only [same, unites.scopes, unites.params]

theorem Unites.promiseKnown (unites : s.Unites s') (known : s.PromiseKnown) : s'.PromiseKnown := by
  simpa only [PromiseKnown, State.symbol, unites.symbols, unites.scopes] using known

theorem promisedOpen (opened : (s.typeInfo t).form.isOpen) : s.promised? t = none := by
  unfold State.promised?
  cases form : (s.typeInfo t).form with
  | reference => cases form ▸ opened
  | _ => cases s.promise? <;> rfl

theorem Unites.promised? (unites : s.Unites s') (i : s.Interned) (has : s.Has t) : s'.promised? t = s.promised? t := by
  have e := (i.along unites.later).2
  have revises := e.revises t has
  by_cases opened : (s.typeInfo t).form.isOpen
  · rw [promisedOpen opened, promisedOpen (revises.opened opened)]
  · unfold State.promised?
    rw [unites.promise?, (revises.closed (by simpa using opened)).1]

/-! Settled types -/

/-- No promise is among the parts of the type, and it is what is joined from its parts. -/
structure Settled (s : State) (r : TypeId) : Prop where
  has : s.Has r
  unpromised : ∀ p ∈ s.parts r, s.promised? p = none
  joined : ∀ types, (s.typeInfo r).form = .union types → (Check.union types).run s = .ok (r, s)

theorem Settled.later (settled : s.Settled r) (i : s.Interned) (unites : s.Unites s') : s'.Settled r := by
  have e := (i.along unites.later).2
  refine ⟨e.has r settled.has, fun p member => ?_, fun types form => ?_⟩
  · rw [e.parts settled.has] at member
    rw [unites.promised? i (i.classified.hasParts settled.has p member).1]
    exact settled.unpromised p member
  · have before := (e.form settled.has _ rfl).mp form
    exact i.unionAgain (i.canonical r settled.has types before).known (settled.joined types before) unites.later

theorem settledPlain (has : s.Has t) (plain : ∀ types, (s.typeInfo t).form ≠ .union types) (none : s.promised? t = none) :
    s.Settled t := by
  refine ⟨has, fun p member => ?_, fun types form => absurd form (plain types)⟩
  rw [(widenLiteralPlain plain).2, List.mem_singleton] at member
  rwa [member]

theorem plainPart {p : TypeId} (c : s.Classified) (has : s.Has t) (form : (s.typeInfo t).form = .union types)
    (member : p ∈ types) : s.Has p ∧ ∀ types, (s.typeInfo p).form ≠ .union types := by
  obtain ⟨hasP, flat⟩ := c.flat t has types form p member
  refine ⟨hasP, fun types form => ?_⟩
  have fits := c.fits p hasP
  rw [form] at fits
  exact flat fits

theorem shapeParts (c : s.Classified) (known : ∀ t ∈ xs, s.Has t) :
    ∀ p ∈ (s.unionShape xs).parts, p ∈ xs.flatMap s.parts ∨ p ≤ trueType := by
  intro p member
  rcases c.shapeCases known with ⟨_, shape⟩ | ⟨_, _, shape⟩ | ⟨_, _, all, _, mem, shape⟩ <;> rw [shape] at member
  · right
    rw [List.mem_singleton.mp member]
    split <;> decide
  · right
    rw [List.mem_singleton.mp member]
    decide
  · by_cases never : p = neverType
    · exact .inr (never ▸ by decide)
    rcases (mem p).mp ((Classified.memShapeOf never).mp member) with ⟨kept, -⟩ | ⟨-, rfl⟩
    · exact .inl kept.1
    · exact .inr (by decide)

theorem basicUnpromised (c : s.Classified) (early : t ≤ trueType) : s.promised? t = none := by
  have plain : ∀ t ≤ trueType, State.initial.flagsAt t ≠ TypeFlags.object := by decide
  have fits := c.fits t (c.hasBasic early)
  rw [(c.basic t early).2] at fits
  unfold promised?
  cases form : (s.typeInfo t).form with
  | reference =>
    rw [form] at fits
    exact absurd fits (plain t early)
  | _ => cases s.promise? <;> rfl

theorem settledUnion (i : s.Interned) (settled : ∀ t ∈ xs, s.Settled t) :
    ∃ u s', (Check.union xs).run s = .ok (u, s') ∧ s.Unites s' ∧ s'.Settled u := by
  have known (t : TypeId) (member : t ∈ xs) : s.Has t := (settled t member).has
  obtain ⟨u, s', run, does, has, parts, -⟩ := i.unionResult known
  have unites := unionUnites known run
  have i' := (i.step does).1
  refine ⟨u, s', run, unites, has, fun p member => ?_, fun types form => ?_⟩
  · rw [parts] at member
    rcases shapeParts i.classified known p member with old | basic
    · obtain ⟨t, inside, part⟩ := List.mem_flatMap.mp old
      rw [unites.promised? i (i.classified.hasFlat known p old)]
      exact (settled t inside).unpromised p part
    · exact basicUnpromised i'.classified basic
  · have own : s'.parts u = types := by simp [State.parts, form]
    have single : (Check.union [u]).run s' = .ok (u, s') := by
      have steps : (Check.union [u]).run s' = (Check.union (xs ++ [])).run s' :=
        i.unionSteps (by simpa using known) run .refl
      rw [List.append_nil] at steps
      exact steps.trans (i.unionAgain known run .refl)
    -- Joining the parts again has the same parts as joining the union itself, which gives it back.
    have canonical := i'.canonical u has types form
    have flat : types.flatMap s'.parts = types := by
      have self : types.flatMap s'.parts = types.flatMap ([·]) := List.flatMap_congr fun p member =>
        i'.classified.partsSelf (canonical.known p member) (i'.classified.flat u has types form p member).2
      exact self.trans (List.flatMap_singleton' types)
    have hasBoth : ∀ t ∈ types ++ [u], s'.Has t := by
      intro t member
      rcases List.mem_append.mp member with part | self
      · exact canonical.known t part
      · exact List.mem_singleton.mp self ▸ has
    exact (i'.unionSameParts hasBoth fun t => by rw [flat, List.flatMap_singleton, own]).trans single

/-! Nested promises -/

/-- Promises and unions stand in one another, at most so many deep. -/
inductive Nested (s : State) : TypeId → Nat → Prop
  | plain {t : TypeId} (n : Nat) (plain : ∀ types, (s.typeInfo t).form ≠ .union types) (none : s.promised? t = none) :
    Nested s t n
  | promise {t inner : TypeId} {n : Nat} (plain : ∀ types, (s.typeInfo t).form ≠ .union types)
      (is : s.promised? t = some inner) (below : Nested s inner n) : Nested s t (n + 1)
  | union {t : TypeId} {types : List TypeId} {n : Nat} (form : (s.typeInfo t).form = .union types)
      (below : ∀ p ∈ types, Nested s p n) : Nested s t (n + 1)

theorem Nested.more {n m : Nat} (nested : s.Nested t n) (more : n ≤ m) : s.Nested t m := by
  induction nested generalizing m with
  | plain _ plain none => exact .plain m plain none
  | promise plain is _ ih =>
    obtain ⟨m, rfl⟩ : ∃ k, m = k + 1 := ⟨m - 1, by omega⟩
    exact .promise plain is (ih (by omega))
  | union form _ ih =>
    obtain ⟨m, rfl⟩ : ∃ k, m = k + 1 := ⟨m - 1, by omega⟩
    exact .union form fun p member => ih p member (by omega)

theorem Grounded.nested (g : s.Grounded) (t : TypeId) (has : s.Has t) : s.Nested t (Nat.succ t) := by
  induction t using Nat.strongRecOn with
  | ind t ih =>
    have below (p : TypeId) (under : p ∈ (s.typeInfo t).form.under) : s.Nested p t := by
      have older : Nat.succ p ≤ t := g t has p under
      exact (ih p older (Nat.lt_trans older has)).more older
    by_cases union : ∃ types, (s.typeInfo t).form = .union types
    · obtain ⟨types, form⟩ := union
      exact .union form fun p member => below p (by rwa [form, Form.under])
    · have plain (types : List TypeId) : (s.typeInfo t).form ≠ .union types := fun form => union ⟨types, form⟩
      cases promised : s.promised? t with
      | none => exact .plain _ plain promised
      | some inner => exact .promise plain promised (below inner (promisedUnder promised))

theorem Nested.later {n : Nat} (nested : s.Nested t n) (i : s.Interned) (g : s.Grounded) (has : s.Has t)
    (unites : s.Unites s') : s'.Nested t n := by
  have e := (i.along unites.later).2
  have still {t : TypeId} (has : s.Has t) (plain : ∀ types, (s.typeInfo t).form ≠ .union types) (types : List TypeId) :
      (s'.typeInfo t).form ≠ .union types := fun form => plain types ((e.form has _ rfl).mp form)
  induction nested with
  | plain n plain none => exact .plain n (still has plain) ((unites.promised? i has).trans none)
  | promise plain is _ ih =>
    have older := g _ has _ (promisedUnder is)
    exact .promise (still has plain) ((unites.promised? i has).trans is) (ih (Nat.lt_trans older has))
  | union form _ ih =>
    refine .union ((e.form has _ rfl).mpr form) fun p member => ih p member ?_
    exact (i.classified.flat _ has _ form p member).1

/-! Runs -/

/-- Where awaiting is well defined: the tables are right, and the type of promises is known. -/
structure Awaitable (s : State) : Prop where
  interned : s.Interned
  grounded : s.Grounded
  known : s.PromiseKnown
  applied : ∀ t, s.Has t → (s.typeInfo t).form.isApplied

theorem Awaitable.later (able : s.Awaitable) (unites : s.Unites s') : s'.Awaitable where
  interned := (able.interned.along unites.later).1
  grounded := able.grounded.along able.interned unites.later
  known := unites.promiseKnown able.known
  applied := unites.applied able.applied

/-- The step makes at most unions and gives a settled type, or there are too few levels for it. -/
def Unwraps (s : State) (enough : Prop) (m : Check TypeId) : Prop :=
  (∃ r s', m.run s = .ok (r, s') ∧ s.Unites s' ∧ s'.Settled r) ∨ (¬enough ∧ ∃ f, m.run s = .error f)

theorem unwrapsAll {m : TypeId → Check TypeId} {enough : Prop} {ts : List TypeId} {s : State} (able : s.Awaitable)
    (known : ∀ t ∈ ts, s.Has t)
    (each : ∀ t ∈ ts, ∀ s', s.Unites s' → s'.Awaitable → s'.Has t → s'.Unwraps enough (m t)) :
    (∃ rs s', (ts.mapM m).run s = .ok (rs, s') ∧ s.Unites s' ∧ ∀ r ∈ rs, s'.Settled r) ∨
      (¬enough ∧ ∃ f, (ts.mapM m).run s = .error f) := by
  induction ts generalizing s with
  | nil => exact .inl ⟨[], s, rfl, .refl s, nofun⟩
  | cons t ts ih =>
    obtain ⟨has, others⟩ := List.forall_mem_cons.mp known
    obtain ⟨first, rest⟩ := List.forall_mem_cons.mp each
    rw [List.mapM_cons]
    rcases first s (.refl s) able has with ⟨r, s₁, run, unites, settled⟩ | ⟨short, f, failed⟩
    · have able₁ := able.later unites
      have e := (able.interned.along unites.later).2
      rw [runThen run]
      have rest₁ : ∀ t ∈ ts, ∀ s', s₁.Unites s' → s'.Awaitable → s'.Has t → s'.Unwraps enough (m t) :=
        fun t member s' unites' => rest t member s' (unites.trans unites')
      rcases ih able₁ (fun t member => e.has t (others t member)) rest₁ with ⟨rs, s₂, runs, unites', all⟩ | ⟨short, f, failed⟩
      · refine .inl ⟨r :: rs, s₂, by rw [runThen runs]; rfl, unites.trans unites', List.forall_mem_cons.mpr ⟨?_, all⟩⟩
        exact settled.later able₁.interned unites'
      · exact .inr ⟨short, f, by rw [StateT.run_bind, failed]; rfl⟩
    · exact .inr ⟨short, f, by rw [StateT.run_bind, failed]; rfl⟩

theorem mapSame {m : TypeId → Check TypeId} {ts : List TypeId} (each : ∀ t ∈ ts, (m t).run s = .ok (t, s)) :
    (ts.mapM m).run s = .ok (ts, s) := by
  induction ts with
  | nil => rfl
  | cons t ts ih =>
    obtain ⟨first, rest⟩ := List.forall_mem_cons.mp each
    rw [List.mapM_cons, runThen first, runThen (ih rest)]
    rfl

theorem awaitedUnion (q : Queries) (form : (s.typeInfo t).form = .union types) :
    (q.computeAwaited t).run s = (types.mapM q.awaited >>= Check.union).run s := by
  have parts : (Check.parts t).run s = .ok (types, s) := by
    rw [Check.parts, runThen (t := s) (a := (s.typeInfo t).form) rfl, form]
    rfl
  rw [Queries.computeAwaited, runThen (isUnionRun s t), form, if_pos rfl, runThen parts]

theorem awaitedPlain (q : Queries) (plain : ∀ types, (s.typeInfo t).form ≠ .union types) :
    (q.computeAwaited t).run s = (do
      match (← q.promised t) with
      | some inner => q.awaited inner
      | none => return t : Check TypeId).run s := by
  rw [Queries.computeAwaited, runThen (isUnionRun s t)]
  cases form : (s.typeInfo t).form with
  | union types => exact absurd form (plain types)
  | _ => rfl

theorem awaitedUnwraps (d : Nat) (able : s.Awaitable) (has : s.Has t) :
    s.Unwraps (∃ n, s.Nested t n ∧ d ≥ n + 2) ((Queries.ofDepth d).awaited t) := by
  -- Each level either takes one promise off or goes to the parts, so the depth goes down with the level.
  induction d generalizing s t with
  | zero => exact .inr ⟨fun ⟨_, _, deep⟩ => by omega, _, rfl⟩
  | succ d ih =>
    change s.Unwraps _ ((Queries.ofDepth d).computeAwaited t)
    by_cases union : ∃ types, (s.typeInfo t).form = .union types
    · obtain ⟨types, form⟩ := union
      have part (p : TypeId) (member : p ∈ types) : s.Has p := (able.interned.classified.flat t has types form p member).1
      have deeper (p : TypeId) (member : p ∈ types) (s' : State) (unites : s.Unites s') :
          (∃ n, s.Nested t n ∧ d + 1 ≥ n + 2) → ∃ n, s'.Nested p n ∧ d ≥ n + 2 := by
        rintro ⟨_, nested, deep⟩
        cases nested with
        | plain _ plain => exact absurd form (plain types)
        | promise plain => exact absurd form (plain types)
        | union form' below =>
          cases form.symm.trans form'
          exact ⟨_, (below p member).later able.interned able.grounded (part p member) unites, by omega⟩
      have all := unwrapsAll (m := (Queries.ofDepth d).awaited) able part fun p member s' unites able' has' =>
        (ih able' has').imp id fun ⟨short, failed⟩ => ⟨fun enough => short (deeper p member s' unites enough), failed⟩
      unfold Unwraps
      rw [awaitedUnion _ form]
      rcases all with ⟨rs, s₁, runs, unites, settled⟩ | ⟨short, f, failed⟩
      · obtain ⟨u, s₂, run, unites', settled'⟩ := settledUnion (able.later unites).interned settled
        exact .inl ⟨u, s₂, by rw [runThen runs, run], unites.trans unites', settled'⟩
      · exact .inr ⟨short, f, by rw [StateT.run_bind, failed]; rfl⟩
    · have plain (types : List TypeId) : (s.typeInfo t).form ≠ .union types := fun form => union ⟨types, form⟩
      unfold Unwraps
      rw [awaitedPlain _ plain]
      rcases promisedReads able.known d t s.relations s.relating with run | ⟨short, f, failed⟩
      · have run : ((Queries.ofDepth d).promised t).run s = .ok (s.promised? t, s) := run
        rw [runThen run]
        cases promised : s.promised? t with
        | none => exact .inl ⟨t, s, rfl, .refl s, settledPlain has plain promised⟩
        | some inner =>
          have older : Nat.succ inner ≤ t := able.grounded t has inner (promisedUnder promised)
          refine (ih able (Nat.lt_trans older has)).imp id fun ⟨short, failed⟩ => ⟨?_, failed⟩
          rintro ⟨_, nested, deep⟩
          cases nested with
          | plain _ _ none => cases none.symm.trans promised
          | promise _ is below =>
            cases is.symm.trans promised
            exact short ⟨_, below, by omega⟩
          | union form => exact plain _ form
      · have failed : ((Queries.ofDepth d).promised t).run s = .error f := failed
        exact .inr ⟨fun ⟨_, _, deep⟩ => by omega, f, by rw [StateT.run_bind, failed]; rfl⟩

theorem settledAwaits (able : s.Awaitable) (settled : s.Settled r) {d : Nat} (deep : 3 ≤ d) :
    ((Queries.ofDepth d).awaited r).run s = .ok (r, s) := by
  have self {t : TypeId} (has : s.Has t) (plain : ∀ types, (s.typeInfo t).form ≠ .union types) (none : s.promised? t = none)
      (d : Nat) : ((Queries.ofDepth (d + 2)).awaited t).run s = .ok (t, s) := by
    change ((Queries.ofDepth (d + 1)).computeAwaited t).run s = _
    rw [awaitedPlain _ plain, runThen ((promisedReads able.known (d + 1) t).known (by omega)), none]
    rfl
  obtain ⟨d, rfl⟩ : ∃ k, d = k + 3 := ⟨d - 3, by omega⟩
  by_cases union : ∃ types, (s.typeInfo r).form = .union types
  · obtain ⟨types, form⟩ := union
    have parts : s.parts r = types := by simp [State.parts, form]
    have each (p : TypeId) (member : p ∈ types) : ((Queries.ofDepth (d + 2)).awaited p).run s = .ok (p, s) := by
      obtain ⟨hasP, plain⟩ := plainPart able.interned.classified settled.has form member
      exact self hasP plain (settled.unpromised p (parts ▸ member)) d
    change ((Queries.ofDepth (d + 2)).computeAwaited r).run s = _
    rw [awaitedUnion _ form, runThen (mapSame each)]
    exact settled.joined types form
  · have plain (types : List TypeId) : (s.typeInfo r).form ≠ .union types := fun form => union ⟨types, form⟩
    refine self settled.has plain (settled.unpromised r ?_) (d + 1)
    rw [(widenLiteralPlain plain).2]
    exact List.mem_singleton_self r

/-! Looking up the type of promises -/

theorem globalDeclared {q : Queries} {name : String} {x : SymbolId} (arity : Nat)
    (found : (s.scopes[globalScope]?).bind (·.names[name]?) = some x)
    (is : (s.symbol x).flags.meets SymbolFlags.interface = true) : (q.globalType name arity).run s = (do
      let declared ← q.declaredType x
      match (← Check.form declared) with
      | .interface params => return if params.length = arity then some declared else none
      | _ => return none : Check (Option TypeId)).run s := by
  have lookup : (Queries.globalType.lookupGlobal name).run s = .ok (some x, s) := congrArg (fun y => Except.ok (y, s)) found
  rw [Queries.globalType, runThen lookup]
  dsimp only
  rw [runThen (t := s) (a := s.symbol x) rfl, is]
  rfl

theorem promiseAsked (n : s.Recorded) {d : Nat} {promise : Option TypeId}
    (run : (Queries.ofDepth d).promiseType.run s = .ok (promise, s')) :
    s.Built s' ∧ s'.PromiseKnown ∧ (Queries.ofDepth d).promiseType.run s' = .ok (promise, s') := by
  by_cases known : s.PromiseKnown
  · rcases promiseReads known d s.relations s.relating with ran | ⟨-, f, failed⟩
    · have ran : (Queries.ofDepth d).promiseType.run s = .ok (s.promise?, s) := ran
      cases run.symm.trans ran
      exact ⟨.refl n, known, ran⟩
    · have failed : (Queries.ofDepth d).promiseType.run s = .error f := failed
      cases run.symm.trans failed
  -- An interface that has not been looked at is declared now, and the next question finds what was declared.
  unfold PromiseKnown at known
  push Not at known
  obtain ⟨x, found, is, fresh⟩ := known
  have fresh : (s.symbol x).declaredType = none := by simpa using fresh
  have bound : x < s.symbols.size := by
    by_contra outside
    rw [symbolMissing outside] at is
    exact absurd is (by decide)
  rw [Queries.promiseType, globalDeclared 1 found is] at run
  obtain ⟨t, s₁, declares, rest⟩ := runBind run
  obtain ⟨k, rfl⟩ : ∃ k, d = k + 1 := by
    cases d with
    | zero => cases declares
    | succ k => exact ⟨k, rfl⟩
  have declared : (Queries.ofDepth (k + 1)).declaredType x = (Queries.ofDepth k).computeDeclared x := rfl
  rw [declared, Queries.computeDeclared, runThen (t := s) (a := s.symbol x) rfl, fresh] at declares
  simp only [is, if_true] at declares
  obtain ⟨built, -, now⟩ := Queries.declareInterfaceBuilds (Queries.answersBuild k) n bound is fresh t s₁ declares
  have same : s' = s₁ := by
    rw [runThen (t := s₁) (a := (s₁.typeInfo t).form) rfl] at rest
    split at rest <;> cases rest <;> rfl
  have found₁ : (s₁.scopes[globalScope]?).bind (·.names["Promise"]?) = some x := built.scopes ▸ found
  have is₁ : (s₁.symbol x).flags.meets SymbolFlags.interface = true := (built.flags x bound).symm ▸ is
  have again : ((Queries.ofDepth (k + 1)).declaredType x).run s₁ = .ok (t, s₁) := by
    rw [declared, Queries.computeDeclared, runThen (t := s₁) (a := s₁.symbol x) rfl, now]
    rfl
  subst same
  refine ⟨built, fun y is _ => ?_, ?_⟩
  · cases found₁.symm.trans is
    rw [now]
    rfl
  · rw [Queries.promiseType, globalDeclared 1 found₁ is₁, runThen again]
    exact rest

/-- The step starts with looking up the type of promises. -/
def Asks {α : Type} (s : State) (d : Nat) (m : Check α) : Prop :=
  (∀ promise s', (Queries.ofDepth d).promiseType.run s = .ok (promise, s') → m.run s = m.run s') ∧
  ∀ a s'', m.run s = .ok (a, s'') → ∃ promise s', (Queries.ofDepth d).promiseType.run s = .ok (promise, s')

theorem asksPromise (n : s.Recorded) (d : Nat) : s.Asks d (Queries.ofDepth d).promiseType :=
  ⟨fun _ _ run => run.trans (promiseAsked n run).2.2.symm, fun a s' run => ⟨a, s', run⟩⟩

theorem Asks.bind {α β : Type} {m : Check α} {d : Nat} (asks : s.Asks d m) (f : α → Check β) : s.Asks d (m >>= f) := by
  refine ⟨fun promise s' run => ?_, fun b s' run => ?_⟩
  · rw [StateT.run_bind, StateT.run_bind, asks.1 promise s' run]
  · obtain ⟨a, s₁, first, -⟩ := runBind run
    exact asks.2 a s₁ first

theorem asksPlain (n : s.Recorded) (has : s.Has t) (plain : ∀ types, (s.typeInfo t).form ≠ .union types) (d : Nat) :
    s.Asks (d - 1) ((Queries.ofDepth d).awaited t) := by
  cases d with
  | zero => exact ⟨fun _ _ _ => rfl, nofun⟩
  | succ d =>
    have promised : s.Asks d ((Queries.ofDepth d).promised t) := (asksPromise n d).bind _
    have asks := promised.bind fun
      | some inner => (Queries.ofDepth d).awaited inner
      | none => return t
    change s.Asks d ((Queries.ofDepth d).computeAwaited t)
    refine ⟨fun promise s' run => ?_, fun r s'' run => asks.2 r s'' ((awaitedPlain _ plain).symm.trans run)⟩
    have e := (promiseAsked n run).1.extends n
    have still (types : List TypeId) : (s'.typeInfo t).form ≠ .union types :=
      fun form => plain types ((e.form has _ rfl).mp form)
    rw [awaitedPlain _ plain, awaitedPlain _ still]
    exact asks.1 promise s' run

theorem asksAwaited (n : s.Recorded) (has : s.Has t) (d : Nat) :
    ∃ e, d ≤ e + 2 ∧ s.Asks e ((Queries.ofDepth d).awaited t) := by
  by_cases union : ∃ types, (s.typeInfo t).form = .union types
  case neg =>
    exact ⟨d - 1, by omega, asksPlain n has (fun types form => union ⟨types, form⟩) d⟩
  obtain ⟨types, form⟩ := union
  -- The first part is looked at first, and it is no union.
  refine ⟨d - 2, by omega, ?_⟩
  cases d with
  | zero => exact ⟨fun _ _ _ => rfl, nofun⟩
  | succ d =>
    have canonical := n.interned.canonical t has types form
    obtain ⟨p, ps, rfl⟩ := List.exists_cons_of_length_pos (Nat.lt_of_lt_of_le Nat.zero_lt_two canonical.several)
    obtain ⟨hasP, plain⟩ := plainPart n.interned.classified has form List.mem_cons_self
    have first : s.Asks (d - 1) ((p :: ps).mapM (Queries.ofDepth d).awaited) := by
      rw [List.mapM_cons]
      exact (asksPlain n hasP plain d).bind _
    have asks := first.bind Check.union
    change s.Asks (d - 1) ((Queries.ofDepth d).computeAwaited t)
    refine ⟨fun promise s' run => ?_, fun r s'' run => asks.2 r s'' ((awaitedUnion _ form).symm.trans run)⟩
    have still := (((promiseAsked n run).1.extends n).form has _ rfl).mpr form
    rw [awaitedUnion _ form, awaitedUnion _ still]
    exact asks.1 promise s' run

/-- What awaiting a type comes to. -/
structure AwaitLaws (s : State) (t : TypeId) : Prop where
  complete : ∀ d r s', ((Queries.ofDepth d).awaited t).run s = .ok (r, s') → ∃ promise,
    answers.promiseType.run s' = .ok (promise, s') ∧
    ∀ p ∈ s'.parts r, ∀ target args, (s'.typeInfo p).form = .reference target args → promise ≠ some target
  idempotent : ∀ d r s', ((Queries.ofDepth d).awaited t).run s = .ok (r, s') →
    ∀ d' ≥ 3, ((Queries.ofDepth d').awaited r).run s' = .ok (r, s')
  /-- Promises and unions stand in one another only so deep, -/
  nested : ∀ d promise s₁, (Queries.ofDepth d).promiseType.run s = .ok (promise, s₁) → s₁.Nested t (Nat.succ t)
  /-- and as deep as they do, awaiting goes. -/
  returns : ∀ k n, (∀ d ≥ k, ∃ promise s₁, (Queries.ofDepth d).promiseType.run s = .ok (promise, s₁) ∧ s₁.Nested t n) →
    ∀ d ≥ max k n + 2, ∃ r s', ((Queries.ofDepth d).awaited t).run s = .ok (r, s')

theorem promisesAwaited (later : Later State.initial s) (recorded : s.Recorded) (has : s.Has t) : s.AwaitLaws t := by
  have asked {d : Nat} {promise : Option TypeId} {s₁ : State}
      (run : (Queries.ofDepth d).promiseType.run s = .ok (promise, s₁)) : s₁.Awaitable ∧ s₁.Has t := by
    obtain ⟨built, known, -⟩ := promiseAsked recorded run
    have grounded := initialGrounded.along initialInterned (later.trans built.later)
    exact ⟨⟨built.recorded.interned, grounded, known, built.recorded.applied⟩, (built.extends recorded).has t has⟩
  have ran {d : Nat} {r : TypeId} {s' : State} (run : ((Queries.ofDepth d).awaited t).run s = .ok (r, s')) :
      s'.Awaitable ∧ s'.Settled r := by
    obtain ⟨e, -, same, starts⟩ := asksAwaited recorded has d
    obtain ⟨promise, s₁, first⟩ := starts r s' run
    obtain ⟨able, has₁⟩ := asked first
    rw [same promise s₁ first] at run
    rcases awaitedUnwraps d able has₁ with ⟨r', s'', run', unites, settled⟩ | ⟨-, f, failed⟩
    · cases run.symm.trans run'
      exact ⟨able.later unites, settled⟩
    · cases run.symm.trans failed
  refine ⟨fun d r s' run => ?_, fun d r s' run d' deep => ?_, fun d promise s₁ run => ?_, fun k n looks d deep => ?_⟩
  · obtain ⟨able, settled⟩ := ran run
    refine ⟨s'.promise?, (promiseReads able.known depthLimit).known (by decide), fun p member target args form is => ?_⟩
    have none := settled.unpromised p member
    have applied := able.applied p (able.interned.classified.hasParts settled.has p member).1
    cases args with
    | nil => cases form ▸ applied
    | cons arg args => simp [promised?, is, form] at none
  · obtain ⟨able, settled⟩ := ran run
    exact settledAwaits able settled deep
  · obtain ⟨able, has₁⟩ := asked run
    exact able.grounded.nested t has₁
  · obtain ⟨e, close, same, -⟩ := asksAwaited recorded has d
    obtain ⟨promise, s₁, first, nested⟩ := looks e (by omega)
    obtain ⟨able, has₁⟩ := asked first
    rw [same promise s₁ first]
    rcases awaitedUnwraps d able has₁ with ⟨r, s', run, -⟩ | ⟨short, -⟩
    · exact ⟨r, s', run⟩
    · exact absurd ⟨n, nested, by omega⟩ short

/-- Nothing has been looked at in a program that declares promises. -/
def undeclared : State :=
  { State.initial with
    symbols := State.initial.symbols.push
      { flags := SymbolFlags.interface
        name := "Promise"
        declarations := [.interface ⟨0, ⟨⟨1, 1⟩, ⟨1, 1⟩⟩⟩ [⟨⟨1, ⟨⟨1, 1⟩, ⟨1, 1⟩⟩⟩, "T", none⟩] [] []] }
    scopes := #[{ parent := none, names := (({} : Std.HashMap String SymbolId).insert "undefined" 0).insert "Promise" 1 }] }

theorem undeclaredLater : Later State.initial undeclared := .single (.elsewhere rfl rfl rfl rfl)

theorem undeclaredRecorded : undeclared.Recorded where
  interned := (initialInterned.along undeclaredLater).1
  tables := by
    have symbols (x : SymbolId) : (undeclared.symbol x).declaredType = none ∧ (undeclared.symbol x).typeParameters = [] := by
      match x with
      | 0 | 1 => exact ⟨rfl, rfl⟩
      | x + 2 => exact ⟨rfl, rfl⟩
    refine ⟨by simp [symbols], by simp [symbols], ?_, ?_, ?_, ?_, fun (_, _) => ?_⟩
    all_goals simp [undeclared, State.initial]
  uses t has u member := by
    have bound : t < 12 := has
    have none : (undeclared.typeInfo t).form.uses = [] := by interval_cases t <;> rfl
    rw [none] at member
    cases member
  applied t has := by
    have loose := initialLoose t has
    change (State.initial.typeInfo t).form.isApplied
    revert loose
    unfold Form.isApplied
    cases (State.initial.typeInfo t).form <;> simp

theorem promiseDeclared : ∃ s, answers.promiseType.run undeclared = .ok (some 12, s) ∧ s.Has 12 := by
  have found : (undeclared.scopes[globalScope]?).bind (·.names["Promise"]?) = some 1 := by
    simp [undeclared, globalScope]
  have is : (undeclared.symbol 1).flags.meets SymbolFlags.interface = true := by decide
  rw [Queries.promiseType, globalDeclared 1 found is]
  exact ⟨_, rfl, Nat.lt_succ_of_lt (Nat.lt_succ_self 12)⟩

/-- A promise of a number or a promise of a text. -/
def promiseNested : Check TypeId := do
  match (← answers.promiseType) with
  | some promise => Check.referenceTo promise [← Check.union [numberType, ← Check.referenceTo promise [stringType]]]
  | none => return errorType

theorem referenceMade (target : TypeId) (args : List TypeId) (s : State) :
    ∃ t s', (Check.referenceTo target args).run s = .ok (t, s') := by
  rw [referenceRun]
  split <;> exact ⟨_, _, rfl⟩

theorem promiseNestedAwaited : ∃ t s, promiseNested.run undeclared = .ok (t, s) ∧
    Later State.initial s ∧ s.Recorded ∧ s.Has t ∧ s.AwaitLaws t := by
  obtain ⟨s, asked, has⟩ := promiseDeclared
  obtain ⟨built, -, -⟩ := promiseAsked undeclaredRecorded asked
  have basic {t : TypeId} (early : t ≤ trueType) {s : State} (n : s.Recorded) : s.Has t :=
    n.interned.classified.hasBasic early
  obtain ⟨inner, s₁, first⟩ := referenceMade 12 [stringType] s
  have known : ∀ t ∈ [12, stringType], s.Has t := by simpa using ⟨has, basic (by decide) built.recorded⟩
  obtain ⟨built₁, has₁⟩ := buildsReference built.recorded known Nat.zero_lt_one inner s₁ first
  have parts : ∀ t ∈ [numberType, inner], s₁.Has t := by simpa using ⟨basic (by decide) built₁.recorded, has₁⟩
  obtain ⟨either, s₂, second, -⟩ := built₁.recorded.interned.unionResult parts
  obtain ⟨built₂, has₂⟩ := buildsUnion built₁.recorded parts none either s₂ second
  obtain ⟨outer, s₃, third⟩ := referenceMade 12 [either] s₂
  have both : ∀ t ∈ [12, either], s₂.Has t := by
    simpa using ⟨((built₁.trans built₂).extends built.recorded).has 12 has, has₂⟩
  obtain ⟨built₃, has₃⟩ := buildsReference built₂.recorded both Nat.zero_lt_one outer s₃ third
  have made : promiseNested.run undeclared = .ok (outer, s₃) := by
    rw [promiseNested, runThen asked]
    dsimp only
    rw [runThen first, runThen second, third]
  have later := undeclaredLater.trans (built.trans (built₁.trans (built₂.trans built₃))).later
  exact ⟨outer, s₃, made, later, built₃.recorded, has₃, promisesAwaited later built₃.recorded has₃⟩

end State

end Fragment.Typing
