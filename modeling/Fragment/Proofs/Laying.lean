import Fragment.Proofs.Arity
import Fragment.Proofs.Lawful
import Fragment.Proofs.Making

/-! Steps that add code inside functions.
Such code keeps the rules if the functions around bind some symbols, and it binds symbols itself. A step is
judged by the names that symbols have when all code has been made: names are given along the way, are kept
and stay different. -/
namespace Fragment.Emit

open Source (Mark Expr Param)
open Typing (SymbolId State)
open Target (Lawful Quiet)
open Lowering

/-! What a step of making code leaves behind -/

/-- Symbols that have names keep them. -/
def Later (c : Context) (n later : Names) : Prop := ∀ x a, c.named? n x = some a → c.named? later x = some a

/-- The names of some symbols are among others. -/
def Covers (c : Context) (n : Names) (xs : List SymbolId) (names : List String) : Prop :=
  ∀ x ∈ xs, ∀ a, c.named? n x = some a → a ∈ names

/-- Statements of a function: they break no rule where the names of the outer symbols are those of functions
around, and bind the names of some symbols. -/
structure Sound (c : Context) (n : Names) (outer laid : List SymbolId) (ss : List Target.Stmt) : Prop where
  quiet : Quiet ss
  lawful : ∀ around, Covers c n outer around → Lawful around ss
  binds : Covers c n laid (Target.boundIn ss)

/-- A step that leaves what the checker knows as it is and keeps all names; in async functions the checker knows
promises. The statements that it adds satisfy a condition on its result and on all names that are given until the
end. -/
def Steps {α : Type} (s : State) (c : Context) (post : α → List Target.Stmt → Names → Prop) (act : Lowering α) : Prop :=
  ∀ isAsync p a q, (isAsync = true → s.PromiseKnown) → p.typing = s → Distinct c p.names →
    act { c with isAsync } p = .ok (a, q) →
    q.typing = s ∧ Distinct c q.names ∧ Later c p.names q.names ∧
      ∃ added, q.made.toList = p.made.toList ++ added ∧ ∀ n, Distinct c n → Later c q.names n → post a added n

section Steps

variable {α β : Type} {s : State} {c : Context} {post other : α → List Target.Stmt → Names → Prop}
  {next : β → List Target.Stmt → Names → Prop} {m : Lowering α} {k : α → Lowering β}

theorem Later.refl (n : Names) : Later c n n := fun _ _ h => h

theorem Later.trans {n n' n'' : Names} (first : Later c n n') (then' : Later c n' n'') : Later c n n'' :=
  fun x a h => then' x a (first x a h)

theorem Steps.bind (first : Steps s c post m) (rest : ∀ a xs, (∃ n, Distinct c n ∧ post a xs n) →
    Steps s c (fun b ys n => post a xs n → next b (xs ++ ys) n) (k a)) : Steps s c next (m >>= k) := by
  intro isAsync p b r awaits typing distinct run
  rw [bindRun] at run
  cases done : m { c with isAsync } p with
  | error f => simp [done] at run
  | ok result =>
    obtain ⟨a, q⟩ := result
    simp only [done] at run
    obtain ⟨typing, distinct, kept, xs, made, holds⟩ := first isAsync p a q awaits typing distinct done
    obtain ⟨typing, distinct', kept', ys, made', holds'⟩ :=
      rest a xs ⟨_, distinct, holds _ distinct (Later.refl _)⟩ isAsync q b r awaits typing distinct run
    refine ⟨typing, distinct', kept.trans kept', xs ++ ys, by simp [made', made], fun n sane later => ?_⟩
    exact holds' n sane later (holds n sane (kept'.trans later))

theorem Steps.weaken (h : Steps s c other m) (implies : ∀ a xs n, Distinct c n → other a xs n → post a xs n) :
    Steps s c post m := by
  intro isAsync p a q awaits typing distinct run
  obtain ⟨typing, distinct, kept, xs, made, holds⟩ := h isAsync p a q awaits typing distinct run
  exact ⟨typing, distinct, kept, xs, made, fun n sane later => implies a xs n sane (holds n sane later)⟩

theorem Steps.pure {a : α} (h : ∀ n, Distinct c n → post a [] n) : Steps s c post (pure a) := by
  intro isAsync p b q awaits typing distinct run
  cases run
  exact ⟨typing, distinct, Later.refl _, [], by simp, fun n sane _ => h n sane⟩

theorem Steps.throw (f : Failure) : Steps s c post (throw f) := by
  intro isAsync p b q awaits typing distinct run
  cases run

theorem refuseSteps (message : String) : Steps s c post (refuse message) := Steps.throw _

theorem readSteps : Steps s c (fun a xs _ => xs = [] ∧ (a.isAsync = true → s.PromiseKnown)) (read : Lowering Context) := by
  intro isAsync p b q awaits typing distinct run
  cases run
  exact ⟨typing, distinct, Later.refl _, [], by simp, fun _ _ _ => ⟨rfl, awaits⟩⟩

theorem getSteps : Steps s c (fun p xs _ => xs = [] ∧ p.typing = s) (get : Lowering Progress) := by
  intro isAsync p b q awaits typing distinct run
  cases run
  exact ⟨typing, distinct, Later.refl _, [], by simp, fun _ _ _ => ⟨rfl, typing⟩⟩

theorem pushSteps (x : Target.Stmt) : Steps s c (fun _ xs _ => xs = [x]) (push x) := by
  intro isAsync p b q awaits typing distinct run
  cases run
  exact ⟨typing, distinct, Later.refl _, [x], by simp, fun _ _ _ => rfl⟩

theorem askSteps {question : Typing.Check α} (still : ∀ a s', question.run s = .ok (a, s') → s' = s) :
    Steps s c (fun a xs _ => xs = [] ∧ question.run s = .ok (a, s)) (ask question) := by
  intro isAsync p a q awaits typing distinct run
  subst typing
  simp only [ask, bindRun, getRun] at run
  cases answered : question.run p.typing with
  | error f =>
    simp only [answered] at run
    cases run
  | ok result =>
    obtain ⟨b, s'⟩ := result
    obtain rfl := still b s' answered
    simp only [answered, bindRun, modifyRun] at run
    cases run
    exact ⟨rfl, distinct, Later.refl _, [], by simp, fun _ _ _ => ⟨rfl, rfl⟩⟩

theorem nameOfAsync (x : SymbolId) (isAsync : Bool) (p : Progress) : nameOf x { c with isAsync } p = nameOf x c p := by
  have same : ({ c with isAsync } : Context).libraryName? x = c.libraryName? x := rfl
  cases found : c.libraryName? x with
  | some name => rw [libraryNameRun (same.trans found), libraryNameRun found]
  | none => rw [givenNameRun (same.trans found), givenNameRun found]

theorem nameOfSteps (x : SymbolId) : Steps s c (fun a xs n => xs = [] ∧ c.named? n x = some a) (nameOf x) := by
  intro isAsync p a q awaits typing distinct run
  rw [nameOfAsync] at run
  obtain ⟨continues, named⟩ := nameOfContinues distinct run
  exact ⟨continues.typing.trans typing, continues.distinct, continues.kept, [], by simp [continues.made],
    fun n _ later => ⟨rfl, later x a named⟩⟩

theorem temporarySteps (kind : Temporary) : Steps s c (fun _ xs _ => xs = []) (temporary kind) := by
  intro isAsync p a q awaits typing distinct run
  cases run
  exact ⟨typing, temporaryDistinct distinct kind.label, fun x a named => named, [], by simp, fun _ _ _ => rfl⟩

theorem collectedSteps {act : Lowering Unit} {good : List Target.Stmt → Names → Prop}
    (h : Steps s c (fun _ xs n => good xs n) act) :
    Steps s c (fun body xs n => xs = [] ∧ good body n) (collected act) := by
  intro isAsync p body q awaits typing distinct run
  rw [collectedRun] at run
  cases ended : act { c with isAsync } { p with made := #[] } with
  | error f => simp [ended] at run
  | ok r =>
    obtain ⟨typing, distinct, kept, added, made, holds⟩ :=
      h isAsync { p with made := #[] } r.1 r.2 awaits typing distinct ended
    simp only [ended, Except.ok.injEq, Prod.mk.injEq] at run
    obtain ⟨rfl, rfl⟩ := run
    refine ⟨typing, distinct, kept, [], by simp, fun n sane later => ⟨rfl, ?_⟩⟩
    simpa [made] using holds n sane later

theorem suiteSteps {act : Lowering Unit} {good : List Target.Stmt → Names → Prop}
    (h : Steps s c (fun _ xs n => good xs n) act) (pass : ∀ n, good [] n → good [.pass] n) :
    Steps s c (fun body xs n => xs = [] ∧ good body n) (suite act) := by
  refine (collectedSteps h).bind fun body xs _ => ?_
  split
  · refine Steps.pure fun n _ held => ⟨by simp [held.1], pass n held.2⟩
  · refine Steps.pure fun n _ held => ⟨by simp [held.1], held.2⟩

theorem asyncSteps (h : Steps s c post m) {isAsync : Bool} (awaits : isAsync = true → s.PromiseKnown) :
    Steps s c post (withReader (fun c => { c with isAsync }) m) :=
  fun _ p a q _ typing distinct run => h isAsync p a q awaits typing distinct run

end Steps

/-! Sound statements -/

section Sound

variable {c : Context} {n : Names} {outer laid more : List SymbolId} {xs ys : List Target.Stmt}

theorem boundAppend (xs ys : List Target.Stmt) : Target.boundIn (xs ++ ys) = Target.boundIn xs ++ Target.boundIn ys := by
  induction xs with
  | nil => rfl
  | cons x xs ih => simp [Target.boundIn, ih]

theorem Covers.append {xs ys : List SymbolId} {names : List String} (first : Covers c n xs names)
    (rest : Covers c n ys names) : Covers c n (xs ++ ys) names := by
  intro x member
  rcases List.mem_append.mp member with member | member
  · exact first x member
  · exact rest x member

theorem Covers.weaken {xs : List SymbolId} {names others : List String} (h : Covers c n xs names)
    (there : names ⊆ others) : Covers c n xs others := fun x member a named => there (h x member a named)

theorem Covers.less {xs ys : List SymbolId} {names : List String} (h : Covers c n xs names) (fewer : ys ⊆ xs) :
    Covers c n ys names := fun x member => h x (fewer member)

theorem Covers.none (names : List String) : Covers c n [] names := by simp [Covers]

theorem Sound.append (first : Sound c n outer laid xs) (rest : Sound c n outer more ys) :
    Sound c n outer (laid ++ more) (xs ++ ys) where
  quiet := first.quiet.append rest.quiet
  lawful around covers := (first.lawful around covers).append (rest.lawful around covers)
  binds := by
    rw [boundAppend]
    exact (first.binds.weaken (List.subset_append_left _ _)).append (rest.binds.weaken (List.subset_append_right _ _))

theorem Sound.nil : Sound c n outer [] [] := ⟨by simp [Quiet], fun _ _ => .nil, Covers.none _⟩

theorem Sound.single {x : Target.Stmt} (plain : x.isBorrow = false)
    (lawful : ∀ around, Covers c n outer around → Lawful around [x]) (binds : Covers c n laid x.bound) : Sound c n outer laid [x] :=
  ⟨by simpa [Quiet] using plain, lawful, by simpa [Target.boundIn] using binds⟩

theorem Sound.pass (h : Sound c n outer laid []) : Sound c n outer laid [.pass] :=
  .single rfl (fun _ _ => .single (fun _ => rfl) fun _ => rfl) h.binds

theorem Sound.less (h : Sound c n outer laid xs) (fewer : more ⊆ laid) : Sound c n outer more xs :=
  ⟨h.quiet, h.lawful, h.binds.less fewer⟩

theorem Sound.cond (test : Target.Expr) (yes : Sound c n outer laid xs) (no : Sound c n outer more ys) :
    Sound c n outer (laid ++ more) [.cond test xs (some ys)] := by
  refine .single rfl (fun around covers => .cond test (yes.lawful around covers) ?_) ?_
  · rintro _ ⟨⟩
    exact no.lawful around covers
  · unfold Target.Stmt.bound
    simp only [Target.boundInOption, List.append_assoc]
    refine Covers.weaken (Covers.append ?_ ?_) (List.subset_append_right _ _)
    · exact yes.binds.weaken (List.subset_append_left _ _)
    · exact no.binds.weaken (List.subset_append_right _ _)

theorem Sound.branch (test : Target.Expr) (yes : Sound c n outer laid xs) : Sound c n outer laid [.cond test xs none] := by
  refine .single rfl (fun around covers => .cond test (yes.lawful around covers) (by simp)) ?_
  unfold Target.Stmt.bound
  simp only [Target.boundInOption, List.append_nil]
  exact yes.binds.weaken (List.subset_append_right _ _)

theorem Sound.loop (test : Target.Expr) (body : Sound c n outer laid xs) : Sound c n outer laid [.loop test xs] :=
  .single rfl (fun around covers => .loop test (body.lawful around covers))
    (body.binds.weaken (List.subset_append_right _ _))

end Sound

/-- A step that adds sound statements. -/
def Lays {α : Type} (s : State) (c : Context) (outer laid : List SymbolId) (act : Lowering α) : Prop :=
  Steps s c (fun _ xs n => Sound c n outer laid xs) act

section Lays

variable {α β : Type} {s : State} {c : Context} {outer laid more : List SymbolId} {Q : α → Names → Prop}
  {m : Lowering α} {k : α → Lowering β}

theorem Lays.bind (first : Lays s c outer laid m) (rest : ∀ a, Lays s c outer more (k a)) :
    Lays s c outer (laid ++ more) (m >>= k) :=
  Steps.bind first fun a _ _ => (rest a).weaken fun _ _ _ _ later made => made.append later

theorem Lays.before (first : Lays s c outer [] m) (rest : ∀ a, Lays s c outer laid (k a)) :
    Lays s c outer laid (m >>= k) := first.bind rest

theorem Lays.less (h : Lays s c outer laid m) (fewer : more ⊆ laid) : Lays s c outer more m :=
  h.weaken fun _ _ _ _ sound => sound.less fewer

theorem Lays.given (first : Steps s c (fun a xs n => xs = [] ∧ Q a n) m)
    (rest : ∀ a, (∃ n, Distinct c n ∧ Q a n) → Steps s c (fun _ xs n => Q a n → Sound c n outer laid xs) (k a)) :
    Lays s c outer laid (m >>= k) := by
  refine Steps.bind first fun a xs held => ?_
  refine (rest a (held.imp fun _ h => ⟨h.1, h.2.2⟩)).weaken ?_
  rintro _ ys n _ later ⟨rfl, holds⟩
  exact later holds

theorem Lays.pure (a : α) : Lays s c outer [] (pure a) := Steps.pure fun _ _ => Sound.nil

theorem Lays.quietly (h : Steps s c (fun a xs n => xs = [] ∧ Q a n) m) : Lays s c outer [] m := by
  refine h.weaken ?_
  rintro _ _ _ _ ⟨rfl, -⟩
  exact Sound.nil

theorem askLays {question : Typing.Check α} (still : ∀ a s', question.run s = .ok (a, s') → s' = s) :
    Lays s c outer [] (ask question) := Lays.quietly (askSteps still)

theorem nameOfLays (x : SymbolId) : Lays s c outer [] (nameOf x) := Lays.quietly (nameOfSteps x)

theorem getLays : Lays s c outer [] (get : Lowering Progress) := Lays.quietly getSteps

theorem temporaryLays (kind : Temporary) : Lays s c outer [] (temporary kind) := by
  refine (temporarySteps kind).weaken ?_
  rintro _ _ _ _ rfl
  exact Sound.nil

theorem pushLays {x : Target.Stmt} (plain : x.isBorrow = false) (params : ∀ line, x.paramViolation line = none)
    (names : ∀ around line, x.nameViolation around line = none) : Lays s c outer [] (push x) := by
  refine (pushSteps x).weaken ?_
  rintro _ _ n _ rfl
  exact .single plain (fun around _ => .single params (names around)) (Covers.none _)

theorem assignLays (x : SymbolId) (value : Target.Expr) :
    Lays s c outer [x] (nameOf x >>= fun name => push (.assign name value)) := by
  refine Lays.given (nameOfSteps x) fun name _ => (pushSteps _).weaken ?_
  rintro _ _ n _ rfl named
  refine .single rfl (fun _ _ => .single (fun _ => rfl) fun _ => rfl) ?_
  intro y member a has
  obtain rfl := List.mem_singleton.mp member
  cases has.symm.trans named
  exact List.mem_cons_self

theorem suiteLays {act : Lowering Unit} (h : Lays s c outer laid act) :
    Steps s c (fun body xs n => xs = [] ∧ Sound c n outer laid body) (suite act) :=
  suiteSteps h fun _ => Sound.pass

end Lays

/-! Parts of expressions -/

def Typed (s : State) (e : Expr) : Prop := (s.nodeTypes[e.mark.id]?).isSome = true

section Parts

variable {s : State} {c : Context} {outer : List SymbolId} {a b : Target.Expr}

/-- An answer that only needs to be looked up. -/
theorem lookupLays {α : Type} {question : Typing.Check α} {v : α}
    (reads : Typing.Reads s (1 ≤ Typing.depthLimit) question v) : Lays s c outer [] (ask question) := by
  refine askLays fun a s' run => ?_
  cases (reads.known (by decide)).symm.trans run
  rfl

theorem typedReads {e : Expr} (typed : Typed s e) :
    ∃ t, Typing.Reads s (1 ≤ Typing.depthLimit) (Typing.Check.typeOfExpr e) t := by
  obtain ⟨t, known⟩ := Option.isSome_iff_exists.mp typed
  exact ⟨t, Typing.readsExprType known⟩

theorem typeOfLays {e : Expr} (typed : Typed s e) : Lays s c outer [] (typeOf e) := by
  obtain ⟨t, reads⟩ := typedReads typed
  exact lookupLays reads

/-- Making the parts of an expression adds no statement, if checking has found their types. -/
theorem laysCompose : Composes (fun act => Lays s c outer [] act)
    (fun question => ∃ v, Typing.Reads s (1 ≤ Typing.depthLimit) question v) where
  pure a := .pure a
  throw f := Steps.throw f
  bind first rest := first.before rest
  get := getLays
  ask := fun ⟨_, reads⟩ => lookupLays reads
  nameOf := nameOfLays
  temporary := temporaryLays
  symbolAt mark := ⟨symbolAt s mark, fun _ _ => .inl rfl⟩
  symbol x := ⟨_, Typing.readsSymbol _ x⟩
  form t := ⟨_, Typing.readsForm _ t⟩
  parts t mask := ⟨s.allParts t mask, fun _ _ => .inl rfl⟩

theorem returnLays {source : Expr} (typed : Typed s source) :
    Lays s c outer [] (returnExpr source a) := by
  have flag (t : Typing.TypeId) : Lays s c outer [] (ask (Typing.Check.hasFlag t Typing.TypeFlags.any)) :=
    lookupLays (Typing.readsFlag _ t _)
  refine Lays.given readSteps fun context held => Steps.weaken (?_ : Lays s c outer [] _) fun _ _ _ _ sound _ => sound
  obtain ⟨_, _, awaits⟩ := held
  split
  · exact .pure _
  case isFalse isAsync =>
    refine (typeOfLays typed).before fun t => (flag t).before fun isAny => ?_
    split
    · exact .pure _
    · obtain ⟨_, promised⟩ := Typing.readsPromised (awaits (by simpa using isAsync)) t
      refine (lookupLays promised).before fun found => ?_
      split <;> exact .pure _

end Parts

/-! Parts of functions -/

def symbolsOf (s : State) (marks : List Mark) : List SymbolId := marks.filterMap fun m => s.symbolOf[m.id]?

/-- The names that a function takes from elsewhere are none of its own symbols, and those from functions around
are names of outer symbols. -/
structure Borrows (c : Context) (n : Names) (outer own : List SymbolId) (globals nonlocals : List String) : Prop where
  apart : ∀ a, a ∈ globals ∨ a ∈ nonlocals → ∃ x, x ∉ own ∧ c.named? n x = some a
  known : ∀ a ∈ nonlocals, ∃ x ∈ outer, c.named? n x = some a

/-- Statements that begin by saying where names come from. -/
def Opened (c : Context) (n : Names) (outer own inner laid : List SymbolId) (ss : List Target.Stmt) : Prop :=
  ∃ globals nonlocals rest, ss = borrowLines globals nonlocals ++ rest ∧ Borrows c n outer own globals nonlocals ∧
    Sound c n inner laid rest

section Functions

variable {α β : Type} {s : State} {c : Context} {outer own inner laid more : List SymbolId}

theorem mapSteps {f : α → Lowering β} {Q : α → β → Names → Prop}
    (each : ∀ a, Steps s c (fun b xs n => xs = [] ∧ Q a b n) (f a)) (items : List α) :
    Steps s c (fun bs xs n => xs = [] ∧ List.Forall₂ (fun a b => Q a b n) items bs) (items.mapM f) := by
  induction items with
  | nil => exact Steps.pure fun _ _ => ⟨rfl, .nil⟩
  | cons a rest ih =>
    rw [List.mapM_cons]
    refine (each a).bind fun b xs _ => ih.bind fun bs ys _ => Steps.pure ?_
    rintro n _ ⟨rfl, all⟩ ⟨rfl, one⟩
    exact ⟨rfl, .cons one all⟩

theorem coversNamed {n : Names} {symbols : List SymbolId} {names : List String}
    (all : List.Forall₂ (fun x a => c.named? n x = some a) symbols names) : Covers c n symbols names := by
  intro x member a has
  induction all with
  | nil => cases member
  | cons named rest ih =>
    rcases List.mem_cons.mp member with rfl | member
    · cases has.symm.trans named
      exact List.mem_cons_self
    · exact List.mem_cons_of_mem _ (ih member)

theorem declaredSymbolSteps (mark : Mark) :
    Steps s c (fun found xs _ => xs = [] ∧ found = s.symbolOf[mark.id]?) (declaredSymbol? mark) := by
  refine getSteps.bind fun p xs held => Steps.pure ?_
  rintro n _ ⟨rfl, rfl⟩
  exact ⟨rfl, rfl⟩

theorem declaredSymbolsSteps (marks : List Mark) :
    Steps s c (fun found xs _ => xs = [] ∧ found = symbolsOf s marks) (declaredSymbols marks) := by
  unfold declaredSymbols
  induction marks with
  | nil => exact Steps.pure fun _ _ => ⟨rfl, rfl⟩
  | cons m rest ih =>
    rw [List.filterMapM_cons]
    refine (declaredSymbolSteps m).bind fun found xs held => ?_
    obtain ⟨_, _, rfl, rfl⟩ := held
    cases declared : s.symbolOf[m.id]? with
    | none =>
      refine ih.weaken ?_
      rintro _ _ _ _ ⟨rfl, rfl⟩ _
      exact ⟨rfl, by simp [symbolsOf, declared]⟩
    | some x =>
      refine ih.bind fun ys _ _ => Steps.pure ?_
      rintro n _ ⟨rfl, rfl⟩ _
      exact ⟨rfl, by simp [symbolsOf, declared]⟩

theorem variableNameSteps (mark : Mark) (name : String) :
    Steps s c (fun x xs _ => xs = [] ∧ s.symbolOf[mark.id]? = some x) (variableName mark name) := by
  refine (declaredSymbolSteps mark).bind fun found xs held => ?_
  obtain ⟨_, _, rfl, rfl⟩ := held
  split
  case h_1 x declared => exact Steps.pure fun _ _ _ => ⟨rfl, declared⟩
  case h_2 => exact refuseSteps _

/-- The code of a parameter is passed like the parameter, under the name of its symbol. -/
theorem parametersSteps (params : List Param) :
    Steps s c (fun r xs n => xs = [] ∧ r.1.map (·.mode) = params.map (·.mode) ∧ r.2 = symbolsOf s (params.map (·.mark)) ∧
      Covers c n r.2 (r.1.map (·.name))) (parameters params) := by
  unfold parameters
  refine (mapSteps (Q := fun p r n => s.symbolOf[p.mark.id]? = some r.2 ∧ c.named? n r.2 = some r.1.name ∧
    r.1.mode = p.mode) (fun p => ?one) params).bind fun made xs held => ?_
  case one =>
    refine (declaredSymbolSteps p.mark).bind fun found xs held => ?_
    obtain ⟨_, _, rfl, rfl⟩ := held
    split
    case h_1 => exact refuseSteps _
    case h_2 x declared =>
      refine (nameOfSteps x).bind fun name ys _ => Steps.pure ?_
      rintro n _ ⟨rfl, named⟩ _
      exact ⟨rfl, declared, named, rfl⟩
  clear held
  refine Steps.pure ?_
  rintro n _ ⟨rfl, all⟩
  have named : List.Forall₂ (fun x a => c.named? n x = some a) (made.map (·.2)) (made.map (·.1.name)) := by
    induction all with
    | nil => exact .nil
    | cons first rest ih => exact .cons first.2.1 ih
  refine ⟨rfl, ?_, ?_, ?_⟩
  case refine_3 =>
    rw [List.map_map]
    exact coversNamed named
  all_goals
    clear named
    induction all with
    | nil => rfl
    | cons first rest ih => simp_all [symbolsOf]

theorem hoistLinesLays (marks : List Mark) : Lays s c outer (symbolsOf s marks) (hoistLines marks) := by
  have lines (names : List String) : Steps s c (fun _ xs _ => xs = names.map (.assign · .none))
      (forIn names PUnit.unit fun name _ => do
        push (.assign name .none)
        pure (ForInStep.yield PUnit.unit)) := by
    induction names with
    | nil => exact Steps.pure fun _ _ => rfl
    | cons name rest ih =>
      simp only [List.forIn_cons, bind_assoc, pure_bind]
      refine (pushSteps _).bind fun _ xs _ => ih.weaken ?_
      rintro _ _ _ _ rfl rfl
      rfl
  have sound (n : Names) (names : List String) : Sound c n outer [] (names.map (.assign · .none)) := by
    induction names with
    | nil => exact .nil
    | cons name rest ih => exact .append (.single rfl (fun _ _ => .single (fun _ => rfl) fun _ => rfl) (Covers.none _)) ih
  have bound (names : List String) : names ⊆ Target.boundIn (names.map (.assign · .none)) := by
    induction names with
    | nil => simp
    | cons name rest ih =>
      intro x member
      rcases List.mem_cons.mp member with rfl | member
      · exact List.mem_cons_self
      · exact List.mem_cons_of_mem _ (ih member)
  simp only [hoistLines]
  refine (declaredSymbolsSteps marks).bind fun symbols xs held => ?_
  obtain ⟨_, _, rfl, rfl⟩ := held
  refine (mapSteps nameOfSteps _).bind fun names ys held => ?_
  clear held
  refine (lines names.eraseDups).bind fun _ zs _ => Steps.pure ?_
  rintro n _ rfl ⟨rfl, all⟩ _
  simp only [List.append_nil, List.nil_append]
  refine ⟨(sound n _).quiet, (sound n _).lawful, fun x member a has => bound _ ?_⟩
  exact List.mem_eraseDups.mpr (coversNamed all x member a has)

theorem collectLineLays (params : List Target.Param) : Lays s c outer [] (collectLine params) := by
  unfold collectLine
  split
  · exact pushLays rfl (fun _ => rfl) fun _ _ => rfl
  · exact .pure _

theorem distinctAsync {n : Names} {isAsync : Bool} : Distinct { c with isAsync } n ↔ Distinct c n :=
  ⟨fun h => ⟨h.libraries, h.taken, h.given, h.apart⟩, fun h => ⟨h.libraries, h.taken, h.given, h.apart⟩⟩

theorem bindingLinesSteps {assigned : List Mark}
    (known : ∀ x ∈ foreignSymbols s assigned own, c.isOutermost x ∨ x ∈ outer) :
    Steps s c (fun _ xs n => Opened c n outer own inner [] xs) (bindingLines assigned own) := by
  intro isAsync p a q awaits typing distinct run
  subst typing
  obtain ⟨named, r, placed, typing, names, made⟩ := bindingLinesRun run
  obtain ⟨continues, -, only⟩ := placedNamesContinue _ (distinctAsync.mpr distinct) placed
  -- Foreign symbols are named here for the first time or have kept their names; both ways these are their last names.
  refine ⟨typing.trans continues.typing, names ▸ distinctAsync.mp continues.distinct, names ▸ continues.kept,
    _, made.trans (by rw [continues.made]), fun n _ later => ⟨_, _, [], (List.append_nil _).symm, ⟨?_, ?_⟩, Sound.nil⟩⟩
  · intro a member
    have entry : ∃ b, (b, a) ∈ named := by
      rcases member with member | member <;> obtain ⟨⟨b, _⟩, entry, rfl⟩ := List.mem_map.mp member
      · exact ⟨b, (List.mem_filter.mp entry).1⟩
      · exact ⟨b, (List.mem_filter.mp entry).1⟩
    obtain ⟨b, entry⟩ := entry
    obtain ⟨x, foreign, -, has⟩ := only _ entry
    have apart := (List.mem_filter.mp foreign).2
    simp only [Bool.and_eq_true, Bool.not_eq_true', List.contains_eq_mem, decide_eq_false_iff_not] at apart
    exact ⟨x, apart.1, later x a (names ▸ has)⟩
  · intro a member
    obtain ⟨⟨b, _⟩, entry, rfl⟩ := List.mem_map.mp member
    obtain ⟨entry, inner⟩ := List.mem_filter.mp entry
    obtain ⟨x, foreign, place, has⟩ := only _ entry
    rcases known x foreign with outermost | member
    · rw [show c.isOutermost x = b from place.symm] at outermost
      simp [outermost] at inner
    · exact ⟨x, member, later x _ (names ▸ has)⟩

theorem Opened.append {n : Names} {xs ys : List Target.Stmt} (first : Opened c n outer own inner laid xs)
    (rest : Sound c n inner more ys) : Opened c n outer own inner (laid ++ more) (xs ++ ys) := by
  obtain ⟨globals, nonlocals, xs, rfl, borrows, sound⟩ := first
  exact ⟨globals, nonlocals, xs ++ ys, by simp, borrows, sound.append rest⟩

theorem Opened.pass {n : Names} (h : Opened c n outer own inner laid []) : Opened c n outer own inner laid [.pass] := by
  obtain ⟨globals, nonlocals, rest, empty, borrows, sound⟩ := h
  obtain ⟨none, rfl⟩ := List.append_eq_nil_iff.mp empty.symm
  exact ⟨globals, nonlocals, [.pass], by simp [none], borrows, sound.pass⟩

/-- A function keeps the rules if its parameters do and its statements bind what they are taken to bind. -/
theorem Opened.define {n : Names} {params : List Target.Param} {symbols : List SymbolId} {body : List Target.Stmt}
    {around : List String} (h : Opened c n outer own (symbols ++ laid ++ outer) laid body) (distinct : Distinct c n)
    (ordered : Target.paramFault false false params = none) (named : Covers c n symbols (params.map (·.name)))
    (mine : symbols ++ laid ⊆ own) (covers : Covers c n outer around) (name : String) (isAsync : Bool) :
    Lawful around [.define name isAsync params body] := by
  obtain ⟨globals, nonlocals, rest, rfl, borrows, sound⟩ := h
  refine Lawful.define name isAsync ordered (fun a member => ?_) sound.quiet (sound.lawful _ ?_)
  · obtain ⟨x, member, has⟩ := borrows.known a member
    exact covers x member a has
  · have bound : Covers c n (symbols ++ laid)
        (params.map (·.name) ++ Target.boundIn (borrowLines globals nonlocals ++ rest)) := by
      rw [boundAppend]
      refine (named.weaken (List.subset_append_left _ _)).append (sound.binds.weaken fun a member => ?_)
      exact List.mem_append_right _ (List.mem_append_right _ member)
    refine Covers.append (fun x member a has => List.mem_append_left _ ?_) (covers.weaken (List.subset_append_right _ _))
    refine List.mem_filter.mpr ⟨List.mem_eraseDups.mpr (bound x member a has), ?_⟩
    -- A borrowed name is that of another symbol, and names are different.
    simp only [List.contains_eq_mem, Bool.not_eq_true', decide_eq_false_iff_not, Target.borrowedLines _ _ sound.quiet]
    intro taken
    obtain ⟨y, other, same⟩ := borrows.apart a taken
    cases namedInjective distinct has same
    exact other (mine member)

/-- A step that begins by saying where names come from. -/
def Opens (s : State) (c : Context) (outer own inner laid : List SymbolId) (act : Lowering Unit) : Prop :=
  Steps s c (fun _ xs n => Opened c n outer own inner laid xs) act

theorem Opens.bind {m : Lowering Unit} {k : Unit → Lowering Unit} (first : Opens s c outer own inner laid m)
    (rest : ∀ a, Lays s c inner more (k a)) : Opens s c outer own inner (laid ++ more) (m >>= k) :=
  Steps.bind first fun a _ _ => (rest a).weaken fun _ _ _ _ later opened => opened.append later

theorem functionBodySteps {act : Lowering Unit} (h : Opens s c outer own inner laid act) {isAsync : Bool}
    (awaits : isAsync = true → s.PromiseKnown) :
    Steps s c (fun body xs n => xs = [] ∧ Opened c n outer own inner laid body) (functionBody isAsync act) :=
  asyncSteps (suiteSteps h fun _ => Opened.pass) awaits

theorem defineSteps {act : Lowering Unit} {params : List Target.Param} {symbols : List SymbolId}
    (opens : Opens s c outer own (symbols ++ laid ++ outer) laid act) (mine : symbols ++ laid ⊆ own)
    (ordered : Target.paramFault false false params = none) (name : String) {isAsync : Bool}
    (awaits : isAsync = true → s.PromiseKnown) :
    Steps s c (fun _ xs n => Covers c n symbols (params.map (·.name)) → Sound c n outer [] xs ∧ Target.boundIn xs = [name])
      (functionBody isAsync act >>= fun inside => push (.define name isAsync params inside)) := by
  refine (functionBodySteps opens awaits).bind fun body xs _ => (pushSteps _).weaken ?_
  rintro _ _ n distinct rfl ⟨rfl, opened⟩ named
  refine ⟨.single rfl (fun around covers => ?_) (Covers.none _), rfl⟩
  exact opened.define distinct ordered named mine covers name isAsync

theorem paramFaultModes {ps qs : List Target.Param} (same : ps.map (·.mode) = qs.map (·.mode)) (optional rest : Bool) :
    Target.paramFault optional rest ps = Target.paramFault optional rest qs := by
  induction ps generalizing qs optional rest with
  | nil =>
    cases qs with
    | nil => rfl
    | cons => cases same
  | cons p ps ih =>
    cases qs with
    | nil => cases same
    | cons q qs =>
      obtain ⟨mode, modes⟩ := List.cons.inj same
      simp only [Target.paramFault, mode, ih modes]

end Functions

end Fragment.Emit
