import Fragment.Emit.Lower

/-! Steps of making code, in a file without declarations.
The shape of the module makes no difference to them, the statements made before are kept, and symbols
get no names like those that the code keeps for itself, as long as libraries declare none. -/
namespace Fragment.Emit

open Lowering

/-- A file without declarations, and libraries that leave the names of the code alone. -/
structure Calm (c : Context) : Prop where
  declares : c.moduleSymbols = []
  libraries : ∀ s ∈ c.librarySymbols, startsWithUnderscores s.1 = false

/-- No symbol has a name like those of the code itself. -/
def Tidy (n : Names) : Prop := ∀ s ∈ n.symbols, startsWithUnderscores s.2 = false

/-- A step of making code that does not depend on the shape of the module. Its result and the statements
that it adds satisfy a condition. -/
structure Makes {α : Type} (post : α → List Target.Stmt → Prop) (act : Lowering α) : Prop where
  alike : ∀ c kind p, Calm c → Tidy p.names → act { c with kind } p = act c p
  makes : ∀ c p a q, Calm c → Tidy p.names → act c p = .ok (a, q) →
    Tidy q.names ∧ ∃ added, q.made.toList = p.made.toList ++ added ∧ post a added

/-- A step that adds nothing and whose result satisfies a condition. -/
def Finds {α : Type} (Q : α → Prop) (act : Lowering α) : Prop := Makes (fun a xs => xs = [] ∧ Q a) act

section Makes

variable {α β : Type} {post other : α → List Target.Stmt → Prop} {next : β → List Target.Stmt → Prop}
  {Q : α → Prop} {m : Lowering α} {k : α → Lowering β}

theorem bindRun (m : Lowering α) (k : α → Lowering β) (c : Context) (p : Progress) :
    (m >>= k) c p = match m c p with
      | .ok (a, q) => k a c q
      | .error f => .error f := by
  simp only [bind, ReaderT.bind, StateT.bind, Except.bind]
  cases m c p <;> rfl

theorem bindOk {c : Context} {p r : Progress} {b : β} (run : (m >>= k) c p = .ok (b, r)) :
    ∃ a q, m c p = .ok (a, q) ∧ k a c q = .ok (b, r) := by
  rw [bindRun] at run
  cases ended : m c p with
  | error f => simp [ended] at run
  | ok result => exact ⟨result.1, result.2, rfl, by simpa [ended] using run⟩

theorem pureRun (a : α) (c : Context) (p : Progress) : (pure a : Lowering α) c p = .ok (a, p) := rfl

theorem readRun (c : Context) (p : Progress) : (read : Lowering Context) c p = .ok (c, p) := rfl

theorem getRun (c : Context) (p : Progress) : (get : Lowering Progress) c p = .ok (p, p) := rfl

theorem modifyRun (f : Progress → Progress) (c : Context) (p : Progress) :
    (modify f : Lowering Unit) c p = .ok ((), f p) := rfl

theorem Makes.bind (first : Makes post m)
    (rest : ∀ a xs, post a xs → Makes (fun b ys => next b (xs ++ ys)) (k a)) : Makes next (m >>= k) where
  alike c kind p calm tidy := by
    rw [bindRun, bindRun, first.alike c kind p calm tidy]
    cases h : m c p with
    | error f => rfl
    | ok r =>
      obtain ⟨a, q⟩ := r
      obtain ⟨tidy, xs, _, made⟩ := first.makes c p a q calm tidy h
      exact (rest a xs made).alike c kind q calm tidy
  makes c p b r calm tidy run := by
    rw [bindRun] at run
    cases h : m c p with
    | error f => simp [h] at run
    | ok s =>
      obtain ⟨a, q⟩ := s
      simp only [h] at run
      obtain ⟨tidy, xs, added, made⟩ := first.makes c p a q calm tidy h
      obtain ⟨tidy, ys, later, done⟩ := (rest a xs made).makes c q b r calm tidy run
      exact ⟨tidy, xs ++ ys, by simp [later, added], done⟩

theorem Makes.pure {a : α} (h : post a []) : Makes post (pure a) where
  alike _ _ _ _ _ := rfl
  makes c p b q calm tidy run := by
    cases run
    exact ⟨tidy, [], by simp, h⟩

theorem Makes.throw (f : Failure) : Makes post (throw f) where
  alike _ _ _ _ _ := rfl
  makes c p b q calm tidy run := by cases run

theorem Makes.weaken (h : Makes other m) (implies : ∀ a xs, other a xs → post a xs) : Makes post m where
  alike := h.alike
  makes c p a q calm tidy run := by
    obtain ⟨tidy, xs, added, made⟩ := h.makes c p a q calm tidy run
    exact ⟨tidy, xs, added, implies a xs made⟩

/-- A step that adds nothing, and what follows. -/
theorem Finds.bind (first : Finds Q m) (rest : ∀ a, Q a → Makes next (k a)) : Makes next (m >>= k) := by
  refine Makes.bind first ?_
  rintro a _ ⟨rfl, h⟩
  exact rest a h

theorem Finds.pure {a : α} (h : Q a) : Finds Q (pure a) := Makes.pure ⟨rfl, h⟩

theorem Finds.weaken {R : α → Prop} (h : Finds Q m) (implies : ∀ a, Q a → R a) : Finds R m :=
  Makes.weaken h fun a _ made => ⟨made.1, implies a made.2⟩

/-- What follows may depend on all that is known, apart from the shape of the module. -/
theorem Makes.known {k : Context → Lowering β} (same : ∀ c kind, Calm c → k { c with kind } = k c)
    (rest : ∀ c, Calm c → Makes next (k c)) : Makes next (read >>= k) where
  alike c kind p calm tidy := by
    change k { c with kind } { c with kind } p = k c c p
    rw [same c kind calm]
    exact (rest c calm).alike c kind p calm tidy
  makes c p b q calm tidy run := (rest c calm).makes c p b q calm tidy run

theorem getFinds : Finds (fun p => Tidy p.names) (get : Lowering Progress) where
  alike _ _ _ _ _ := rfl
  makes c p a q calm tidy run := by
    cases run
    exact ⟨tidy, [], by simp, rfl, tidy⟩

/-- A change that adds nothing. -/
theorem modifyFinds {f : Progress → Progress} (made : ∀ p, (f p).made = p.made)
    (tidy : ∀ p, Tidy p.names → Tidy (f p).names) : Finds (fun _ => True) (modify f : Lowering Unit) where
  alike _ _ _ _ _ := rfl
  makes c p a q calm before run := by
    cases run
    exact ⟨tidy p before, [], by simp [made p], rfl, trivial⟩

theorem pushMakes (s : Target.Stmt) : Makes (fun _ xs => xs = [s]) (push s) where
  alike _ _ _ _ _ := rfl
  makes c p a q calm tidy run := by
    cases run
    exact ⟨tidy, [s], by simp, rfl⟩

theorem askFinds (question : Typing.Check α) : Finds (fun _ => True) (ask question) := by
  refine getFinds.bind fun p _ => ?_
  split
  · refine Finds.bind (modifyFinds ?_ ?_) fun _ _ => Finds.pure trivial
    · exact fun _ => rfl
    · exact fun _ tidy => tidy
  · exact Makes.throw _

theorem refuseMakes (message : String) : Makes post (refuse message : Lowering α) := Makes.throw _

theorem collectedRun (act : Lowering Unit) (c : Context) (p : Progress) :
    collected act c p = match act c { p with made := #[] } with
      | .ok (_, q) => .ok (q.made.toList, { q with made := p.made })
      | .error f => .error f := by
  simp only [collected, bindRun, getRun, modifyRun]
  cases act c { p with made := #[] } <;> rfl

/-- The statements of a step, made apart. -/
theorem collectedFinds {act : Lowering Unit} {post : List Target.Stmt → Prop} (h : Makes (fun _ xs => post xs) act) :
    Finds post (collected act) where
  alike c kind p calm tidy := by
    rw [collectedRun, collectedRun, h.alike c kind { p with made := #[] } calm tidy]
  makes c p xs q calm tidy run := by
    rw [collectedRun] at run
    cases ended : act c { p with made := #[] } with
    | error f => simp [ended] at run
    | ok r =>
      obtain ⟨tidy, added, made, holds⟩ := h.makes c { p with made := #[] } r.1 r.2 calm tidy ended
      simp only [ended, Except.ok.injEq, Prod.mk.injEq] at run
      obtain ⟨rfl, rfl⟩ := run
      refine ⟨tidy, [], by simp, rfl, ?_⟩
      simpa [made] using holds

theorem suiteFinds {act : Lowering Unit} {post : List Target.Stmt → Prop} (h : Makes (fun _ xs => post xs) act)
    (pass : post [.pass]) : Finds post (suite act) := by
  refine (collectedFinds h).bind fun body holds => ?_
  split
  · exact Finds.pure pass
  · exact Finds.pure holds

theorem asyncMakes {act : Lowering α} (h : Makes post act) (isAsync : Bool) :
    Makes post (withReader (fun c => { c with isAsync }) act) where
  alike c kind p calm tidy := h.alike { c with isAsync } kind p ⟨calm.declares, calm.libraries⟩ tidy
  makes c p a q calm tidy run := h.makes { c with isAsync } p a q ⟨calm.declares, calm.libraries⟩ tidy run

end Makes

/-- A step whose result satisfies a condition. -/
def Results {α : Type} (Q : α → Prop) (act : Lowering α) : Prop := ∀ c p a q, act c p = .ok (a, q) → Q a

section Results

variable {α β : Type} {Q : α → Prop} {R : β → Prop} {m : Lowering α} {k : α → Lowering β}

theorem Results.pure {a : α} (h : Q a) : Results Q (pure a) := by
  intro c p b q run
  cases run
  exact h

theorem Results.throw (f : Failure) : Results Q (throw f) := by
  intro c p b q run
  cases run

theorem Results.bind (first : Results Q m) (rest : ∀ a, Q a → Results R (k a)) : Results R (m >>= k) := by
  intro c p b r run
  obtain ⟨a, q, ended, later⟩ := bindOk run
  exact rest a (first c p a q ended) c q b r later

theorem Results.last (rest : ∀ a, Results R (k a)) : Results R (m >>= k) :=
  Results.bind (Q := fun _ => True) (fun _ _ _ _ _ => trivial) fun a _ => rest a

end Results

section Lists

variable {α β : Type} {Q : β → Prop} {f : α → Lowering β}

theorem mapFinds (h : ∀ a, Finds Q (f a)) (items : List α) : Finds (fun bs => ∀ b ∈ bs, Q b) (items.mapM f) := by
  induction items with
  | nil => exact Finds.pure (by simp)
  | cons a rest ih =>
    rw [List.mapM_cons]
    refine (h a).bind fun b holds => ih.bind fun bs all => Finds.pure ?_
    simpa using ⟨holds, all⟩

theorem filterMapFinds {f : α → Lowering (Option β)} (h : ∀ a, Finds (fun _ => True) (f a)) (items : List α) :
    Finds (fun _ => True) (items.filterMapM f) := by
  induction items with
  | nil => exact Finds.pure trivial
  | cons a rest ih =>
    rw [List.filterMapM_cons]
    refine (h a).bind fun b _ => ?_
    cases b with
    | none => exact ih
    | some b => exact ih.bind fun _ _ => Finds.pure trivial

end Lists

/-! Names -/

theorem freeFromFree {n : Names} {base name : String} {fuel k : Nat} (h : n.freeFrom base fuel k = some name) :
    n.isFree name = true := by
  induction fuel generalizing k with
  | zero => simp [Names.freeFrom] at h
  | succ fuel ih =>
    simp only [Names.freeFrom] at h
    split at h
    case isTrue free =>
      cases h
      exact free
    case isFalse => exact ih h

theorem forSymbolTidy {n names : Names} {x : Nat} {first name : String} (tidy : Tidy n)
    (h : n.forSymbol x first = some (name, names)) : startsWithUnderscores name = false ∧ Tidy names := by
  simp only [Names.forSymbol] at h
  split at h
  case h_1 known found =>
    cases h
    obtain ⟨_, _, same⟩ := List.lookup_eq_some_iff.mp found
    exact ⟨tidy (x, name) (by simp [same]), tidy⟩
  case h_2 =>
    obtain ⟨free, found, same⟩ := Option.map_eq_some_iff.mp h
    cases same
    have plain : startsWithUnderscores name = false := by
      have := freeFromFree found
      simp only [Names.isFree, Bool.and_eq_true, Bool.not_eq_true'] at this
      exact this.2
    refine ⟨plain, fun s hs => ?_⟩
    rcases List.mem_cons.mp hs with rfl | old
    · exact plain
    · exact tidy s old

/-- The name of a symbol is none of those that the code keeps for itself. -/
theorem nameOfFinds (x : Typing.SymbolId) : Finds (fun name => startsWithUnderscores name = false) (nameOf x) := by
  refine Makes.known (fun _ _ _ => rfl) fun c calm => ?_
  split
  case h_1 name found =>
    obtain ⟨s, isLibrary, rfl⟩ := Option.map_eq_some_iff.mp found
    exact Finds.pure (calm.libraries s (List.mem_of_find?_eq_some isLibrary))
  case h_2 =>
    refine (askFinds _).bind fun s _ => getFinds.bind fun p tidy => ?_
    split
    case h_1 name names given =>
      obtain ⟨plain, kept⟩ := forSymbolTidy tidy given
      exact Finds.bind (modifyFinds (fun _ => rfl) fun _ _ => kept) fun _ _ => Finds.pure plain
    case h_2 => exact Makes.throw _

theorem temporaryFinds (kind : Temporary) :
    Finds (fun name => ∃ k : Nat, name = temporaryName kind.label k) (temporary kind) :=
  getFinds.bind fun _ tidy => Finds.bind (modifyFinds (fun _ => rfl) fun _ _ => tidy) fun _ _ => Finds.pure ⟨_, rfl⟩

/-- The symbol that a node means or declares. -/
def symbolAt (s : Typing.State) (mark : Source.Mark) : Option Typing.SymbolId :=
  (s.resolvedSymbols[mark.id]?).or s.symbolOf[mark.id]?

theorem symbolsAtRun (marks : List Source.Mark) (c : Context) (p : Progress) :
    (marks.filterMapM fun m => ask (Typing.Check.symbolAt? m)) c p = .ok (marks.filterMap (symbolAt p.typing), p) := by
  induction marks with
  | nil => rfl
  | cons m rest ih =>
    have first : ask (Typing.Check.symbolAt? m) c p = .ok (symbolAt p.typing m, p) := rfl
    rw [List.filterMapM_cons, bindRun, first]
    cases found : symbolAt p.typing m with
    | none => simpa [found] using ih
    | some x =>
      simp only [bindRun, ih, List.filterMap_cons, found]
      rfl

theorem declaredSymbolsRun (marks : List Source.Mark) (c : Context) (p : Progress) :
    declaredSymbols marks c p = .ok (marks.filterMap fun m => p.typing.symbolOf[m.id]?, p) := by
  unfold declaredSymbols
  induction marks with
  | nil => rfl
  | cons m rest ih =>
    have first : declaredSymbol? m c p = .ok (p.typing.symbolOf[m.id]?, p) := rfl
    rw [List.filterMapM_cons, bindRun, first]
    cases found : p.typing.symbolOf[m.id]? with
    | none => simpa [found] using ih
    | some x =>
      simp only [bindRun, ih, List.filterMap_cons, found]
      rfl

theorem libraryNameRun {c : Context} {x : Typing.SymbolId} {name : String} (found : c.libraryName? x = some name)
    (p : Progress) : nameOf x c p = .ok (name, p) := by
  simp only [nameOf, bindRun, readRun, found]
  rfl

/-! Names from elsewhere -/

/-- The lines that say which names a function takes from elsewhere. -/
def borrowLines (globals nonlocals : List String) : List Target.Stmt :=
  (if globals.isEmpty then [] else [.globals (sortedNames globals)]) ++
    (if nonlocals.isEmpty then [] else [.nonlocals (sortedNames nonlocals)])

/-- Whether a symbol belongs to the outermost level. -/
def Context.isOutermost (c : Context) (x : Typing.SymbolId) : Bool :=
  (c.libraryName? x).isSome || (c.moduleSymbols.contains x && c.kind = .script)

/-- The symbols that a function assigns and does not declare. -/
def foreignSymbols (s : Typing.State) (assigned : List Source.Mark) (own : List Typing.SymbolId) : List Typing.SymbolId :=
  (assigned.filterMap (symbolAt s)).eraseDups.filter fun x => !own.contains x && x ≠ Typing.undefinedSymbol

/-- The names of some symbols, and whether they belong to the outermost level. -/
def placedNames (c : Context) (foreign : List Typing.SymbolId) : Lowering (List (Bool × String)) :=
  foreign.mapM fun x => do return (c.isOutermost x, ← nameOf x)

theorem placedNamesCons {c : Context} {x : Typing.SymbolId} {rest : List Typing.SymbolId} {p q : Progress}
    {named : List (Bool × String)} (run : placedNames c (x :: rest) c p = .ok (named, q)) :
    ∃ a r names, nameOf x c p = .ok (a, r) ∧ placedNames c rest c r = .ok (names, q) ∧
      named = (c.isOutermost x, a) :: names := by
  rw [placedNames, List.mapM_cons, bindRun, bindRun] at run
  cases first : nameOf x c p with
  | error f => simp [first] at run
  | ok s =>
    obtain ⟨a, r⟩ := s
    simp only [first, pureRun, bindRun] at run
    split at run
    case h_2 => cases run
    case h_1 names _ later =>
      cases run
      exact ⟨a, r, names, rfl, later, rfl⟩

theorem bindingLinesRun {c : Context} {assigned : List Source.Mark} {own : List Typing.SymbolId} {p q : Progress}
    (run : bindingLines assigned own c p = .ok ((), q)) :
    ∃ named r, placedNames c (foreignSymbols p.typing assigned own) c p = .ok (named, r) ∧
      q.typing = r.typing ∧ q.names = r.names ∧ q.made.toList = r.made.toList ++
        borrowLines ((named.filter (·.1)).map (·.2)) ((named.filter (!·.1)).map (·.2)) := by
  simp only [bindingLines] at run
  simp only [bindRun, symbolsAtRun, readRun] at run
  split at run
  case h_2 => cases run
  case h_1 named r given =>
    refine ⟨named, r, given, ?_⟩
    generalize (named.filter (·.1)).map (·.2) = globals at run ⊢
    generalize (named.filter (!·.1)).map (·.2) = nonlocals at run ⊢
    split at run <;> split at run
    all_goals
      cases run
      simp_all [borrowLines]

end Fragment.Emit

/-! Properties of steps that are kept when steps are put together.
The code of an expression is made by asking the checker, by naming symbols and by taking temporaries. A property that
these steps have, and that is kept from step to step, is a property of making each part of an expression. -/
namespace Fragment.Emit

open Source (Mark Expr)
open Typing (Check SymbolId TypeId TypeFlags)
open Lowering

/-- A property of steps, and the questions to the checker that have it. -/
structure Composes (T : {α : Type} → Lowering α → Prop) (asks : {α : Type} → Check α → Prop) : Prop where
  pure : ∀ {α : Type} (a : α), T (pure a)
  throw : ∀ {α : Type} (f : Failure), T (throw f : Lowering α)
  bind : ∀ {α β : Type} {m : Lowering α} {k : α → Lowering β}, T m → (∀ a, T (k a)) → T (m >>= k)
  get : T (get : Lowering Progress)
  ask : ∀ {α : Type} {question : Check α}, asks question → T (ask question)
  nameOf : ∀ x, T (nameOf x)
  temporary : ∀ kind, T (temporary kind)
  symbolAt : ∀ mark, asks (Check.symbolAt? mark)
  symbol : ∀ x, asks (Check.symbol x)
  form : ∀ t, asks (Check.form t)
  parts : ∀ t mask, asks (Check.allParts t mask)

namespace Composes

variable {T : {α : Type} → Lowering α → Prop} {asks : {α : Type} → Check α → Prop} {a b : Target.Expr}

theorem nameExpr (h : Composes T asks) (mark : Mark) (name : String) : T (nameExpr mark name) := by
  refine h.bind (h.ask (h.symbolAt mark)) fun found => ?_
  split
  · exact h.throw _
  · split
    · exact h.pure _
    · exact h.bind (h.nameOf _) fun _ => h.pure _

theorem targetName (h : Composes T asks) (mark : Mark) (name : String) : T (targetName mark name) :=
  h.bind (h.nameExpr mark name) fun _ => h.pure _

theorem condition (h : Composes T asks) {e : Expr} (typed : asks (Check.typeOfExpr e)) (test : Target.Expr) :
    T (condition e test) := by
  refine h.bind (h.ask typed) fun t => h.bind (h.ask (h.parts t _)) fun bools => ?_
  split <;> exact h.pure _

theorem isPlainObject (h : Composes T asks) (t : TypeId) : T (isPlainObject t) := h.bind h.get fun _ => h.pure _

theorem isArray (h : Composes T asks) (t : TypeId) : T (isArray t) := by
  refine h.bind (h.ask (h.form t)) fun form => ?_
  split <;> exact h.pure _

theorem readsRequired (h : Composes T asks) (mark : Mark) : T (readsRequired mark) := by
  refine h.bind (h.ask (h.symbolAt mark)) fun found => ?_
  split
  · exact h.bind (h.ask (h.symbol _)) fun _ => h.pure _
  · exact h.pure _

theorem member (h : Composes T asks) (mark : Mark) {source : Expr} (typed : asks (Check.typeOfExpr source))
    (name : String) : T (memberExpr mark source name a) := by
  refine h.bind (h.ask typed) fun t => h.bind (h.ask (h.parts t _)) fun texts => h.bind (h.isArray t) fun array => ?_
  dsimp only
  split
  · exact h.pure _
  · refine h.bind (h.readsRequired mark) fun required => h.bind (h.isPlainObject t) fun plain => ?_
    split <;> exact h.pure _

theorem element (h : Composes T asks) (mark : Mark) {source : Expr} (typed : asks (Check.typeOfExpr source))
    (index : Expr) : T (elementExpr mark source index a b) := by
  unfold elementExpr
  split
  · refine h.bind (h.readsRequired mark) fun required => ?_
    split
    · refine h.bind (h.ask typed) fun t => h.bind (h.isPlainObject t) fun plain => ?_
      split <;> exact h.pure _
    · exact h.pure _
  · exact h.pure _

theorem unary (h : Composes T asks) (op : Source.UnaryOp) {source : Expr} (typed : asks (Check.typeOfExpr source)) :
    T (unaryExpr op source a) := by
  refine h.bind (h.ask typed) fun t => ?_
  split
  · refine h.bind (h.ask (h.parts t _)) fun bools => ?_
    split <;> exact h.pure _
  · exact h.pure _
  · exact h.bind (h.ask (h.parts t _)) fun numbers => h.pure _

theorem logical (h : Composes T asks) (isAnd : Bool) (t : TypeId) : T (logicalExpr isAnd t a b) := by
  refine h.bind (h.ask (h.parts t _)) fun bools => ?_
  split
  · exact h.pure _
  · exact h.bind (h.temporary .value) fun temp => h.pure _

theorem operator (h : Composes T asks) (op : Source.BinaryOp) (t u : TypeId) : T (operator op a t b u) := by
  have both (mask : TypeFlags) : T (bothAre t u mask) :=
    h.bind (h.ask (h.parts t _)) fun _ => h.bind (h.ask (h.parts u _)) fun _ => h.pure _
  have summed : T (sum a b t u) := by
    refine h.bind (both _) fun numbers => ?_
    split
    · exact h.pure _
    · refine h.bind (h.ask (h.parts t _)) fun _ => h.bind (h.ask (h.parts u _)) fun _ => ?_
      split <;> exact h.pure _
  have numbers (op : Target.Operator) : T (onNumbers op a b t u) := by
    refine h.bind (both _) fun numbers => ?_
    split <;> exact h.pure _
  have strict (negated : Bool) : T (strictEquality negated a b t u) := by
    refine h.bind (both _) fun _ => h.bind (both _) fun _ => h.bind (both _) fun _ => ?_
    dsimp only
    split <;> exact h.pure _
  cases op with
  | add => exact summed
  | sub | mul => exact numbers _
  | strictEqual | strictNotEqual => exact strict _
  | and | or => exact h.throw _
  | _ => exact h.pure _

theorem combined (h : Composes T asks) (op : Source.AssignOp) {target value : Expr}
    (targetTyped : asks (Check.typeOfExpr target)) (valueTyped : asks (Check.typeOfExpr value)) :
    T (combined op a target value b) := by
  cases op with
  | none => exact h.pure _
  | some op => exact h.bind (h.ask targetTyped) fun t => h.bind (h.ask valueTyped) fun u => h.operator op t u

theorem number (h : Composes T asks) (n : Number) : T (numberExpr n) := by
  unfold numberExpr
  split
  · exact h.pure _
  · exact h.throw _

theorem newStore (h : Composes T asks) : T newStore :=
  h.bind (h.temporary .value) fun _ => h.bind (h.temporary .value) fun _ => h.pure _

end Composes

/-- Where a statement does not give the result, an assignment of a variable has no value. Every other expression is
lowered for its value. -/
theorem exprStmtLowered (place : Place) (m : Source.Mark) (e : Expr) :
    (place ≠ .top ∧ ∃ assigned op mark name value, e = .assign assigned op (.ident mark name) value ∧
      lowerStmt place (.expr m e) = (do
        let x ← targetName mark name
        let assigned ← lowerExpr value
        push (.assign x (← combined op (.name x) (.ident mark name) value assigned)))) ∨
    lowerStmt place (.expr m e) = (do
      let value ← lowerExpr e
      push (if place = .top then .assign Target.completionName value else .expr value)) := by
  by_cases isAssign : ∃ m op mark name value, e = .assign m op (.ident mark name) value
  · obtain ⟨_, op, mark, name, value, rfl⟩ := isAssign
    unfold lowerStmt
    by_cases top : place = .top
    · simp only [if_pos top, or_true]
    · exact .inl ⟨top, _, op, mark, name, value, rfl, if_neg top⟩
  · have other : ∀ m op mark name value, e = .assign m op (.ident mark name) value → False :=
      fun m op mark name value same => isAssign ⟨m, op, mark, name, value, same⟩
    exact .inr (by simp only [lowerStmt])

end Fragment.Emit
