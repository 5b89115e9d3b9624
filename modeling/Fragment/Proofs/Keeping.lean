import Fragment.Proofs.Nodes
import Fragment.Typing.Checker

/-! Steps of the checker that keep a condition on what is known.
A step that is put together from steps that keep a condition keeps it too; instances find this for steps
without branches. The condition here is that names and accesses are told apart in all that is known. -/
namespace Fragment.Typing

open Fragment.Source (Expr Stmt Tags)

/-- A step after which a condition on states still holds. -/
class Keeps (I : State → Prop) {α : Type} (m : Check α) : Prop where
  keeps : ∀ s a s', I s → m.run s = .ok (a, s') → I s'

section Rules

variable {I : State → Prop} {α β γ : Type}

instance pureKeeps (a : α) : Keeps I (pure a) where
  keeps s b s' holds run := by
    cases run
    exact holds

instance throwKeeps (f : Fault) : Keeps I (throw f : Check α) where
  keeps s b s' holds run := by cases run

theorem runBind {m : Check α} {f : α → Check β} {s s' : State} {b : β} (run : (m >>= f).run s = .ok (b, s')) :
    ∃ a t, m.run s = .ok (a, t) ∧ (f a).run t = .ok (b, s') := by
  rw [StateT.run_bind] at run
  cases step : m.run s with
  | error fault =>
    rw [step] at run
    cases run
  | ok result =>
    rw [step] at run
    exact ⟨result.1, result.2, rfl, run⟩

theorem runThen {m : Check α} {f : α → Check β} {s t : State} {a : α} (run : m.run s = .ok (a, t)) :
    (m >>= f).run s = (f a).run t := by
  rw [StateT.run_bind, run]
  rfl

theorem runGet {f : State → Check β} (s : State) : (get >>= f).run s = (f s).run s := rfl

/-- An expression of no noted type is looked at one level deeper. -/
theorem typeOfUnnoted {e : Source.Expr} {s : State} (missing : s.nodeTypes[e.mark.id]? = none) (n : Nat)
    (expected : Option TypeId) : ((Queries.ofDepth (n + 1)).typeOfExpr e expected).run s = (do
      let t ← (Queries.ofDepth n).freshExprType e expected
      Check.noteType e.mark t
      return t : Check TypeId).run s := by
  change ((Queries.ofDepth n).computeExprType e expected).run s = _
  unfold Queries.computeExprType
  rw [runGet, missing]

/-- What the type of an expression is found to be is noted. -/
theorem typeNoted {n : Nat} {e : Source.Expr} {expected : Option TypeId} {s s' : State} {t : TypeId}
    (run : ((Queries.ofDepth n).typeOfExpr e expected).run s = .ok (t, s')) : s'.nodeTypes[e.mark.id]? = some t := by
  cases n with
  | zero => cases run
  | succ n =>
    change ((Queries.ofDepth n).computeExprType e expected).run s = .ok (t, s') at run
    unfold Queries.computeExprType at run
    rw [runGet] at run
    split at run
    next known found =>
      cases run
      exact found
    next =>
      obtain ⟨_, u, -, run⟩ := runBind run
      cases run
      exact Std.HashMap.getElem?_insert_self

/-- What follows a step may count on what the step finds in a state in which the condition holds. -/
theorem Keeps.knowing {m : Check α} {f : α → Check β} (first : Keeps I m)
    (rest : ∀ s a s', I s → m.run s = .ok (a, s') → Keeps I (f a)) : Keeps I (m >>= f) where
  keeps s b s' holds run := by
    obtain ⟨a, t, step, run⟩ := runBind run
    exact (rest _ _ _ holds step).keeps _ _ _ (first.keeps _ _ _ holds step) run

theorem Keeps.bind {m : Check α} {f : α → Check β} (first : Keeps I m) (rest : ∀ a, Keeps I (f a)) :
    Keeps I (m >>= f) := first.knowing fun _ a _ _ _ => rest a

instance bindKeeps (m : Check α) (f : α → Check β) [first : Keeps I m] [rest : ∀ a, Keeps I (f a)] :
    Keeps I (m >>= f) := first.bind rest

instance mapKeeps (m : Check α) (f : α → β) [Keeps I m] : Keeps I (f <$> m) := by
  rw [map_eq_pure_bind]
  infer_instance

instance discardKeeps (m : Check α) [Keeps I m] : Keeps I (discard m) := by
  unfold discard
  rw [LawfulFunctor.map_const]
  exact mapKeeps m _

instance iteKeeps (c : Prop) [Decidable c] (m n : Check α) [Keeps I m] [Keeps I n] :
    Keeps I (if c then m else n) := by
  split <;> assumption

instance getKeeps : Keeps I (get : Check State) where
  keeps s b s' holds run := by
    cases run
    exact holds

/-- What follows may look at a state in which the condition holds. -/
theorem Keeps.get {f : State → Check β} (rest : ∀ s, I s → Keeps I (f s)) : Keeps I (get >>= f) := by
  refine getKeeps.knowing fun s a s' holds run => ?_
  cases run
  exact rest s holds

instance liftKeeps (r : Except Fault α) : Keeps I (liftM r : Check α) where
  keeps s b s' holds run := by
    cases r with
    | error fault => cases run
    | ok a =>
      cases run
      exact holds

theorem Keeps.modified {f : State → State} (kept : ∀ s, I s → I (f s)) : Keeps I (modify f) where
  keeps s b s' holds run := by
    cases run
    exact kept s holds

theorem Keeps.modifiedGet {f : State → α × State} (kept : ∀ s, I s → I (f s).2) : Keeps I (modifyGet f) where
  keeps s b s' holds run := by
    have result : f s = (b, s') := Except.ok.inj run
    have after := kept s holds
    rwa [result] at after

/-! Lists -/

theorem Keeps.mapM {f : α → Check β} {xs : List α} (each : ∀ x ∈ xs, Keeps I (f x)) : Keeps I (xs.mapM f) := by
  induction xs with
  | nil =>
    rw [List.mapM_nil]
    infer_instance
  | cons x xs ih =>
    rw [List.mapM_cons]
    have := each x (List.mem_cons_self ..)
    have := ih fun y member => each y (List.mem_cons_of_mem x member)
    infer_instance

theorem Keeps.forM {f : α → Check PUnit} {xs : List α} (each : ∀ x ∈ xs, Keeps I (f x)) : Keeps I (xs.forM f) := by
  induction xs with
  | nil => exact pureKeeps _
  | cons x xs ih =>
    have := each x (List.mem_cons_self ..)
    have := ih fun y member => each y (List.mem_cons_of_mem x member)
    exact bindKeeps (f x) fun _ => xs.forM f

theorem Keeps.forIn {f : α → β → Check (ForInStep β)} {xs : List α} {b : β}
    (each : ∀ x ∈ xs, ∀ b, Keeps I (f x b)) : Keeps I (forIn xs b f) := by
  induction xs generalizing b with
  | nil =>
    rw [List.forIn_nil]
    infer_instance
  | cons x xs ih =>
    rw [List.forIn_cons]
    refine (each x (List.mem_cons_self ..) b).bind fun step => ?_
    split
    · infer_instance
    · exact ih fun y member => each y (List.mem_cons_of_mem x member)

theorem Keeps.filterMapM {f : α → Check (Option β)} {xs : List α} (each : ∀ x ∈ xs, Keeps I (f x)) :
    Keeps I (xs.filterMapM f) := by
  suffices ∀ done, Keeps I (List.filterMapM.loop f xs done) from this []
  induction xs with
  | nil => exact fun done => pureKeeps _
  | cons x xs ih =>
    intro done
    have rest := ih fun y member => each y (List.mem_cons_of_mem x member)
    refine (each x (List.mem_cons_self ..)).bind fun found => ?_
    split
    · exact rest _
    · exact rest _

theorem Keeps.filterM {p : α → Check Bool} {xs : List α} (each : ∀ x ∈ xs, Keeps I (p x)) :
    Keeps I (xs.filterM p) := by
  suffices ∀ done, Keeps I (List.filterAuxM p xs done) from
    (this []).bind fun _ => pureKeeps _
  induction xs with
  | nil => exact fun done => pureKeeps _
  | cons x xs ih =>
    intro done
    have rest := ih fun y member => each y (List.mem_cons_of_mem x member)
    exact (each x (List.mem_cons_self ..)).bind fun found => rest _

instance mapMKeeps (f : α → Check β) (xs : List α) [each : ∀ x, Keeps I (f x)] : Keeps I (xs.mapM f) :=
  .mapM fun x _ => each x

instance forMKeeps (f : α → Check PUnit) (xs : List α) [each : ∀ x, Keeps I (f x)] : Keeps I (xs.forM f) :=
  .forM fun x _ => each x

instance forInKeeps (f : α → β → Check (ForInStep β)) (xs : List α) (b : β) [each : ∀ x b, Keeps I (f x b)] :
    Keeps I (forIn xs b f) := .forIn fun x _ => each x

instance filterMapMKeeps (f : α → Check (Option β)) (xs : List α) [each : ∀ x, Keeps I (f x)] :
    Keeps I (xs.filterMapM f) := .filterMapM fun x _ => each x

instance filterMKeeps (p : α → Check Bool) (xs : List α) [each : ∀ x, Keeps I (p x)] : Keeps I (xs.filterM p) :=
  .filterM fun x _ => each x

theorem Keeps.allHold {ask : α → Check Bool} {xs : List α} (each : ∀ x ∈ xs, Keeps I (ask x)) : Keeps I (allHold ask xs) := by
  induction xs with
  | nil => exact pureKeeps _
  | cons x xs ih =>
    have := each x (List.mem_cons_self ..)
    have := ih fun y member => each y (List.mem_cons_of_mem x member)
    exact bindKeeps (ask x) _

theorem Keeps.anyHolds {ask : α → Check Bool} {xs : List α} (each : ∀ x ∈ xs, Keeps I (ask x)) : Keeps I (anyHolds ask xs) := by
  induction xs with
  | nil => exact pureKeeps _
  | cons x xs ih =>
    have := each x (List.mem_cons_self ..)
    have := ih fun y member => each y (List.mem_cons_of_mem x member)
    exact bindKeeps (ask x) _

theorem Keeps.firstRefusal {ask : α → Check Outcome} {xs : List α} (each : ∀ x ∈ xs, Keeps I (ask x)) :
    Keeps I (firstRefusal ask xs) := by
  induction xs with
  | nil => exact pureKeeps _
  | cons x xs ih =>
    have := each x (List.mem_cons_self ..)
    have := ih fun y member => each y (List.mem_cons_of_mem x member)
    exact bindKeeps (ask x) _

instance allHoldKeeps (ask : α → Check Bool) (xs : List α) [each : ∀ x, Keeps I (ask x)] : Keeps I (allHold ask xs) :=
  .allHold fun x _ => each x

instance anyHoldsKeeps (ask : α → Check Bool) (xs : List α) [each : ∀ x, Keeps I (ask x)] : Keeps I (anyHolds ask xs) :=
  .anyHolds fun x _ => each x

instance firstRefusalKeeps (ask : α → Check Outcome) (xs : List α) [each : ∀ x, Keeps I (ask x)] :
    Keeps I (firstRefusal ask xs) := .firstRefusal fun x _ => each x

/-! What steps give -/

/-- A step that keeps a condition, and that gives only what is as it should be. -/
def Gives (I : State → Prop) (P : α → Prop) (m : Check α) : Prop := ∀ s a s', I s → m.run s = .ok (a, s') → I s' ∧ P a

variable {P : α → Prop} {R : β → Prop}

theorem Gives.pure {a : α} (h : P a) : Gives I P (pure a) := by
  intro s b s' holds run
  cases run
  exact ⟨holds, h⟩

theorem Gives.knowing {m : Check α} {f : α → Check β} (first : Gives I P m) (rest : ∀ a, P a → Gives I R (f a)) :
    Gives I R (m >>= f) := by
  intro s b s' holds run
  obtain ⟨a, t, step, run⟩ := runBind run
  obtain ⟨after, known⟩ := first _ _ _ holds step
  exact rest _ known _ _ _ after run

theorem Gives.bind {m : Check α} {f : α → Check β} [keeps : Keeps I m] (rest : ∀ a, Gives I R (f a)) :
    Gives I R (m >>= f) :=
  Gives.knowing (P := fun _ => True) (fun s a s' holds run => ⟨keeps.keeps s a s' holds run, trivial⟩) fun a _ => rest a

/-- What follows a step may count on what the step gives. -/
theorem Keeps.giving {m : Check α} {f : α → Check β} (first : Gives I P m) (rest : ∀ a, P a → Keeps I (f a)) :
    Keeps I (m >>= f) where
  keeps s b s' holds run :=
    (Gives.knowing (R := fun _ => True) first
      (fun a known s b s' holds run => ⟨(rest a known).keeps s b s' holds run, trivial⟩) s b s' holds run).1

end Rules

section Labelled

/- The names that may be declared, and the numbers of accesses. -/
variable (Q : String → Prop) (A : Tags)

/-- A function whose body is labelled. -/
def FunctionNode.Labelled (f : FunctionNode) : Prop :=
  match f.body with
  | .none => True
  | .block b => b.Labelled Q A
  | .expr e => e.Labelled Q A

/-- A declaration whose type comes from labelled expressions. -/
def Declaration.Labelled : Declaration → Prop
  | .variable d => ∀ e ∈ d.init, e.Labelled Q A
  | .function f | .method f => f.Labelled Q A
  | _ => True

structure Symbol.Labelled (x : Symbol) : Prop where
  declarations : ∀ d ∈ x.declarations, d.Labelled Q A
  value : ∀ d ∈ x.valueDeclaration, d.Labelled Q A

/-- There is such a symbol in a table, and its name may be declared. -/
def Named (symbols : Array Symbol) (x : SymbolId) : Prop := ∃ symbol, symbols[x]? = some symbol ∧ Q symbol.name

namespace State

/- The symbols that somebody outside of the checker has been told of. -/
variable (K : SymbolId → Prop)

/-- What is noted under the number of a name or of a declaration has a name that may be declared, what
is kept to be looked at later is labelled, and the symbols of `K` keep such names. -/
structure Labelled (s : State) : Prop where
  resolved : ∀ (id : NodeId) (x : SymbolId), s.resolvedSymbols[id]? = some x → A.access id ∨ Named Q s.symbols x
  declared : ∀ (id : NodeId) (x : SymbolId), s.symbolOf[id]? = some x → Named Q s.symbols x
  scopes : ∀ c ∈ s.scopes, ∀ (key : String) (x : SymbolId), c.names[key]? = some x → Q key ∧ Named Q s.symbols x
  symbols : ∀ x ∈ s.symbols, x.Labelled Q A
  signatures : ∀ g ∈ s.signatures, g.node.Labelled Q A
  deferred : ∀ f ∈ s.deferred, f.Labelled Q A
  kept : ∀ x, K x → Named Q s.symbols x

/-- The tables that decide whether a state is labelled. -/
def tables (s : State) : Std.HashMap NodeId SymbolId × Std.HashMap NodeId SymbolId × Array Scope × Array Symbol ×
    Array Signature × List FunctionNode :=
  (s.resolvedSymbols, s.symbolOf, s.scopes, s.symbols, s.signatures, s.deferred)

end State

end Labelled

section Tables

variable {Q : String → Prop} {A : Tags} {K : SymbolId → Prop} {s s' : State}

theorem State.Labelled.same (l : s.Labelled Q A K) (tables : s'.tables = s.tables) : s'.Labelled Q A K := by
  simp only [State.tables, Prod.mk.injEq] at tables
  obtain ⟨resolved, declared, scopes, symbols, signatures, deferred⟩ := tables
  refine ⟨?_, ?_, ?_, ?_, ?_, ?_, ?_⟩
  · rw [resolved, symbols]
    exact l.resolved
  · rw [declared, symbols]
    exact l.declared
  · rw [scopes, symbols]
    exact l.scopes
  · rw [symbols]
    exact l.symbols
  · rw [signatures]
    exact l.signatures
  · rw [deferred]
    exact l.deferred
  · rw [symbols]
    exact l.kept

/-- The same state for somebody who has been told of other symbols. -/
theorem State.Labelled.told (l : s.Labelled Q A K) {K' : SymbolId → Prop} (kept : ∀ x, K' x → Named Q s.symbols x) :
    s.Labelled Q A K' := ⟨l.resolved, l.declared, l.scopes, l.symbols, l.signatures, l.deferred, kept⟩

/-- Another table of symbols in which names stay as they are. -/
theorem State.Labelled.renewed (l : s.Labelled Q A K) {symbols : Array Symbol}
    (names : ∀ x, Named Q s.symbols x → Named Q symbols x) (labelled : ∀ x ∈ symbols, x.Labelled Q A) :
    ({ s with symbols } : State).Labelled Q A K :=
  ⟨fun id x found => (l.resolved id x found).imp_right (names x), fun id x found => names x (l.declared id x found),
    fun c member key x found => (l.scopes c member key x found).imp_right (names x), labelled, l.signatures, l.deferred,
    fun x known => names x (l.kept x known)⟩

/-- Whatever holds of all entries of a table, and of the new one, holds after one has been changed. -/
theorem memModify {α : Type} {P : α → Prop} {xs : Array α} {i : Nat} {f : α → α} (all : ∀ x ∈ xs, P x)
    (changed : ∀ x, P x → P (f x)) : ∀ x ∈ xs.modify i f, P x := by
  intro x member
  obtain ⟨j, found⟩ := Array.mem_iff_getElem?.mp member
  rw [Array.getElem?_modify] at found
  split at found
  · obtain ⟨old, there, rfl⟩ := Option.map_eq_some_iff.mp found
    exact changed old (all old (Array.mem_of_getElem? there))
  · exact all x (Array.mem_of_getElem? found)

theorem Named.pushed {symbols : Array Symbol} {y : SymbolId} (named : Named Q symbols y) (x : Symbol) :
    Named Q (symbols.push x) y := by
  obtain ⟨symbol, found, name⟩ := named
  refine ⟨symbol, ?_, name⟩
  rw [Array.getElem?_push, if_neg, found]
  exact Nat.ne_of_lt (Array.getElem?_eq_some_iff.mp found).1

theorem Named.changed {symbols : Array Symbol} {x y : SymbolId} {f : Symbol → Symbol} (named : Named Q symbols y)
    (name : ∀ x, (f x).name = x.name) : Named Q (symbols.modify x f) y := by
  obtain ⟨symbol, found, named⟩ := named
  rw [Named, Array.getElem?_modify, found]
  split
  · exact ⟨f symbol, rfl, (name symbol).symm ▸ named⟩
  · exact ⟨symbol, rfl, named⟩

theorem State.Labelled.pushed (l : s.Labelled Q A K) {x : Symbol} (labelled : x.Labelled Q A) :
    ({ s with symbols := s.symbols.push x } : State).Labelled Q A K := by
  refine l.renewed (fun _ named => named.pushed x) fun y member => ?_
  rcases Array.mem_push.mp member with old | rfl
  · exact l.symbols y old
  · exact labelled

theorem State.Labelled.changed (l : s.Labelled Q A K) {x : SymbolId} {f : Symbol → Symbol} (name : ∀ x, (f x).name = x.name)
    (labelled : ∀ x : Symbol, x.Labelled Q A → (f x).Labelled Q A) :
    ({ s with symbols := s.symbols.modify x f } : State).Labelled Q A K :=
  l.renewed (fun _ named => named.changed name) (memModify l.symbols labelled)

end Tables

/-! Conditions that last -/

open Check

/-- The tables that conditions are about: what is declared, noted, reported, checked and left for later. Types and what
is known of their relations are not among them. -/
def State.record (s : State) : Std.HashMap NodeId SymbolId × Std.HashMap NodeId SymbolId × Array Scope × Array Symbol ×
    Array Signature × List FunctionNode × Std.HashMap NodeId String × Std.HashMap NodeId ScopeId ×
    Std.HashMap NodeId (Option FunctionNode) × Std.HashMap NodeId TypeId × Std.HashMap String (List Diagnostic) ×
    Std.HashMap NodeId Unit × List String :=
  (s.resolvedSymbols, s.symbolOf, s.scopes, s.symbols, s.signatures, s.deferred, s.fileOf, s.scopeOf, s.containerOf,
    s.nodeTypes, s.diagnostics, s.checkedBodies, s.checkedFiles)

/-- What declarations say about a symbol. -/
def Symbol.declared (x : Symbol) : String × SymbolFlags × List Declaration × Option Declaration × Bool × Bool :=
  (x.name, x.flags, x.declarations, x.valueDeclaration, x.isConst, x.isAmbient)

/-- A change of a symbol to which more becomes known. -/
structure Refines (f : Symbol → Symbol) : Prop where
  declared : ∀ x, (f x).declared = x.declared
  typed : ∀ x, x.type.isSome = true → (f x).type.isSome = true

/-- A change of the declarations of a symbol that leaves its name and its type. -/
structure Redeclares (Q : String → Prop) (A : Tags) (f : Symbol → Symbol) : Prop where
  name : ∀ x, (f x).name = x.name
  type : ∀ x, (f x).type = x.type
  labelled : ∀ x : Symbol, x.Labelled Q A → (f x).Labelled Q A

/-- Notes which symbol a name stands for, and reports a name that should not stand there. -/
def Check.useName (mark : Source.Mark) (name : String) (accessed : Bool) (x : SymbolId) : Check Unit := do
  modify fun s => { s with resolvedSymbols := s.resolvedSymbols.insert mark.id x }
  let s ← symbol x
  if s.flags.meets SymbolFlags.constEnum && !accessed then error mark .constEnumAsValue
  checkDeclaredBefore mark name s

/-- If the condition holds once the symbol is noted, and reports keep it, then it holds in the end. -/
theorem useKeeps {I : State → Prop} (reports : ∀ mark m, Keeps I (error mark m)) {mark : Source.Mark} {name : String}
    {accessed : Bool} {x : SymbolId} {s s' : State}
    (noted : I { s with resolvedSymbols := s.resolvedSymbols.insert mark.id x })
    (run : (useName mark name accessed x).run s = .ok ((), s')) : I s' := by
  have checked : Keeps I (do
      let s ← Check.symbol x
      if s.flags.meets SymbolFlags.constEnum && !accessed then error mark .constEnumAsValue
      checkDeclaredBefore mark name s : Check Unit) := by
    unfold Check.symbol checkDeclaredBefore
    refine .bind inferInstance fun s => ?_
    dsimp only
    repeat' first | infer_instance | refine .bind inferInstance fun _ => ?_ | split
  exact checked.keeps { s with resolvedSymbols := s.resolvedSymbols.insert mark.id x } () s' noted run

/-- A condition that holds only where all that is kept to be looked at is labelled, and that the primitive steps of the
checker keep. -/
class Lasting (Q : outParam (String → Prop)) (A : outParam Tags) (I : State → Prop) : Prop where
  symbols : ∀ s, I s → ∀ x ∈ s.symbols, x.Labelled Q A
  signatures : ∀ s, I s → ∀ g ∈ s.signatures, g.node.Labelled Q A
  deferred : ∀ s, I s → ∀ f ∈ s.deferred, f.Labelled Q A
  same : ∀ s s', I s → s'.record = s.record → I s'
  report : ∀ mark m notes, Keeps I (report mark m notes)
  /-- The type of a node is noted if it was not known when it was asked for. -/
  note : ∀ s mark t, I s → s.nodeTypes[mark.id]? = none → Keeps I (noteType mark t)
  newSymbol : ∀ x : Symbol, x.Labelled Q A → Keeps I (newSymbol x)
  refine : ∀ x f, Refines f → Keeps I (modifySymbol x f)
  /-- A symbol that has just been made may still be given declarations. -/
  redeclare : ∀ s, I s → ∀ f, Redeclares Q A f → Keeps I (modifySymbol s.symbols.size f)
  newSignature : ∀ g : Signature, g.node.Labelled Q A → Keeps I (newSignature g)
  result : ∀ g (result : Signature → Option TypeId), Keeps I (modifySignature g fun s => { s with result := result s })
  access : ∀ s id x, I s → A.access id → I { s with resolvedSymbols := s.resolvedSymbols.insert id x }
  use : ∀ s s' mark name accessed x scope fuel, I s → A.name mark → scope = s.scopeOf.getD mark.id globalScope →
    s.resolve name SymbolFlags.value fuel scope = some x → (useName mark name accessed x).run s = .ok ((), s') → I s'
  checkedBody : ∀ s (id : NodeId), I s → I { s with checkedBodies := s.checkedBodies.insert id () }
  checkedFile : ∀ s name, I s → I { s with checkedFiles := name :: s.checkedFiles }
  defer : ∀ s f, I s → f.Labelled Q A → I { s with deferred := s.deferred ++ [f] }
  next : ∀ s f rest, I s → s.deferred = f :: rest → I { s with deferred := rest }

section Lasting

variable {Q : String → Prop} {A : Tags} {I : State → Prop} [lasting : Lasting Q A I] {α β : Type}

include lasting

/-- A change of other tables. -/
theorem Keeps.elsewhere {f : State → State} (same : ∀ s, (f s).record = s.record) : Keeps I (modify f : Check Unit) :=
  .modified fun s holds => lasting.same s (f s) holds (same s)

instance elsewhereKeeps (types : State → Array TypeInfo) (typeNodeTypes : State → Std.HashMap NodeId TypeId)
    (resolvedSignatures functionSignatures contextualSignatures : State → Std.HashMap NodeId SignatureId)
    (constants : State → Std.HashMap NodeId Number) (resolvingSymbols : State → List SymbolId)
    (resolvingSignatures : State → List SignatureId) (textLiterals : State → Std.HashMap String TypeId)
    (numberLiterals : State → Std.HashMap (Option UInt64 × Int) TypeId)
    (unions : State → Std.HashMap (List TypeId × String) TypeId) (intersections : State → Std.HashMap (List TypeId) TypeId)
    (arrays : State → Std.HashMap TypeId TypeId) (references : State → Std.HashMap (TypeId × List TypeId) TypeId)
    (instances : State → Std.HashMap (TypeId × List (TypeId × TypeId)) TypeId)
    (unionProperties : State → Std.HashMap (TypeId × String) (Option SymbolId)) (relations : State → KeptAnswers)
    (relating : State → List RelationKey) :
    Keeps I (modify fun s => { s with
      types := types s, typeNodeTypes := typeNodeTypes s,
      resolvedSignatures := resolvedSignatures s, functionSignatures := functionSignatures s,
      contextualSignatures := contextualSignatures s, constants := constants s, resolvingSymbols := resolvingSymbols s,
      resolvingSignatures := resolvingSignatures s, textLiterals := textLiterals s, numberLiterals := numberLiterals s,
      unions := unions s, intersections := intersections s, arrays := arrays s, references := references s,
      instances := instances s, unionProperties := unionProperties s, relations := relations s,
      relating := relating s }) := .elsewhere fun _ => rfl

instance checkedBodyKeeps (id : NodeId) :
    Keeps I (modify fun s => { s with checkedBodies := s.checkedBodies.insert id () }) :=
  .modified fun s holds => lasting.checkedBody s id holds

instance checkedFileKeeps (name : String) :
    Keeps I (modify fun s => { s with checkedFiles := name :: s.checkedFiles }) :=
  .modified fun s holds => lasting.checkedFile s name holds

instance newTypeKeeps (info : TypeInfo) : Keeps I (newType info) :=
  .modifiedGet fun s holds => lasting.same s _ holds rfl

instance modifyTypeKeeps (t : TypeId) (f : TypeInfo → TypeInfo) : Keeps I (modifyType t f) := .elsewhere fun _ => rfl

instance reportKeeps (mark : Source.Mark) (m : Message) (notes : List String) : Keeps I (report mark m notes) :=
  lasting.report mark m notes

instance errorKeeps (mark : Source.Mark) (m : Message) : Keeps I (error mark m) := lasting.report mark m []

theorem Keeps.newSymbol {x : Symbol} (labelled : x.Labelled Q A) : Keeps I (newSymbol x) := lasting.newSymbol x labelled

/-- A symbol to which declarations may be given. -/
def Fresh (I : State → Prop) (Q : String → Prop) (A : Tags) (x : SymbolId) : Prop :=
  ∀ f, Redeclares Q A f → Keeps I (modifySymbol x f)

theorem newSymbolGives {x : Symbol} (labelled : x.Labelled Q A) : Gives I (Fresh I Q A) (newSymbol x) := by
  intro s y s' holds run
  refine ⟨(lasting.newSymbol x labelled).keeps s y s' holds run, ?_⟩
  cases run
  exact lasting.redeclare s holds

instance detailKeeps (x : SymbolId) (declaredType : Symbol → Option TypeId) (typeParameters : Symbol → List TypeId)
    (typeScope : Symbol → TypeScope) :
    Keeps I (modifySymbol x fun s => { s with
      declaredType := declaredType s, typeParameters := typeParameters s, typeScope := typeScope s }) :=
  lasting.refine x _ ⟨fun _ => rfl, fun _ => id⟩

instance typedKeeps (x : SymbolId) (type : Symbol → TypeId) :
    Keeps I (modifySymbol x fun s => { s with type := some (type s) }) :=
  lasting.refine x _ ⟨fun _ => rfl, fun _ _ => rfl⟩

theorem Keeps.newSignature {g : Signature} (labelled : g.node.Labelled Q A) : Keeps I (newSignature g) :=
  lasting.newSignature g labelled

instance resultKeeps (g : SignatureId) (result : Signature → Option TypeId) :
    Keeps I (modifySignature g fun s => { s with result := result s }) := lasting.result g result

theorem Lasting.symbol {s : State} (holds : I s) (x : SymbolId) : (s.symbol x).Labelled Q A := by
  unfold State.symbol
  rw [Array.getD_eq_getD_getElem?]
  cases found : s.symbols[x]? with
  | none => exact ⟨nofun, nofun⟩
  | some symbol => exact lasting.symbols s holds symbol (Array.mem_of_getElem? found)

/-- What follows may count on a symbol that is labelled. -/
theorem Keeps.symbol {x : SymbolId} {f : Symbol → Check β} (rest : ∀ x : Symbol, x.Labelled Q A → Keeps I (f x)) :
    Keeps I (symbol x >>= f) := .get fun _ holds => rest _ (Lasting.symbol holds x)

instance symbolKeeps (x : SymbolId) : Keeps I (symbol x) := by
  unfold Check.symbol
  infer_instance

instance signatureKeeps (g : SignatureId) : Keeps I (signature g) := by
  unfold Check.signature
  refine Keeps.bind inferInstance fun s => ?_
  split <;> infer_instance

/-- What follows may count on a signature whose node is labelled. -/
theorem Keeps.signature {g : SignatureId} {f : Signature → Check β}
    (rest : ∀ sig : Signature, sig.node.Labelled Q A → Keeps I (f sig)) : Keeps I (signature g >>= f) := by
  refine (signatureKeeps g).knowing fun s sig s' holds run => rest sig ?_
  unfold Check.signature at run
  rw [runGet] at run
  split at run
  next known found =>
    cases run
    exact lasting.signatures s holds sig (Array.mem_of_getElem? found)
  next => cases run

end Lasting

/-! States that are labelled -/

section LabelledStates

variable {Q : String → Prop} {A : Tags} {K : SymbolId → Prop} {s : State}

theorem State.Labelled.resolves (l : s.Labelled Q A K) (name : String) (meaning : SymbolFlags) (fuel : Nat)
    (scope : ScopeId) {x : SymbolId} (found : s.resolve name meaning fuel scope = some x) : Named Q s.symbols x := by
  induction fuel generalizing scope with
  | zero => cases found
  | succ fuel ih =>
    unfold State.resolve at found
    split at found
    · cases found
    next c here =>
      dsimp only at found
      split at found
      next y known =>
        cases found
        have declared := (Option.filter_eq_some_iff.mp known).1
        exact (l.scopes c (Array.mem_of_getElem? here) name x declared).2
      next => exact ih _ found
      next => cases found

/-- A note of a symbol under a number that an access has, or of one whose name may be declared. -/
theorem State.Labelled.noted (l : s.Labelled Q A K) {id : NodeId} {x : SymbolId} (fits : A.access id ∨ Named Q s.symbols x) :
    ({ s with resolvedSymbols := s.resolvedSymbols.insert id x } : State).Labelled Q A K := by
  refine ⟨fun other y found => ?_, l.declared, l.scopes, l.symbols, l.signatures, l.deferred, l.kept⟩
  rw [Std.HashMap.getElem?_insert] at found
  split at found
  next same =>
    cases found
    exact beq_iff_eq.mp same ▸ fits
  next => exact l.resolved other y found

theorem labelledReports (mark : Source.Mark) (m : Message) (notes : List String) :
    Keeps (State.Labelled Q A K) (report mark m notes) := .modified fun _ l => l.same rfl

/-- Other changes of a symbol than of its name and its declarations. -/
theorem labelledDetails {x : SymbolId} {f : Symbol → Symbol}
    (same : ∀ x, ((f x).name, (f x).declarations, (f x).valueDeclaration) = (x.name, x.declarations, x.valueDeclaration)) :
    Keeps (State.Labelled Q A K) (modifySymbol x f) := by
  have parts (y : Symbol) : (f y).name = y.name ∧ (f y).declarations = y.declarations ∧
      (f y).valueDeclaration = y.valueDeclaration := by simpa using same y
  refine .modified fun s l => l.changed (fun y => (parts y).1) fun y l => ⟨?_, ?_⟩
  · rw [(parts y).2.1]
    exact l.declarations
  · rw [(parts y).2.2]
    exact l.value

instance labelledLasting : Lasting Q A (State.Labelled Q A K) where
  symbols _ l := l.symbols
  signatures _ l := l.signatures
  deferred _ l := l.deferred
  same s s' l same := by
    simp only [State.record, Prod.mk.injEq] at same
    obtain ⟨resolved, declared, scopes, symbols, signatures, deferred, -⟩ := same
    exact l.same (by simp only [State.tables, resolved, declared, scopes, symbols, signatures, deferred])
  report := labelledReports
  note _ _ _ _ _ := .modified fun _ l => l.same rfl
  newSymbol x labelled := .modifiedGet fun _ l => l.pushed labelled
  refine x f refines := labelledDetails fun y => by
    have same := refines.declared y
    simp only [Symbol.declared, Prod.mk.injEq] at same
    simp only [same]
  redeclare s _ f redeclares := .modified fun _ l => l.changed redeclares.name redeclares.labelled
  newSignature g labelled := .modifiedGet fun s l => by
    refine ⟨l.resolved, l.declared, l.scopes, l.symbols, fun h member => ?_, l.deferred, l.kept⟩
    rcases Array.mem_push.mp member with old | rfl
    · exact l.signatures h old
    · exact labelled
  result g result := .modified fun s l => by
    refine ⟨l.resolved, l.declared, l.scopes, l.symbols, ?_, l.deferred, l.kept⟩
    exact memModify (P := fun g : Signature => g.node.Labelled Q A) (f := fun s => { s with result := result s })
      l.signatures fun _ labelled => labelled
  access s id x l access := l.noted (.inl access)
  use s s' mark name accessed x scope fuel l _ _ found run :=
    useKeeps (fun mark m => labelledReports mark m []) (l.noted (.inr (l.resolves _ _ _ _ found))) run
  checkedBody _ _ l := l.same rfl
  checkedFile _ _ l := l.same rfl
  defer s f l labelled := by
    refine ⟨l.resolved, l.declared, l.scopes, l.symbols, l.signatures, fun g member => ?_, l.kept⟩
    rcases List.mem_append.mp member with old | new
    · exact l.deferred g old
    · exact List.mem_singleton.mp new ▸ labelled
  next s f rest l waiting := ⟨l.resolved, l.declared, l.scopes, l.symbols, l.signatures, fun g member =>
    l.deferred g (waiting ▸ List.mem_cons_of_mem f member), l.kept⟩

end LabelledStates

end Fragment.Typing
