import Fragment.Proofs.BindingKept
import Fragment.Proofs.Growing
import Fragment.Proofs.RelationCache

/-! Declarations of one name in one scope.
What a later declaration is compared with are the flags that the earlier ones have left on the symbol of the scope, and
a declaration that clashes with them leaves nothing there. All the same, whether anything is reported does not depend
on the order of the declarations, since kinds exclude each other both ways. -/
namespace Fragment.Typing

open Fragment.Source (Mark Expr SourceFile VarDeclarator)
open Check

/-- The kinds of declarations that are statements. -/
inductive DeclarationKind where
  | blockVariable
  | functionVariable
  | function
  | interface
  | typeAlias
  | constEnum
  | regularEnum
  deriving DecidableEq

namespace DeclarationKind

def flags : DeclarationKind → SymbolFlags
  | blockVariable => SymbolFlags.blockVariable
  | functionVariable => SymbolFlags.functionVariable
  | function => SymbolFlags.function
  | interface => SymbolFlags.interface
  | typeAlias => SymbolFlags.typeAlias
  | constEnum => SymbolFlags.constEnum
  | regularEnum => SymbolFlags.regularEnum

/-- A declaration of the first kind cannot share a symbol with one of the second. -/
def Excludes (a b : DeclarationKind) : Prop := b.flags.meets a.flags.excludes = true

instance (a b : DeclarationKind) : Decidable (a.Excludes b) := inferInstanceAs (Decidable (_ = true))

theorem excludesSymm {a b : DeclarationKind} (excludes : a.Excludes b) : b.Excludes a := by
  revert excludes
  cases a <;> cases b <;> decide

/-- The flag of a kind is excluded as a whole. -/
theorem excludedWhole {a b : DeclarationKind} (excludes : a.Excludes b) : b.flags &&& a.flags.excludes = b.flags := by
  revert excludes
  cases a <;> cases b <;> decide

end DeclarationKind

/-- No two different kinds of these flags exclude each other. -/
def SymbolFlags.Compatible (f : SymbolFlags) : Prop :=
  ∀ a b : DeclarationKind, f.meets a.flags = true → f.meets b.flags = true → a.Excludes b → a = b

theorem symbolMeets (f g : SymbolFlags) : f.meets g = true ↔ f &&& g ≠ 0 := by simp [SymbolFlags.meets]

theorem symbolMeetsOr (f g mask : SymbolFlags) : SymbolFlags.meets (f ||| g) mask = (f.meets mask || g.meets mask) := by
  rw [Bool.eq_iff_iff, Bool.or_eq_true]
  simp only [symbolMeets, Nat.and_or_distrib_right, ne_eq, Nat.or_eq_zero_iff]
  exact Decidable.not_and_iff_not_or_not

/-- A kind that flags do not exclude can be added to them. -/
theorem compatibleOr {f : SymbolFlags} (compatible : f.Compatible) {k : DeclarationKind}
    (accepted : f.meets k.flags.excludes = false) : SymbolFlags.Compatible (f ||| k.flags) := by
  have own (a : DeclarationKind) (meets : k.flags.meets a.flags = true) : a = k := by
    revert meets
    cases a <;> cases k <;> decide
  have apart (a : DeclarationKind) (meets : f.meets a.flags = true) : ¬ k.Excludes a := by
    intro excludes
    have none : f &&& k.flags.excludes = 0 := by simpa [SymbolFlags.meets] using accepted
    refine (symbolMeets ..).mp meets ?_
    rw [← DeclarationKind.excludedWhole excludes, Nat.and_comm a.flags, ← Nat.and_assoc, none, Nat.zero_and]
  intro a b left right excludes
  rw [symbolMeetsOr, Bool.or_eq_true] at left right
  rcases left with left | left
  · rcases right with right | right
    · exact compatible a b left right excludes
    · exact absurd (own b right ▸ DeclarationKind.excludesSymm excludes) (apart a left)
  · rcases right with right | right
    · exact absurd (own a left ▸ excludes) (apart b right)
    · rw [own a left, own b right]

/-! What is said about nodes -/

namespace State

/-- The file under which something about a node is kept. -/
def fileFor (s : State) (mark : Mark) : String := (s.fileOf[mark.id]?).getD ""

/-- What a message about a node becomes. -/
def diagnosticAt (s : State) (mark : Mark) (m : Message) : Diagnostic :=
  { message := m.text, code := some m.code, phase := some "typecheck",
    span := Span.ofExtent (s.fileOf[mark.id]?) mark.extent, notes := [] }

/-- Between the two states something has been said about nodes, each time in the list of the file of the node. -/
structure Says (s t : State) (said : List (Mark × Message)) : Prop where
  files : t.fileOf = s.fileOf
  added : ∀ file, t.reported file =
    s.reported file ++ (said.filter (s.fileFor ·.1 = file)).map fun r => s.diagnosticAt r.1 r.2

variable {s t u : State} {said more : List (Mark × Message)}

theorem Says.same (files : t.fileOf = s.fileOf) (diagnostics : t.diagnostics = s.diagnostics) : s.Says t [] where
  files := files
  added file := by simp [reported, diagnostics]

theorem Says.trans (first : s.Says t said) (rest : t.Says u more) : s.Says u (said ++ more) where
  files := rest.files.trans first.files
  added file := by
    have files (mark : Mark) : t.fileFor mark = s.fileFor mark := by rw [fileFor, first.files, fileFor]
    have diagnostics (mark : Mark) (m : Message) : t.diagnosticAt mark m = s.diagnosticAt mark m := by
      rw [diagnosticAt, first.files, diagnosticAt]
    rw [rest.added, first.added]
    simp only [files, diagnostics, List.filter_append, List.map_append, List.append_assoc]

/-- An error changes nothing but the diagnostics. -/
theorem errorSays (s : State) (mark : Mark) (m : Message) :
    ∃ ds, (error mark m).run s = .ok ((), { s with diagnostics := ds }) ∧
      s.Says { s with diagnostics := ds } [(mark, m)] := by
  refine ⟨_, rfl, ⟨rfl, fun file => ?_⟩⟩
  simp only [reported, Std.HashMap.getD_insert, List.filter_cons, fileFor, diagnosticAt]
  by_cases same : (s.fileOf[mark.id]?).getD "" = file
  · simp [same]
  · simp [same]

/-! One declaration -/

/-- The symbol that a scope has for a name. -/
def symbolIn (s : State) (scope : ScopeId) (name : String) : Option SymbolId :=
  (s.scopes[scope]?).bind (·.names[name]?)

/-- The flags of the symbol that a scope has for a name; none if it has none. -/
def flagsIn (s : State) (scope : ScopeId) (name : String) : SymbolFlags :=
  match s.symbolIn scope name with
  | some x => (s.symbol x).flags
  | none => 0

/-- The scope exists, and so does the symbol that it has for the name if it has one. -/
structure HasScope (s : State) (scope : ScopeId) (name : String) : Prop where
  inside : scope < s.scopes.size
  symbol : ∀ x, s.symbolIn scope name = some x → x < s.symbols.size

end State

/-- What is said about a name that is declared again. -/
def clash (known flags : SymbolFlags) (name : String) : Message :=
  if SymbolFlags.meets (flags ||| known) SymbolFlags.blockVariable && flags.meets SymbolFlags.variableLike then
    .cannotRedeclare name
  else .duplicateIdentifier name

/-- One of the two errors for declarations that clash. -/
def Message.IsDuplicate (m : Message) : Prop := m.code = "E2300" ∨ m.code = "E2451"

attribute [local simp] Message.code

theorem clashDuplicate (known flags : SymbolFlags) (name : String) : (clash known flags name).IsDuplicate := by
  unfold clash
  split
  · exact .inr rfl
  · exact .inl rfl

theorem clashSaid (known flags : SymbolFlags) (name : String) : clash known flags name = .cannotRedeclare name ∨
    clash known flags name = .duplicateIdentifier name ∨ clash known flags name = .duplicateImplementation := by
  unfold clash
  split
  · exact .inl rfl
  · exact .inr (.inl rfl)

section Declare

variable {s : State} {scope : ScopeId} {name : String} {excludes : SymbolFlags}

theorem lookupRuns (s : State) (scope : ScopeId) (name : String) :
    (lookupIn scope name).run s = .ok (s.symbolIn scope name, s) := rfl

theorem symbolRuns (s : State) (x : SymbolId) : (symbol x).run s = .ok (s.symbol x, s) := rfl

theorem State.flagsKnown {y : SymbolId} (found : s.symbolIn scope name = some y) :
    s.flagsIn scope name = (s.symbol y).flags := by rw [State.flagsIn, found]

theorem State.sameScopes {s t : State} (here : s.HasScope scope name) (scopes : t.scopes = s.scopes)
    (symbols : t.symbols = s.symbols) :
    t.HasScope scope name ∧ t.symbolIn scope name = s.symbolIn scope name ∧
      t.flagsIn scope name = s.flagsIn scope name := by
  have found : t.symbolIn scope name = s.symbolIn scope name := by rw [State.symbolIn, scopes, State.symbolIn]
  refine ⟨⟨scopes ▸ here.inside, fun x there => symbols ▸ here.symbol x (found ▸ there)⟩, found, ?_⟩
  simp only [State.flagsIn, found, State.symbol, symbols]

/-- A symbol that no scope knows changes nothing in what scopes know. -/
theorem orphanRuns (here : s.HasScope scope name) (mark : Mark) (y : Symbol) :
    ∃ x t, (do
      let orphan ← newSymbol y
      noteSymbol mark orphan
      return orphan : Check SymbolId).run s = .ok (x, t) ∧ t.HasScope scope name ∧
      t.flagsIn scope name = s.flagsIn scope name ∧ s.Says t [] := by
  refine ⟨_, _, rfl, ⟨here.inside, fun x found => ?_⟩, ?_, .same rfl rfl⟩
  · exact Nat.lt_of_lt_of_le (here.symbol x found) (Array.size_push .. ▸ Nat.le_succ _)
  · simp only [State.flagsIn, State.symbolIn]
    split
    next x found =>
      have old : x ≠ s.symbols.size := Nat.ne_of_lt (here.symbol x found)
      simp only [State.symbol, Array.getD_eq_getD_getElem?, Array.getElem?_push, if_neg old]
    next => rfl

/-- A name that is taken by a kind that is excluded is reported, and the scope knows what it knew. -/
theorem clashRuns (flags : SymbolFlags) (here : s.HasScope scope name) (d : Declaration)
    (clashes : (s.flagsIn scope name).meets excludes = true) :
    ∃ x t, (declare scope name flags excludes d).run s = .ok (x, t) ∧ t.HasScope scope name ∧
      t.flagsIn scope name = s.flagsIn scope name ∧ s.Says t [(d.mark, clash (s.flagsIn scope name) flags name)] := by
  obtain ⟨y, found⟩ : ∃ y, s.symbolIn scope name = some y := by
    cases found : s.symbolIn scope name with
    | some y => exact ⟨y, rfl⟩
    | none => simp [State.flagsIn, found, SymbolFlags.meets] at clashes
  have known := State.flagsKnown found
  rw [known] at clashes
  obtain ⟨ds, said, spoken⟩ := State.errorSays s d.mark (clash (s.symbol y).flags flags name)
  obtain ⟨there, -, flagsSame⟩ := State.sameScopes (t := { s with diagnostics := ds }) here rfl rfl
  obtain ⟨x, u, ran, after, kept, silent⟩ := orphanRuns there d.mark (declaredOnce name d flags)
  refine ⟨x, u, ?_, after, kept.trans flagsSame, known ▸ spoken.trans silent⟩
  unfold declare
  rw [runThen (lookupRuns s scope name), found]
  dsimp only
  rw [runThen (symbolRuns s y), if_pos clashes]
  unfold clash at said
  split at said
  next block =>
    rw [if_pos block, runThen said]
    exact ran
  next other =>
    rw [if_neg other, runThen said]
    exact ran

/-- A name that the scope does not have gets a symbol there. -/
theorem newNameRuns (flags : SymbolFlags) (here : s.HasScope scope name) (unknown : s.symbolIn scope name = none) (d : Declaration) :
    ∃ x t, (declare scope name flags excludes d).run s = .ok (x, t) ∧ t.HasScope scope name ∧
      t.flagsIn scope name = s.flagsIn scope name ||| flags ∧ s.Says t [] := by
  unfold declare
  rw [runThen (lookupRuns s scope name), unknown]
  refine ⟨_, _, rfl, ?_⟩
  dsimp only
  have bound (t : State) (scopes : t.scopes = s.scopes.modify scope fun c =>
      { c with names := c.names.insert name s.symbols.size }) : t.symbolIn scope name = some s.symbols.size := by
    simp only [State.symbolIn, scopes, Array.getElem?_modify, if_pos, Array.getElem?_eq_getElem here.inside,
      Option.map_some, Option.bind_some, Std.HashMap.getElem?_insert_self]
  refine ⟨⟨?_, fun x found => ?_⟩, ?_, .same rfl rfl⟩
  · rw [Array.size_modify]
    exact here.inside
  · rw [bound _ rfl] at found
    cases found
    rw [Array.size_push]
    exact Nat.lt_succ_self _
  · have empty : s.flagsIn scope name = 0 := by rw [State.flagsIn, unknown]
    rw [State.flagsIn, bound _ rfl, empty]
    simp [State.symbol, Symbol.addDeclaration]

theorem addedRuns (flags : SymbolFlags) (here : s.HasScope scope name) {y : SymbolId} (found : s.symbolIn scope name = some y)
    (d : Declaration) :
    ∃ t, (do
      modifySymbol y (·.addDeclaration d flags)
      noteSymbol d.mark y
      return y : Check SymbolId).run s = .ok (y, t) ∧ t.HasScope scope name ∧
      t.flagsIn scope name = s.flagsIn scope name ||| flags ∧ s.Says t [] := by
  obtain ⟨t, after⟩ : ∃ t, t = { s with symbols := s.symbols.modify y (·.addDeclaration d flags)
                                        symbolOf := s.symbolOf.insert d.mark.id y } := ⟨_, rfl⟩
  have same : t.symbolIn scope name = s.symbolIn scope name := by rw [after, State.symbolIn, State.symbolIn]
  have symbols : t.symbols = s.symbols.modify y (·.addDeclaration d flags) := by rw [after]
  refine ⟨t, by rw [after]; rfl, ⟨?_, fun x there => ?_⟩, ?_, .same (by rw [after]) (by rw [after])⟩
  · rw [after]
    exact here.inside
  · rw [symbols, Array.size_modify]
    exact here.symbol x (same ▸ there)
  · have inside := here.symbol y found
    have changed : t.symbol y = (s.symbol y).addDeclaration d flags := by
      rw [State.symbol, symbols]
      exact (symbolModify s y y _).trans (if_pos ⟨rfl, inside⟩)
    rw [State.flagsKnown found, State.flagsKnown (same.trans found), changed, Symbol.addDeclaration]

/-- A name whose symbol has no flags that are excluded has the new flags as well. -/
theorem mergeRuns (flags : SymbolFlags) (here : s.HasScope scope name) {y : SymbolId} (found : s.symbolIn scope name = some y) (d : Declaration)
    (accepted : (s.symbol y).flags.meets excludes = false) :
    ∃ x t said, (declare scope name flags excludes d).run s = .ok (x, t) ∧ t.HasScope scope name ∧
      t.flagsIn scope name = s.flagsIn scope name ||| flags ∧ s.Says t said ∧
      ∀ r ∈ said, r = (d.mark, .duplicateImplementation) := by
  unfold declare
  rw [runThen (lookupRuns s scope name), found]
  dsimp only
  rw [runThen (symbolRuns s y), if_neg (by simp [accepted])]
  split
  · obtain ⟨ds, said, spoken⟩ := State.errorSays s d.mark .duplicateImplementation
    obtain ⟨there, same, flagsSame⟩ := State.sameScopes (t := { s with diagnostics := ds }) here rfl rfl
    obtain ⟨t, ran, after, flagsIn, silent⟩ := addedRuns flags there (same.trans found) d
    exact ⟨y, t, _, (runThen said).trans ran, after, flagsSame ▸ flagsIn, spoken.trans silent, by simp⟩
  · obtain ⟨t, ran, after, flagsIn, silent⟩ := addedRuns flags here found d
    exact ⟨y, t, _, ran, after, flagsIn, silent, by simp⟩

/-- A declaration that the scope accepts is reported at most for being a second implementation. -/
theorem acceptedRuns (flags : SymbolFlags) (here : s.HasScope scope name) (d : Declaration)
    (accepted : (s.flagsIn scope name).meets excludes = false) :
    ∃ x t said, (declare scope name flags excludes d).run s = .ok (x, t) ∧ t.HasScope scope name ∧
      t.flagsIn scope name = s.flagsIn scope name ||| flags ∧ s.Says t said ∧
      ∀ r ∈ said, r = (d.mark, .duplicateImplementation) := by
  cases found : s.symbolIn scope name with
  | none =>
    obtain ⟨x, t, ran, there, flagsIn, silent⟩ := newNameRuns flags here found d
    exact ⟨x, t, [], ran, there, flagsIn, silent, by simp⟩
  | some y =>
    exact mergeRuns flags here found d (State.flagsKnown found ▸ accepted)

end Declare

/-! Any number of declarations -/

/-- Declares one name several times. -/
def declareAll (scope : ScopeId) (name : String) : List (DeclarationKind × Declaration) → Check Unit
  | [] => return
  | (k, d) :: ds => do
    discard <| declareKind scope name k.flags d
    declareAll scope name ds

/-- Some kind is excluded by what is known of the name, or two of the kinds exclude each other. -/
def Clashing (known : SymbolFlags) (kinds : List DeclarationKind) : Prop :=
  (∃ k ∈ kinds, known.meets k.flags.excludes = true) ∨ ¬ kinds.Pairwise fun a b => ¬ a.Excludes b

theorem Clashing.perm {known : SymbolFlags} {kinds others : List DeclarationKind} (perm : kinds.Perm others) :
    Clashing known kinds ↔ Clashing known others := by
  have pairs := perm.pairwise_iff (R := fun a b : DeclarationKind => ¬ a.Excludes b) fun apart excludes =>
    apart (DeclarationKind.excludesSymm excludes)
  simp only [Clashing, perm.mem_iff, pairs]

theorem clashingCons (known : SymbolFlags) (k : DeclarationKind) (kinds : List DeclarationKind) :
    Clashing known (k :: kinds) ↔ known.meets k.flags.excludes = true ∨ Clashing (known ||| k.flags) kinds := by
  have one (other : DeclarationKind) : SymbolFlags.meets (known ||| k.flags) other.flags.excludes = true ↔
      known.meets other.flags.excludes = true ∨ other.Excludes k := by
    rw [symbolMeetsOr, Bool.or_eq_true, DeclarationKind.Excludes]
  have symm (other : DeclarationKind) : other.Excludes k ↔ k.Excludes other :=
    ⟨DeclarationKind.excludesSymm, DeclarationKind.excludesSymm⟩
  simp only [Clashing, one, symm, List.mem_cons, exists_eq_or_imp, List.pairwise_cons]
  grind

/-- Between the two states one of the errors for clashes has been reported about one of the declarations. -/
def State.ReportsClash (s t : State) (ds : List (DeclarationKind × Declaration)) : Prop :=
  ∃ d ∈ ds, ∃ m : Message, m.IsDuplicate ∧
    s.diagnosticAt d.2.mark m ∈ (t.reported (s.fileFor d.2.mark)).drop (s.reported (s.fileFor d.2.mark)).length

/-- What declaring a name several times comes to. -/
structure Declares (scope : ScopeId) (name : String) (ds : List (DeclarationKind × Declaration)) (s t : State)
    (said : List (Mark × Message)) : Prop where
  ran : (declareAll scope name ds).run s = .ok ((), t)
  spoken : s.Says t said
  /-- Only the declarations are reported, for clashing or for being implemented twice. -/
  about : ∀ r ∈ said, ∃ d ∈ ds, r.1 = d.2.mark ∧
    (r.2 = .cannotRedeclare name ∨ r.2 = .duplicateIdentifier name ∨ r.2 = .duplicateImplementation)
  reports : (∃ r ∈ said, r.2.IsDuplicate) ↔ Clashing (s.flagsIn scope name) (ds.map (·.1))
  compatible : (s.flagsIn scope name).Compatible → (t.flagsIn scope name).Compatible

/-- What has been said is what has been reported. -/
theorem Declares.reportsClash {scope : ScopeId} {name : String} {ds : List (DeclarationKind × Declaration)} {s t : State}
    {said : List (Mark × Message)} (declares : Declares scope name ds s t said) :
    s.ReportsClash t ds ↔ Clashing (s.flagsIn scope name) (ds.map (·.1)) := by
  rw [← declares.reports]
  unfold State.ReportsClash
  simp only [declares.spoken.added, List.drop_left, List.mem_map, List.mem_filter, decide_eq_true_eq]
  constructor
  · rintro ⟨d, -, m, duplicate, r, ⟨member, -⟩, same⟩
    have code : r.2.code = m.code := Option.some.inj (congrArg Diagnostic.code same)
    refine ⟨r, member, ?_⟩
    unfold Message.IsDuplicate
    rw [code]
    exact duplicate
  · rintro ⟨r, member, duplicate⟩
    obtain ⟨d, declared, mark, -⟩ := declares.about r member
    exact ⟨d, declared, r.2, duplicate, r, ⟨member, by rw [mark]⟩, by rw [mark]⟩

theorem runDiscard {α : Type} {m : Check α} {s t : State} {a : α} (ran : m.run s = .ok (a, t)) :
    (discard m).run s = .ok ((), t) := by
  unfold discard
  rw [LawfulFunctor.map_const, Function.comp, StateT.run_map, ran]
  rfl

theorem declareAllRuns {scope : ScopeId} {name : String} {s : State} (here : s.HasScope scope name)
    (ds : List (DeclarationKind × Declaration)) : ∃ t said, Declares scope name ds s t said := by
  induction ds generalizing s with
  | nil => exact ⟨s, [], rfl, .same rfl rfl, by simp, by simp [Clashing], id⟩
  | cons first ds ih =>
    obtain ⟨k, d⟩ := first
    have step {x : SymbolId} {u : State} (ran : (declareKind scope name k.flags d).run s = .ok (x, u)) :
        (declareAll scope name ((k, d) :: ds)).run s = (declareAll scope name ds).run u := runThen (runDiscard ran)
    cases clashes : (s.flagsIn scope name).meets k.flags.excludes with
    | true =>
      -- The scope knows what it knew, and the error is enough whatever follows.
      obtain ⟨x, u, ran, there, same, spoken⟩ := clashRuns k.flags here d clashes
      obtain ⟨t, said, rest⟩ := ih there
      refine ⟨t, _, (step ran).trans rest.ran, spoken.trans rest.spoken, ?_, ?_, fun compatible => ?_⟩
      · refine List.forall_mem_append.mpr ⟨?_, fun r member => (rest.about r member).imp fun e => .imp_left (.tail _)⟩
        simp only [List.mem_singleton, forall_eq]
        exact ⟨_, List.mem_cons_self .., rfl, clashSaid ..⟩
      · rw [List.map_cons, clashingCons]
        exact iff_of_true ⟨_, List.mem_append_left _ (List.mem_singleton_self _), clashDuplicate ..⟩ (.inl clashes)
      · exact rest.compatible (same ▸ compatible)
    | false =>
      obtain ⟨x, u, told, ran, there, flagsIn, spoken, only⟩ := acceptedRuns k.flags here d clashes
      obtain ⟨t, said, rest⟩ := ih there
      refine ⟨t, _, (step ran).trans rest.ran, spoken.trans rest.spoken, ?_, ?_, fun compatible => ?_⟩
      · refine List.forall_mem_append.mpr
          ⟨fun r member => ?_, fun r member => (rest.about r member).imp fun e => .imp_left (.tail _)⟩
        rw [only r member]
        exact ⟨_, List.mem_cons_self .., rfl, .inr (.inr rfl)⟩
      · have silent : ¬ ∃ r ∈ told, r.2.IsDuplicate := by
          rintro ⟨r, member, duplicate⟩
          rw [only r member] at duplicate
          simp [Message.IsDuplicate] at duplicate
        rw [List.map_cons, clashingCons, clashes, ← flagsIn, ← rest.reports]
        simp only [List.mem_append, or_and_right, exists_or, silent, false_or, Bool.false_eq_true]
      · exact rest.compatible (flagsIn ▸ compatibleOr compatible clashes)

/-- Declaring one name several times in a scope comes to an end, in any order. A clash is reported in all orders or in
none: if two of the kinds exclude each other, or one of them is excluded by what the scope has for the name already.
Kinds that exclude each other do not come together on the symbol of the scope. -/
theorem clashesInAnyOrder {s : State} {scope : ScopeId} {name : String} (here : s.HasScope scope name)
    (ds : List (DeclarationKind × Declaration)) :
    (∀ a b : DeclarationKind, a.Excludes b ↔ b.Excludes a) ∧
    ∃ t, (declareAll scope name ds).run s = .ok ((), t) ∧
      (s.ReportsClash t ds ↔ Clashing (s.flagsIn scope name) (ds.map (·.1))) ∧
      (∀ others, ds.Perm others → ∃ u, (declareAll scope name others).run s = .ok ((), u) ∧
        (s.ReportsClash u others ↔ s.ReportsClash t ds)) ∧
      ((s.flagsIn scope name).Compatible → (t.flagsIn scope name).Compatible) := by
  obtain ⟨t, said, declares⟩ := declareAllRuns here ds
  refine ⟨fun a b => ⟨DeclarationKind.excludesSymm, DeclarationKind.excludesSymm⟩, t, declares.ran,
    declares.reportsClash, fun others perm => ?_, declares.compatible⟩
  obtain ⟨u, more, again⟩ := declareAllRuns here others
  refine ⟨u, again.ran, ?_⟩
  rw [again.reportsClash, declares.reportsClash]
  exact (Clashing.perm (perm.map _)).symm

/-- The declaration of a variable without a type or a value. -/
def plainVariable (id : Nat) (name : String) : Declaration := .variable (.mk (markAt id) name none none)

/-- Before any file the scope of all files has one name. -/
theorem initialSymbol (name : String) :
    State.initial.symbolIn globalScope name = if name = "undefined" then some undefinedSymbol else none := by
  change (({} : Std.HashMap String SymbolId).insert "undefined" undefinedSymbol)[name]? = _
  rw [Std.HashMap.getElem?_insert]
  by_cases same : name = "undefined"
  · simp [same]
  · simp [same, Ne.symm same]

theorem initialScope (name : String) : State.initial.HasScope globalScope name where
  inside := by decide
  symbol x found := by
    rw [initialSymbol] at found
    split at found
    · cases found
      decide
    · cases found

/-- `interface v {}`, `var v` and `let v` in the scope of all files: the interface and the first variable share a symbol,
and the other variable clashes with the first. -/
theorem letAfterVarClashes : ∃ t,
    (declareAll globalScope "v" [(.interface, .interface (markAt 1) [] [] []), (.functionVariable, plainVariable 2 "v"),
      (.blockVariable, plainVariable 3 "v")]).run .initial = .ok ((), t) ∧
    State.initial.ReportsClash t [(.interface, .interface (markAt 1) [] [] []), (.functionVariable, plainVariable 2 "v"),
      (.blockVariable, plainVariable 3 "v")] ∧
    (t.flagsIn globalScope "v").Compatible := by
  obtain ⟨-, t, ran, clashes, -, compatible⟩ := clashesInAnyOrder (initialScope "v")
    [(.interface, .interface (markAt 1) [] [] []), (.functionVariable, plainVariable 2 "v"),
      (.blockVariable, plainVariable 3 "v")]
  have unknown : State.initial.flagsIn globalScope "v" = 0 := by rw [State.flagsIn, initialSymbol, if_neg (by decide)]
  refine ⟨t, ran, clashes.mpr (.inr (by decide)), compatible ?_⟩
  rw [unknown]
  intro a b left
  simp [SymbolFlags.meets] at left

/-- `let undefined` in the scope of all files, which has the name before any file. -/
theorem undefinedClashesAlone : ∃ t,
    (declareAll globalScope "undefined" [(.blockVariable, plainVariable 1 "undefined")]).run .initial = .ok ((), t) ∧
    State.initial.ReportsClash t [(.blockVariable, plainVariable 1 "undefined")] ∧
    [DeclarationKind.blockVariable].Pairwise fun a b => ¬ a.Excludes b := by
  obtain ⟨t, said, declares⟩ := declareAllRuns (initialScope "undefined")
    [(.blockVariable, plainVariable 1 "undefined")]
  have known : State.initial.flagsIn globalScope "undefined" = SymbolFlags.functionVariable := by
    rw [State.flagsIn, initialSymbol, if_pos rfl]
    rfl
  refine ⟨t, declares.ran, declares.reportsClash.mpr (.inl ⟨.blockVariable, List.mem_singleton_self _, ?_⟩),
    List.pairwise_singleton ..⟩
  rw [known]
  decide

end Fragment.Typing
