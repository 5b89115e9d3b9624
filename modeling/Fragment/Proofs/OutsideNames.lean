import Fragment.Emit.Scan
import Fragment.Proofs.Growing
import Fragment.Proofs.OuterBinding
import Fragment.Proofs.Shapes

/-! What names outside of functions stand for.
A name is looked up from the scope in which it stands, and only under the number of an access something else is noted. So
a name outside of the functions of a fragment stands for what the outermost scope knows as a value: `undefined`, or what
only libraries declare. -/
namespace Fragment.Typing

open Source (Mark Expr Node Property SourceFile IsWord Tags isDeclarationName)
open Check

/-- The outermost scope knows the symbol as a value. -/
def State.KnownOutermost (t : State) (x : SymbolId) : Prop :=
  ∃ c, ∃ name : String, t.scopes[globalScope]? = some c ∧ c.names[name]? = some x ∧
    (t.symbol x).flags.meets SymbolFlags.value = true

/-- Names that stand in the outermost scope have been resolved there. -/
def State.Resolves (t : State) (access : Nat → Prop) (s : State) : Prop :=
  ∀ (id : NodeId) x, s.resolvedSymbols[id]? = some x → ¬access id → t.scopeOf.getD id globalScope = globalScope →
    t.KnownOutermost x

section Resolves

variable {t s : State} {access : Nat → Prop}

theorem State.Bound.kinds (b : t.Bound s) {x : SymbolId} (there : x < t.symbols.size) :
    (s.symbol x).kinds = (t.symbol x).kinds := by
  have same := b.symbols x there
  simp only [Symbol.declared, Prod.mk.injEq] at same
  simp only [Symbol.kinds, same]

theorem State.Resolves.noted (r : t.Resolves access s) {id : NodeId} {x : SymbolId}
    (fits : ¬access id → t.scopeOf.getD id globalScope = globalScope → t.KnownOutermost x) :
    t.Resolves access { s with resolvedSymbols := s.resolvedSymbols.insert id x } := by
  intro other y found
  rw [Std.HashMap.getElem?_insert] at found
  split at found
  next same =>
    cases found
    exact beq_iff_eq.mp same ▸ fits
  next => exact r other y found

/-- Names are looked up in the outermost scope alone from there. -/
theorem State.Bound.lookup (b : t.Bound s) (outermost : t.HasOutermost) {name : String} {fuel : Nat}
    {x : SymbolId} (found : s.resolve name SymbolFlags.value fuel globalScope = some x) : t.KnownOutermost x := by
  obtain ⟨c, here, alone, inside⟩ := outermost
  cases fuel with
  | zero => cases found
  | succ fuel =>
    unfold State.resolve at found
    rw [b.scopes, here] at found
    dsimp only at found
    rw [alone] at found
    cases known : (c.names[name]?).filter fun y => (s.symbol y).flags.meets SymbolFlags.value with
    | none =>
      rw [known] at found
      cases found
    | some y =>
      rw [known] at found
      cases found
      obtain ⟨named, value⟩ := Option.filter_eq_some_iff.mp known
      have flags : (s.symbol x).flags = (t.symbol x).flags := congrArg Prod.fst (b.kinds (inside name x named))
      exact ⟨c, name, here, named, flags ▸ value⟩

/-- The checker keeps it that names outside of functions stand for what the outermost scope knows. -/
theorem resolvesWatches (outermost : t.HasOutermost) (access : Nat → Prop) : Watches access t (t.Resolves access) where
  same _ _ r resolved _ := fun id x found => r id x (resolved ▸ found)
  report _ _ _ := .modified fun _ r => r
  access _ _ _ r is := r.noted fun other => absurd is other
  use s s' mark name accessed x fuel b r _ found run := by
    refine useKeeps (I := t.Resolves access) (fun _ _ => .modified fun _ r => r) (r.noted fun _ stands => ?_) run
    rw [stands] at found
    exact b.lookup outermost found

end Resolves

/-! Before anything is checked -/

/-- Binding resolves no names. -/
theorem unresolvedBinding (file : String) (tops : List Source.Stmt) :
    Binding (fun _ s => s.resolvedSymbols = {}) file tops (fun _ _ => True) fun _ => True where
  fewer _ := id
  below _ _ := by split <;> trivial
  typed _ _ := trivial
  noteFile _ _ := .modified fun _ none => none
  noteScope _ _ := .modified fun _ none => none
  noteContainer _ _ := .modified fun _ none => none
  newScope _ _ none run := by
    cases run
    exact none
  error _ _ := .modified fun _ none => none
  declare _ _ _ _ _ := .bind (.modified fun _ none => none) fun _ => ⟨fun s x s' none run => by
    cases declareStep run <;> exact none⟩
  detail _ _ _ := .modified fun _ none => none

theorem startUnresolved {files : List SourceFile} {s : State} (started : start files = .ok s) : s.resolvedSymbols = {} := by
  unfold start at started
  obtain ⟨⟨⟨⟩, u⟩, bound, started⟩ := okBind started
  cases started
  have keeps : Keeps (fun s => s.resolvedSymbols = {}) (files.forM bindFile) :=
    .forM fun f _ => (unresolvedBinding f.name f.statements).bindFile fun _ _ => trivial
  exact keeps.keeps State.initial () s rfl bound

theorem State.Resolves.start {s : State} (unresolved : s.resolvedSymbols = {}) (access : Nat → Prop) :
    s.Resolves access s := fun id x found => by simp [unresolved] at found

section Outside

variable {t s u : State} {limit : Nat} {A access : Nat → Prop}

theorem State.Bundled.outermostBeside (bundled : t.Bundled limit) (beside : t.Beside limit A s) :
    s.HasOutermost ∧ s.scopes[globalScope]? = t.scopes[globalScope]? := by
  obtain ⟨c, here, alone, inside⟩ := bundled.outermost
  have same := beside.scopes globalScope (Array.getElem?_eq_some_iff.mp here).1
  exact ⟨⟨c, same.trans here, alone, fun name x named => (inside name x named).trans_le beside.moreSymbols⟩, same⟩

/-- A name outside of functions stands for `undefined` or for what only libraries declare. -/
theorem outsideStands (bundled : t.Bundled limit) (beside : t.Beside limit A s) (b : s.Bound u) (r : s.Resolves access u)
    {id : NodeId} (above : limit ≤ id) (outside : ¬A id) (name : ¬access id) {x : SymbolId}
    (stands : (u.resolvedSymbols[id]?).or u.symbolOf[id]? = some x) :
    x = undefinedSymbol ∨ ∃ a, (a, x) ∈ Emit.librarySymbols u := by
  obtain ⟨placed, undeclared⟩ := beside.outside id above outside
  rw [b.declared, undeclared, Option.or_none] at stands
  obtain ⟨c, a, here, named, value⟩ := r id x stands name placed
  obtain ⟨-, same⟩ := bundled.outermostBeside beside
  obtain ⟨c', there, -, inside⟩ := bundled.outermost
  obtain rfl : c' = c := Option.some.inj (there.symm.trans (same.symm.trans here))
  have old := inside a x named
  have kinds : (s.symbol x).kinds = (t.symbol x).kinds := by
    rw [State.kindsOf, beside.symbols x old, ← State.kindsOf]
  have flags : (u.symbol x).flags = (s.symbol x).flags := congrArg Prod.fst (b.kinds (old.trans_le beside.moreSymbols))
  have declarations : (u.symbol x).declarations = (t.symbol x).declarations :=
    congrArg Prod.snd ((b.kinds (old.trans_le beside.moreSymbols)).trans kinds)
  refine or_iff_not_imp_left.mpr fun other => ⟨a, List.mem_filter.mpr ⟨?_, ?_⟩⟩
  · rw [b.scopes, here]
    exact Std.HashMap.mem_toList_iff_getElem?_eq_some.mpr named
  · have there : t.symbols[x]? = some (t.symbol x) := by simp [State.symbol, old]
    obtain ⟨some, filed⟩ := bundled.known x _ other there
    simp only [declarations, flags, value, Bool.and_eq_true, decide_eq_true_eq, Bool.not_eq_true', List.isEmpty_eq_false_iff,
      List.all_eq_true, and_true]
    refine ⟨⟨other, some⟩, fun d member => ?_⟩
    obtain ⟨file, found⟩ := Option.isSome_iff_exists.mp (Std.HashMap.mem_iff_isSome_getElem?.mp (filed d member))
    obtain ⟨below, declares⟩ := bundled.files _ file found
    rw [b.files, beside.files _ below, found]
    exact declares

end Outside

end Fragment.Typing

namespace Fragment.Emit

open Source (Mark Expr Node Property)

/-! The names that an expression assigns -/

/-- The node of a name stands outside of the functions of another node. -/
def NameOuter (m : Mark) (n : Node) : Prop := ∃ name, (Node.expression (.ident m name)).Outer n

theorem NameOuter.through {m : Mark} {c n : Node} (outer : NameOuter m c) (part : c ∈ n.outerParts) : NameOuter m n :=
  outer.imp fun _ outer => .part part outer

mutual

/-- What an expression assigns are names outside of its functions. -/
theorem assignedOuter : (e : Expr) → ∀ m ∈ assignedIn e, NameOuter m (.expression e)
  | .number .., m, member | .string .., m, member | .boolean .., m, member | .ident .., m, member
  | .arrow .., m, member => absurd member (by simp [assignedIn])
  | .object _ properties, m, member => by
    obtain ⟨q, inside, outer⟩ := assignedOuterProperties properties m member
    exact outer.through (by simp [Node.outerParts, Node.children, inside])
  | .array _ elements, m, member => by
    obtain ⟨e, inside, outer⟩ := assignedOuters elements m member
    exact outer.through (by simp [Node.outerParts, Node.children, inside])
  | .member _ target _, m, member => (assignedOuter target m member).through (by simp [Node.outerParts, Node.children])
  | .unary _ _ operand, m, member => (assignedOuter operand m member).through (by simp [Node.outerParts, Node.children])
  | .await _ operand, m, member => (assignedOuter operand m member).through (by simp [Node.outerParts, Node.children])
  | .cast _ e _, m, member => (assignedOuter e m member).through (by simp [Node.outerParts])
  | .element _ target index, m, member => by
    rcases List.mem_append.mp member with left | right
    · exact (assignedOuter target m left).through (by simp [Node.outerParts, Node.children])
    · exact (assignedOuter index m right).through (by simp [Node.outerParts, Node.children])
  | .call _ callee args, m, member => by
    rcases List.mem_append.mp member with left | right
    · exact (assignedOuter callee m left).through (by simp [Node.outerParts, Node.children])
    · obtain ⟨e, inside, outer⟩ := assignedOuters args m right
      exact outer.through (by simp [Node.outerParts, Node.children, inside])
  | .binary _ _ left right, m, member => by
    rcases List.mem_append.mp member with first | rest
    · exact (assignedOuter left m first).through (by simp [Node.outerParts, Node.children])
    · exact (assignedOuter right m rest).through (by simp [Node.outerParts, Node.children])
  | .conditional _ test yes no, m, member => by
    rcases List.mem_append.mp member with first | rest
    · rcases List.mem_append.mp first with first | rest
      · exact (assignedOuter test m first).through (by simp [Node.outerParts, Node.children])
      · exact (assignedOuter yes m rest).through (by simp [Node.outerParts, Node.children])
    · exact (assignedOuter no m rest).through (by simp [Node.outerParts, Node.children])
  | .assign mark op target value, m, member => by
    have left : Node.expression target ∈ (Node.expression (.assign mark op target value)).outerParts := by
      simp [Node.outerParts, Node.children]
    rcases List.mem_append.mp member with first | rest
    · rcases List.mem_append.mp first with own | first
      · refine NameOuter.through ?_ left
        split at own
        · cases List.mem_singleton.mp own
          exact ⟨_, .self _⟩
        · cases own
      · exact (assignedOuter target m first).through left
    · exact (assignedOuter value m rest).through (by simp [Node.outerParts, Node.children])

theorem assignedOuters : (es : List Expr) → ∀ m ∈ assignedInExprs es, ∃ e ∈ es, NameOuter m (.expression e)
  | [], m, member => absurd member (by simp [assignedInExprs])
  | e :: es, m, member => by
    rcases List.mem_append.mp member with first | rest
    · exact ⟨e, List.mem_cons_self, assignedOuter e m first⟩
    · obtain ⟨f, inside, outer⟩ := assignedOuters es m rest
      exact ⟨f, List.mem_cons_of_mem e inside, outer⟩

theorem assignedOuterProperties : (ps : List Property) →
    ∀ m ∈ assignedInProperties ps, ∃ p ∈ ps, NameOuter m (.property p)
  | [], m, member => absurd member (by simp [assignedInProperties])
  | .mk mark name value shorthand :: ps, m, member => by
    rcases List.mem_append.mp member with first | rest
    · exact ⟨_, List.mem_cons_self, (assignedOuter value m first).through (by simp [Node.outerParts, Node.children])⟩
    · obtain ⟨q, inside, outer⟩ := assignedOuterProperties ps m rest
      exact ⟨q, List.mem_cons_of_mem _ inside, outer⟩

end

end Fragment.Emit

namespace Fragment.Compilation

open Source (Mark Expr Node SourceFile IsWord LabelledStmts)
open Typing (State Lasting)

/-- Whatever has been asked the checker, each name that the fragment assigns outside of its functions stands for
`undefined` or for what only libraries declare. -/
theorem assignedStand {c : Compilation} {options : Options} {files : Files} {file : SourceFile} {m : Mark} {e : Expr} {s : State}
    (loaded : load [rootPath] options files = .ok c) (root : c.source? rootPath = some file)
    (single : file.statements = [.expr m e]) (started : c.checker = .ok s) :
    ∃ (own : Nat → Prop) (I : State → Prop), Lasting IsWord own I ∧ I s ∧
      (∀ entry ∈ c.sources, LabelledStmts IsWord own entry.2.statements) ∧
      ∀ u, I u → ∀ mark ∈ Emit.assignedIn e, ∀ x, (u.resolvedSymbols[mark.id]?).or u.symbolOf[mark.id]? = some x →
        x = Typing.undefinedSymbol ∨ ∃ a, (a, x) ∈ Emit.librarySymbols u := by
  obtain ⟨own, told⟩ := loadLabelled loaded
  have labelled := told own fun _ _ => Iff.rfl
  obtain ⟨libraries, limit, fragmented⟩ := loadFragmented loaded root
  obtain ⟨text, next, parsed⟩ := fragmented.parsed
  obtain ⟨A, splits⟩ := Source.parseSplits parsed single
  have numbers : (Node.statement (.expr m e)).All (limit ≤ ·) :=
    ((Source.parseNumbers parsed).2 _ (by simp [single])).imp fun _ => And.left
  have begun := okMapError started
  rw [fragmented.files] at begun
  obtain ⟨t, bundled, beside⟩ := Typing.startBeside fragmented.declares fragmented.below single numbers splits begun
  obtain ⟨outermost, -⟩ := bundled.outermostBeside beside
  refine ⟨own, _, (Typing.resolvesWatches outermost own).lasting IsWord, ⟨checkerLabelled labelled started, .refl s, ?_⟩, labelled, ?_⟩
  · exact .start (Typing.startUnresolved begun) own
  · intro u holds mark member x stands
    obtain ⟨name, outer⟩ := Emit.assignedOuter e mark member
    have whole : (Node.expression e).All (limit ≤ ·) := numbers.child (by simp [Node.children])
    refine Typing.outsideStands bundled beside holds.2.1 holds.2.2 ?_ ?_ ?_ stands
    · exact (Source.Node.allIff.mp (outer.keeps (P := (·.All (limit ≤ ·))) (fun _ _ all child _ => all.child child) rfl whole)).1
    · exact splits _ outer
    · have expression : e.Labelled IsWord own := (single ▸ sourceLabelled labelled root).1
      exact outer.keeps (P := Typing.NodeLabelled IsWord own) (fun _ _ l child formula =>
        Typing.nodeLabelledBelow l child (Source.Node.formulaPlain formula)) rfl expression

end Fragment.Compilation
