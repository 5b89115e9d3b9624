import Fragment.Proofs.Declaring
import Fragment.Proofs.Filing
import Fragment.Proofs.FileNumbers

/-! Scopes and the nodes that stand in them.
Every scope has a territory: the nodes that are bound while it is open. A scope inside another has a smaller territory. A
block variable is known in one scope only, the territory of which is the block or the branch that declares the variable. So
a name from which the scope of a block variable can be seen stands in that block or branch. -/
namespace Fragment.Source

namespace Node

/-- A node that has code of its own: a function with a body. -/
def defines : Node → Bool
  | .expression (.arrow ..) | .statement (.function _ _ _ _ (some _) _ _) => true
  | _ => false

theorem Has.trans {n m : Node} {i : Nat} (has : n.Has i) (within : n.Within m) : m.Has i := by
  obtain ⟨l, inner, same⟩ := has
  exact ⟨l, inner.trans within, same⟩

theorem Has.own (n : Node) : n.Has n.mark.id := ⟨n, .self n, rfl⟩

/-- A node below another is part of one that is not above the other. -/
theorem Within.parent {n m : Node} (within : n.Within m) : n = m ∨ ∃ p : Node, p.Within m ∧ n ∈ p.children := by
  induction within with
  | self => exact .inl rfl
  | @part c m child within ih =>
    rcases ih with rfl | ⟨p, inside, part⟩
    · exact .inr ⟨m, .self m, child⟩
    · exact .inr ⟨p, .part child inside, part⟩

instance : Std.Symm Disjoint := ⟨fun _ _ => Disjoint.symm⟩

namespace Apart

variable {root n m c d : Node}

/-- A node is not part of one below it. -/
theorem notAbove (apart : n.Apart) (within : m.Within n) : n ∉ m.children := by
  intro child
  rcases withinIff.mp within with rfl | ⟨e, part, inside⟩
  · exact apart.own m child (Has.own m)
  · exact apart.own e part (((Has.own n).child child).trans inside)

/-- Two parts of a node that have a number in common are the same. -/
theorem part (apart : n.Apart) (first : c ∈ n.children) (rest : d ∈ n.children) {i : Nat} (has : c.Has i) (has' : d.Has i) :
    c = d := by
  by_contra different
  exact apart.parts.forall first rest different i has has'

/-- Nodes are told apart by their numbers. -/
theorem same (apart : root.Apart) (first : n.Within root) (rest : m.Within root) (same : n.mark.id = m.mark.id) : n = m := by
  induction first with
  | self =>
    rcases withinIff.mp rest with rfl | ⟨c, child, inside⟩
    · rfl
    · exact absurd ⟨m, inside, same.symm⟩ (apart.own c child)
  | part child within ih =>
    rcases withinIff.mp rest with rfl | ⟨c, other, inside⟩
    · exact absurd ⟨n, within, same⟩ (apart.own _ child)
    · obtain rfl := apart.part child other ⟨n, within, rfl⟩ ⟨m, inside, same.symm⟩
      exact ih (apart.each _ child) inside

/-- A node is part of one node only. -/
theorem parent (apart : root.Apart) (first : n.Within root) (rest : m.Within root) (child : c ∈ n.children)
    (other : c ∈ m.children) : n = m := by
  have ofTop {r m : Node} (apart : r.Apart) (rest : m.Within r) (child : c ∈ r.children) (other : c ∈ m.children) : r = m := by
    rcases withinIff.mp rest with same | ⟨e, top, inside⟩
    · exact same.symm
    · obtain rfl := apart.part child top (Has.own c) (((Has.own c).child other).trans inside)
      exact absurd other ((apart.each c child).notAbove inside)
  induction first with
  | self => exact ofTop apart rest child other
  | part top within ih =>
    rcases withinIff.mp rest with rfl | ⟨e, top', inside⟩
    · exact (ofTop apart (.part top within) other child).symm
    · obtain rfl := apart.part top top' (((Has.own c).child child).trans within) (((Has.own c).child other).trans inside)
      exact ih (apart.each _ top) inside

end Apart

end Node

namespace SourceFile

variable {f : SourceFile} {n m c : Node}

/-- The nodes of a file have numbers of their own. -/
def Apart (f : SourceFile) : Prop := ∃ low high, Spread low high (f.statements.map .statement)

def HasNumber (f : SourceFile) (i : Nat) : Prop := ∃ n, f.HasNode n ∧ n.mark.id = i

theorem HasNode.within (has : f.HasNode m) (within : n.Within m) : f.HasNode n :=
  has.imp fun _ h => ⟨h.1, within.trans h.2⟩

theorem HasNode.child (has : f.HasNode n) (child : c ∈ n.children) : f.HasNode c := has.within (.part child (.self c))

/-- Two statements of a file that have a number in common are the same. -/
theorem Apart.top (apart : f.Apart) {st st' : Stmt} (stands : st ∈ f.statements) (stands' : st' ∈ f.statements) {i : Nat}
    (has : (Node.statement st).Has i) (has' : (Node.statement st').Has i) : st = st' := by
  obtain ⟨low, high, spread⟩ := apart
  by_contra different
  refine spread.parts.forall (List.mem_map_of_mem stands) (List.mem_map_of_mem stands') ?_ i has has'
  exact fun same => different (Node.statement.inj same)

theorem Apart.statement (apart : f.Apart) {st : Stmt} (stands : st ∈ f.statements) : (Node.statement st).Apart := by
  obtain ⟨low, high, spread⟩ := apart
  exact spread.apart _ (List.mem_map_of_mem stands)

theorem Apart.same (apart : f.Apart) (first : f.HasNode n) (rest : f.HasNode m) (same : n.mark.id = m.mark.id) : n = m := by
  obtain ⟨st, stands, inside⟩ := first
  obtain ⟨st', stands', inside'⟩ := rest
  obtain rfl := apart.top stands stands' ⟨n, inside, rfl⟩ ⟨m, inside', same.symm⟩
  exact (apart.statement stands).same inside inside' same

theorem Apart.parent (apart : f.Apart) (first : f.HasNode n) (rest : f.HasNode m) (child : c ∈ n.children)
    (other : c ∈ m.children) : n = m := by
  obtain ⟨st, stands, inside⟩ := first
  obtain ⟨st', stands', inside'⟩ := rest
  obtain rfl := apart.top stands stands' (((Node.Has.own c).child child).trans inside) (((Node.Has.own c).child other).trans inside')
  exact (apart.statement stands).parent inside inside' child other

/-- A statement of a file is no part of a node of the file. -/
theorem Apart.notPart (apart : f.Apart) {st : Stmt} (stands : st ∈ f.statements) (has : f.HasNode n) :
    .statement st ∉ n.children := by
  intro child
  obtain ⟨st', stands', inside⟩ := has
  obtain rfl := apart.top stands stands' (.own _) (((Node.Has.own (.statement st)).child child).trans inside)
  exact (apart.statement stands).notAbove inside child

end SourceFile

end Fragment.Source

namespace Fragment.Typing

open Source (Mark Expr Node Block Stmt SourceFile VarDeclarator VarKind)
open Check

/-! What declares block variables -/

/-- The names that a statement declares are known in a scope that is opened for a block or a branch. -/
inductive Shelters (f : SourceFile) : Node → Stmt → Prop
  | block {n : Node} {m : Mark} {ss : List Stmt} {st : Stmt} (has : f.HasNode n) (other : isFunction n = false)
    (child : .statement (.block (.mk m ss)) ∈ n.children) (stands : st ∈ ss) :
    Shelters f (.statement (.block (.mk m ss))) st
  | branch {n : Node} {st : Stmt} (has : f.HasNode n) (other : ∀ b, n ≠ .statement (.block b))
    (child : .statement st ∈ n.children) : Shelters f (.statement st) st

def Region.HasNumber : Region → Nat → Prop
  | .files, _ => True
  | .node n, i => n.Has i

/-- Only a statement that declares block variables declares a variable in the scope in which it stands. -/
theorem declaredLexical {st : Stmt} {d : VarDeclarator} {flags : SymbolFlags} (declared : (.declarator d, flags) ∈ declaredNodes st) :
    ∃ m kind declarations ambient, st = .var m kind declarations ambient ∧ kind ≠ .var ∧ d ∈ declarations ∧
      flags = SymbolFlags.blockVariable := by
  unfold declaredNodes at declared
  split at declared
  next m kind declarations ambient =>
    split at declared
    · cases declared
    next other =>
      obtain ⟨e, member, pair⟩ := List.mem_map.mp declared
      cases pair
      exact ⟨m, kind, declarations, ambient, rfl, other, member, rfl⟩
  all_goals simp at declared

section Introduces

variable {f : SourceFile} {Ok : Option FunctionNode → Node → Prop} (has : ∀ c n, Ok c n → f.HasNode n) {r : Region} {n : Node}
  {flags excludes : SymbolFlags} {m : Mark} {kind : VarKind} {declarations : List VarDeclarator} {ambient : Bool}
  {d : VarDeclarator}

include has

/-- A block variable is declared as what it is, in the scope of the block or branch in which its statement stands. -/
theorem lexicalIntroduced (apart : f.Apart) (lexical : kind ≠ .var) (there : f.HasNode (.statement (.var m kind declarations ambient)))
    (member : d ∈ declarations) (introduces : Introduces Ok f.statements r n flags excludes) (node : f.HasNode n)
    (same : n.mark.id = d.mark.id) : n = .declarator d ∧ flags = SymbolFlags.blockVariable ∧ excludes = SymbolFlags.value ∧
      ∀ shelter, Shelters f shelter (.var m kind declarations ambient) → ∀ i, r.HasNumber i → shelter.Has i := by
  have part : Node.declarator d ∈ (Node.statement (.var m kind declarations ambient)).children := List.mem_map_of_mem member
  obtain rfl := apart.same node (there.child part) same
  -- Only the statement of the variable declares it.
  have only {st : Stmt} (here : f.HasNode (.statement st)) (declared : (.declarator d, flags) ∈ declaredNodes st) :
      st = .var m kind declarations ambient ∧ flags = SymbolFlags.blockVariable := by
    obtain ⟨_, _, _, _, rfl, -, member', flags⟩ := declaredLexical declared
    exact ⟨Node.statement.inj (apart.parent here there (List.mem_map_of_mem member') part), flags⟩
  refine ⟨rfl, ?_⟩
  cases introduces with
  | top stands declared =>
    obtain ⟨rfl, rfl⟩ := only ⟨_, stands, .self _⟩ declared
    refine ⟨rfl, rfl, fun shelter shelters => ?_⟩
    cases shelters with
    | block has _ child inside => exact absurd (by simp [Node.children, inside]) (apart.notPart stands (has.child child))
    | branch has _ child => exact absurd child (apart.notPart stands has)
  | @block c m' ss st _ _ ok stands declared =>
    have around := has _ _ ok
    have child : .statement st ∈ (Node.statement (.block (.mk m' ss))).children := by simp [Node.children, stands]
    obtain ⟨rfl, rfl⟩ := only (around.child child) declared
    refine ⟨rfl, rfl, fun shelter shelters i within => ?_⟩
    cases shelters with
    | block has _ part inside =>
      exact apart.parent around (has.child part) child (by simp [Node.children, inside]) ▸ within
    | branch has other part => exact absurd (apart.parent has around part child) (other _)
  | branch ok declared =>
    obtain ⟨rfl, rfl⟩ := only (has _ _ ok) declared
    refine ⟨rfl, rfl, fun shelter shelters i within => ?_⟩
    cases shelters with
    | block _ _ _ inside => exact within.child (by simp [Node.children, inside])
    | branch => exact within
  | @body c g m' ss st _ _ ok function inside stands declared =>
    have around := has _ _ ok
    have child : .statement st ∈ (Node.statement (.block (.mk m' ss))).children := by simp [Node.children, stands]
    have block := around.child inside
    obtain ⟨rfl, rfl⟩ := only (block.child child) declared
    refine ⟨rfl, rfl, fun shelter shelters i within => ?_⟩
    cases shelters with
    | block has other part inside' =>
      have same := apart.parent block (has.child part) child (by simp [Node.children, inside'])
      rw [← same] at part
      rw [← apart.parent around has inside part, function] at other
      cases other
    | branch has other part => exact absurd (apart.parent has block part child) (other _)
  | hoisted _ _ ok other =>
    cases Node.statement.inj (apart.parent (has _ _ ok) there (List.mem_map_of_mem other) part)
    exact absurd rfl lexical

end Introduces

/-! Territories -/

section Placed

/- A file, the code inside a function of it, and a variable whose scope is seen from some nodes only. -/
variable (f : SourceFile) (inner : Nat → Prop) (g : FunctionNode) (d : VarDeclarator) (R : Nat → Prop)

/-- A division of nodes into territories: a node is noted with a scope in the territory of which it stands. -/
structure State.Divided (C : Scopes) (s : State) (T : ScopeId → Nat → Prop) : Prop where
  known : ∀ scope i, T scope i → scope < s.scopes.size
  opened : ∀ scope r, C scope r → scope < s.scopes.size ∧ ∀ i, T scope i ↔ r.HasNumber i
  stands : ∀ (i : NodeId) scope, s.scopeOf[i]? = some scope → T scope i
  inside : ∀ (scope : ScopeId) c outer, s.scopes[scope]? = some c → c.parent = some outer → ∀ i, T scope i → T outer i
  kept : ∀ (scope : ScopeId) c (name : String) x, s.scopes[scope]? = some c → c.names[name]? = some x →
    s.symbolOf[d.mark.id]? = some x → ∀ i, T scope i → R i

/-- What binding some files leaves behind about the nodes of a file. -/
structure State.Placed (C : Scopes) (s : State) : Prop where
  filed : ∀ (i : NodeId) name, s.fileOf[i]? = some name → f.HasNumber i → name = f.name
  contained : ∀ (i : NodeId) c, s.containerOf[i]? = some c → inner i → c = some g
  declared : ∀ x, s.symbolOf[d.mark.id]? = some x →
    (s.symbol x).valueDeclaration = some (.variable d) ∧ (s.symbol x).flags.meets SymbolFlags.blockVariable = true
  params : ∀ q, f.HasNode (.param q) → ∀ x, s.symbolOf[q.mark.id]? = some x →
    (s.symbol x).valueDeclaration = some (.param q)
  used : ∀ m name, f.HasNode (.expression (.ident m name)) → s.symbolOf[m.id]? = none
  valued : ∀ x, (s.symbol x).flags.meets SymbolFlags.value = false → (s.symbol x).valueDeclaration = none
  named : ∀ (scope : ScopeId) c (name : String) x, s.scopes[scope]? = some c → c.names[name]? = some x → x < s.symbols.size
  once : ∀ (scope scope' : ScopeId) c c' (name name' : String) x, s.scopes[scope]? = some c → c.names[name]? = some x →
    s.scopes[scope']? = some c' → c'.names[name']? = some x → scope = scope'
  territories : ∃ T, s.Divided d R C T

end Placed

section Placed

variable {f : SourceFile} {inner : Nat → Prop} {g : FunctionNode} {d : VarDeclarator} {R : Nat → Prop} {C : Scopes}
  {s t : State} {T : ScopeId → Nat → Prop}

theorem symbolPush (s : State) (y : Symbol) (x : SymbolId) :
    ({ s with symbols := s.symbols.push y } : State).symbol x = if x = s.symbols.size then y else s.symbol x := by
  simp only [State.symbol, Array.getD_eq_getD_getElem?, Array.getElem?_push]
  split <;> rfl

/-- Scopes that are modified stand where they stood. -/
theorem modifiedScope {scopes : Array Scope} {scope at' : ScopeId} {name : String} {x : SymbolId} {c : Scope}
    (here : (scopes.modify at' fun c => { c with names := c.names.insert name x })[scope]? = some c) :
    ∃ c', scopes[scope]? = some c' ∧ c.parent = c'.parent ∧
      ∀ (key : String) y, c.names[key]? = some y → (scope = at' ∧ y = x) ∨ c'.names[key]? = some y := by
  rw [Array.getElem?_modify] at here
  split at here
  next same =>
    obtain ⟨c', there, rfl⟩ := Option.map_eq_some_iff.mp here
    refine ⟨c', there, rfl, fun key y found => ?_⟩
    rw [Std.HashMap.getElem?_insert] at found
    split at found
    · exact .inl ⟨same.symm, (Option.some.inj found).symm⟩
    · exact .inr found
  next => exact ⟨c, here, rfl, fun _ _ => .inr⟩

/-- Only symbols that exist have been declared. -/
theorem oldSymbol {x : SymbolId} {e : Declaration} (declared : (s.symbol x).valueDeclaration = some e) : x < s.symbols.size := by
  by_contra outside
  have missing : s.symbol x = { flags := 0, name := "" } := by
    rw [State.symbol, Array.getD_eq_getD_getElem?, Array.getElem?_eq_none (Nat.le_of_not_lt outside), Option.getD_none]
  simp [missing] at declared

/-- Other changes than of what is declared and of where nodes stand. -/
theorem State.Placed.same (placed : s.Placed f inner g d R C) (size : t.symbols.size = s.symbols.size)
    (symbol : ∀ x, (t.symbol x).flags = (s.symbol x).flags ∧ (t.symbol x).valueDeclaration = (s.symbol x).valueDeclaration)
    (scopes : t.scopes = s.scopes) (declared : t.symbolOf = s.symbolOf) (placing : t.scopeOf = s.scopeOf)
    (filed : ∀ (i : NodeId) name, t.fileOf[i]? = some name → f.HasNumber i → name = f.name)
    (contained : ∀ (i : NodeId) c, t.containerOf[i]? = some c → inner i → c = some g) : t.Placed f inner g d R C := by
  obtain ⟨T, divided⟩ := placed.territories
  refine ⟨filed, contained, ?_, ?_, ?_, ?_, ?_, ?_, T, ?_, ?_, ?_, ?_, ?_⟩
  · simpa only [declared, symbol] using placed.declared
  · simpa only [declared, symbol] using placed.params
  · simpa only [declared] using placed.used
  · simpa only [symbol] using placed.valued
  · simpa only [scopes, size] using placed.named
  · simpa only [scopes] using placed.once
  · simpa only [scopes] using divided.known
  · simpa only [scopes] using divided.opened
  · simpa only [placing] using divided.stands
  · simpa only [scopes] using divided.inside
  · simpa only [scopes, declared] using divided.kept

theorem State.Placed.fewer {C' : Scopes} (placed : s.Placed f inner g d R C') (less : ∀ scope r, C scope r → C' scope r) :
    s.Placed f inner g d R C := by
  obtain ⟨T, divided⟩ := placed.territories
  exact { placed with territories := ⟨T, { divided with opened := fun scope r opened => divided.opened scope r (less _ _ opened) }⟩ }

/-- What else is known about symbols makes no difference. -/
theorem State.Placed.detailed (placed : s.Placed f inner g d R C) (x : SymbolId) {h : Symbol → Symbol}
    (same : ∀ y, (h y).flags = y.flags ∧ (h y).valueDeclaration = y.valueDeclaration) :
    ({ s with symbols := s.symbols.modify x h } : State).Placed f inner g d R C := by
  refine placed.same Array.size_modify (fun y => ?_) rfl rfl rfl placed.filed placed.contained
  rw [symbolModify]
  split
  · exact same _
  · exact ⟨rfl, rfl⟩

theorem State.Placed.noteFile (placed : s.Placed f inner g d R C) {i : NodeId} {name : String}
    (own : f.HasNumber i → name = f.name) : ({ s with fileOf := s.fileOf.insert i name } : State).Placed f inner g d R C := by
  refine placed.same rfl (fun _ => ⟨rfl, rfl⟩) rfl rfl rfl (fun j other found => ?_) placed.contained
  rw [Std.HashMap.getElem?_insert] at found
  split at found
  next same =>
    cases found
    exact beq_iff_eq.mp same ▸ own
  next => exact placed.filed j other found

theorem State.Placed.noteContainer (placed : s.Placed f inner g d R C) {i : NodeId} {c : Option FunctionNode}
    (own : inner i → c = some g) : ({ s with containerOf := s.containerOf.insert i c } : State).Placed f inner g d R C := by
  refine placed.same rfl (fun _ => ⟨rfl, rfl⟩) rfl rfl rfl placed.filed fun j other found => ?_
  rw [Std.HashMap.getElem?_insert] at found
  split at found
  next same =>
    cases found
    exact beq_iff_eq.mp same ▸ own
  next => exact placed.contained j other found

theorem State.Placed.noteScope (placed : s.Placed f inner g d R C) {n : Node} {scope : ScopeId} (stands : Typing.Stands C scope n) :
    ({ s with scopeOf := s.scopeOf.insert n.mark.id scope } : State).Placed f inner g d R C := by
  obtain ⟨T, divided⟩ := placed.territories
  refine ⟨placed.filed, placed.contained, placed.declared, placed.params, placed.used, placed.valued, placed.named, placed.once, T,
    divided.known, divided.opened, fun i other found => ?_, divided.inside, divided.kept⟩
  rw [Std.HashMap.getElem?_insert] at found
  split at found
  next same =>
    cases found
    obtain ⟨r, opened, has⟩ := stands
    refine beq_iff_eq.mp same ▸ ((divided.opened _ r opened).2 _).mpr ?_
    cases r with
    | files => trivial
    | node m => exact ⟨n, has, rfl⟩
  next => exact divided.stands i other found

/-- The territory of a new scope is the node for which it is opened. -/
theorem State.Placed.newScope (placed : s.Placed f inner g d R C) {n : Node} {scope : ScopeId} (stands : Typing.Stands C scope n) :
    ({ s with scopes := s.scopes.push { parent := some scope } } : State).Placed f inner g d R (C.add s.scopes.size n) := by
  have old {i : ScopeId} {c : Scope} (here : (s.scopes.push { parent := some scope })[i]? = some c) :
      s.scopes[i]? = some c ∨ (i = s.scopes.size ∧ c = { parent := some scope }) := by
    rw [Array.getElem?_push] at here
    split at here
    next same => exact .inr ⟨same, (Option.some.inj here).symm⟩
    next => exact .inl here
  have unnamed (name : String) (x : SymbolId) (found : ({ parent := some scope } : Scope).names[name]? = some x) : False := by
    simp at found
  obtain ⟨T, divided⟩ := placed.territories
  refine ⟨placed.filed, placed.contained, placed.declared, placed.params, placed.used, placed.valued, fun i c name x here found => ?_,
    fun i j c c' name name' x here found here' found' => ?_,
    fun i k => T i k ∨ (i = s.scopes.size ∧ n.Has k), fun i k => ?_, fun i r opened => ?_,
    fun i k found => .inl (divided.stands i k found), fun i c outer here parent k => ?_, fun i c name x here found known k => ?_⟩
  · rcases old here with before | ⟨-, rfl⟩
    · exact placed.named i c name x before found
    · exact (unnamed _ _ found).elim
  · rcases old here with before | ⟨-, rfl⟩
    · rcases old here' with before' | ⟨-, rfl⟩
      · exact placed.once i j c c' name name' x before found before' found'
      · exact (unnamed _ _ found').elim
    · exact (unnamed _ _ found).elim
  · rw [Array.size_push]
    rintro (before | ⟨rfl, -⟩)
    · exact Nat.lt_succ_of_lt (divided.known i k before)
    · exact Nat.lt_succ_self _
  · rw [Array.size_push]
    rcases opened with before | ⟨rfl, rfl⟩
    · obtain ⟨low, own⟩ := divided.opened i r before
      exact ⟨Nat.lt_succ_of_lt low, fun k => (or_iff_left fun new => Nat.ne_of_lt low new.1).trans (own k)⟩
    · refine ⟨Nat.lt_succ_self _, fun k => (or_iff_right fun before => ?_).trans (and_iff_right rfl)⟩
      exact Nat.lt_irrefl _ (divided.known _ k before)
  · rcases old here with before | ⟨rfl, rfl⟩
    · rintro (stood | ⟨rfl, -⟩)
      · exact .inl (divided.inside i c outer before parent k stood)
      · exact absurd (Array.getElem?_eq_some_iff.mp before).1 (Nat.lt_irrefl _)
    · cases parent
      obtain ⟨r, opened, has⟩ := stands
      obtain ⟨low, own⟩ := divided.opened scope r opened
      rintro (before | ⟨-, within⟩)
      · exact absurd (divided.known _ k before) (Nat.lt_irrefl _)
      · refine .inl ((own k).mpr ?_)
        cases r with
        | files => trivial
        | node m => exact within.trans has
  · rcases old here with before | ⟨-, rfl⟩
    · rintro (stood | ⟨rfl, -⟩)
      · exact divided.kept i c name x before found known k stood
      · exact absurd (Array.getElem?_eq_some_iff.mp before).1 (Nat.lt_irrefl _)
    · exact (unnamed _ _ found).elim

/-! Declarations -/

section Declare

variable {scope : ScopeId} {name : String} {flags excludes : SymbolFlags} {e e' : Declaration}

theorem onceFlags : (declaredOnce name e flags).flags = flags := Nat.zero_or flags

theorem onceValue (value : flags.meets SymbolFlags.value = true) : (declaredOnce name e flags).valueDeclaration = some e := by
  simp [declaredOnce, Symbol.addDeclaration, value]

/-- What a declaration makes of the symbols: one more, or one with one more declaration. -/
theorem DeclareStep.symbols (step : DeclareStep scope name flags excludes e s t) :
    (t.symbolOf = s.symbolOf.insert e.mark.id s.symbols.size ∧ t.symbols.size = s.symbols.size + 1 ∧
      ∀ x, t.symbol x = if x = s.symbols.size then declaredOnce name e flags else s.symbol x) ∨
    ∃ x c, t.symbolOf = s.symbolOf.insert e.mark.id x ∧ t.symbols.size = s.symbols.size ∧ t.scopes = s.scopes ∧
      s.scopes[scope]? = some c ∧ c.names[name]? = some x ∧ (s.symbol x).flags.meets excludes = false ∧
      ∀ y, t.symbol y = if x = y ∧ y < s.symbols.size then (s.symbol y).addDeclaration e flags else s.symbol y := by
  cases step with
  | orphan => exact .inl ⟨rfl, by simp, symbolPush s _⟩
  | first => exact .inl ⟨rfl, by simp, symbolPush s _⟩
  | merged _ here known fits => exact .inr ⟨_, _, rfl, by simp, rfl, here, known, fits, fun y => symbolModify s _ y _⟩

/-- The first declaration of the value of a symbol stays the one that counts. -/
theorem DeclareStep.keepsValue (step : DeclareStep scope name flags excludes e s t) {x : SymbolId}
    (value : (s.symbol x).valueDeclaration = some e') :
    (t.symbol x).valueDeclaration = some e' ∧
      ((s.symbol x).flags.meets SymbolFlags.blockVariable = true → (t.symbol x).flags.meets SymbolFlags.blockVariable = true) := by
  rcases step.symbols with ⟨-, -, symbol⟩ | ⟨y, c, -, -, -, -, -, -, symbol⟩
  · rw [symbol, if_neg (Nat.ne_of_lt (oldSymbol value))]
    exact ⟨value, id⟩
  · rw [symbol]
    split
    · simp only [Symbol.addDeclaration, value, Option.some_or, ite_self, symbolMeetsOr, Bool.or_eq_true, true_and]
      exact .inl
    · exact ⟨value, id⟩

/-- A declaration that excludes all other values is the first of its symbol. -/
theorem DeclareStep.firstValue (step : DeclareStep scope name flags SymbolFlags.value e s t)
    (valued : ∀ x, (s.symbol x).flags.meets SymbolFlags.value = false → (s.symbol x).valueDeclaration = none)
    (named : ∀ (scope : ScopeId) c (name : String) x, s.scopes[scope]? = some c → c.names[name]? = some x → x < s.symbols.size)
    (value : flags.meets SymbolFlags.value = true) {x : SymbolId} (found : t.symbolOf[e.mark.id]? = some x) :
    (t.symbol x).valueDeclaration = some e ∧
      (flags.meets SymbolFlags.blockVariable = true → (t.symbol x).flags.meets SymbolFlags.blockVariable = true) := by
  rcases step.symbols with ⟨of, -, symbol⟩ | ⟨y, c, of, -, -, here, known, fits, symbol⟩
  · rw [of, Std.HashMap.getElem?_insert_self] at found
    cases found
    rw [symbol, if_pos rfl]
    exact ⟨onceValue value, fun block => onceFlags ▸ block⟩
  · rw [of, Std.HashMap.getElem?_insert_self] at found
    cases found
    rw [symbol, if_pos ⟨rfl, named _ _ _ _ here known⟩]
    simp only [Symbol.addDeclaration, value, valued _ fits, Option.none_or, if_pos, symbolMeetsOr, Bool.or_eq_true, true_and]
    exact .inr

/-- What the node of a declaration is noted with is declared as it was, if the declaration is another one. -/
theorem DeclareStep.other (step : DeclareStep scope name flags excludes e s t) {i : NodeId} (other : e.mark.id ≠ i) :
    t.symbolOf[i]? = s.symbolOf[i]? := by
  have apart (x : SymbolId) : (s.symbolOf.insert e.mark.id x)[i]? = s.symbolOf[i]? := by
    rw [Std.HashMap.getElem?_insert, if_neg (by simpa using other)]
  rcases step.symbols with ⟨of, -, -⟩ | ⟨y, c, of, -⟩
  · exact of ▸ apart _
  · exact of ▸ apart _

/-- Only a symbol that has just been made becomes known in a scope. -/
theorem DeclareStep.scopes (step : DeclareStep scope name flags excludes e s t) : t.scopes.size = s.scopes.size ∧
    ∀ (i : ScopeId) c, t.scopes[i]? = some c → ∃ c', s.scopes[i]? = some c' ∧ c.parent = c'.parent ∧
      ∀ (key : String) y, c.names[key]? = some y →
        (i = scope ∧ y = s.symbols.size ∧ t.symbols.size = s.symbols.size + 1) ∨ c'.names[key]? = some y := by
  cases step with
  | first =>
    refine ⟨Array.size_modify, fun i c here => ?_⟩
    obtain ⟨c', there, parent, names⟩ := modifiedScope here
    exact ⟨c', there, parent, fun key y found => (names key y found).imp_left fun new => ⟨new.1, new.2, Array.size_push _⟩⟩
  | orphan | merged => exact ⟨rfl, fun i c here => ⟨c, here, rfl, fun _ _ => .inr⟩⟩

/-- A declaration by a node in a scope that is open. -/
theorem State.Placed.declareStep (placed : s.Placed f inner g d R C) {r : Region} (opened : C scope r)
    (lexical : e.mark.id = d.mark.id → e = .variable d ∧ flags = SymbolFlags.blockVariable ∧ excludes = SymbolFlags.value ∧
      ∀ i, r.HasNumber i → R i)
    (param : ∀ q, f.HasNode (.param q) → e.mark.id = q.mark.id → e = .param q ∧ flags.meets SymbolFlags.value = true ∧
      excludes = SymbolFlags.value)
    (unused : ∀ m name, f.HasNode (.expression (.ident m name)) → e.mark.id ≠ m.id)
    (step : DeclareStep scope name flags excludes e s t) : t.Placed f inner g d R C := by
  have same : t.fileOf = s.fileOf ∧ t.containerOf = s.containerOf ∧ t.scopeOf = s.scopeOf := by cases step <;> exact ⟨rfl, rfl, rfl⟩
  obtain ⟨files, containers, placing⟩ := same
  obtain ⟨T, divided⟩ := placed.territories
  obtain ⟨size, scopes⟩ := step.scopes
  have more : s.symbols.size ≤ t.symbols.size := by
    rcases step.symbols with ⟨-, size, -⟩ | ⟨-, -, -, size, -⟩ <;> omega
  refine ⟨?_, ?_, fun x found => ?_, fun q has x found => ?_, fun m name has => ?_, fun x none => ?_, fun i c key x here found => ?_,
    fun i j c c' key key' x here found here' found' => ?_, T, fun i k stands => ?_, fun i r opened => ?_, ?_,
    fun i c outer here parent k => ?_, fun i c key x here found known k stands => ?_⟩
  · exact files ▸ placed.filed
  · exact containers ▸ placed.contained
  · by_cases own : e.mark.id = d.mark.id
    · obtain ⟨rfl, rfl, rfl, -⟩ := lexical own
      obtain ⟨value, block⟩ := step.firstValue placed.valued placed.named (by decide) found
      exact ⟨value, block (by decide)⟩
    · rw [step.other own] at found
      obtain ⟨value, block⟩ := placed.declared x found
      exact (step.keepsValue value).imp_right fun keeps => keeps block
  · by_cases own : e.mark.id = q.mark.id
    · obtain ⟨rfl, value, rfl⟩ := param q has own
      exact (step.firstValue placed.valued placed.named value found).1
    · rw [step.other own] at found
      exact (step.keepsValue (placed.params q has x found)).1
  · rw [step.other (unused m name has)]
    exact placed.used m name has
  · rcases step.symbols with ⟨-, -, symbol⟩ | ⟨y, c, -, -, -, -, -, -, symbol⟩
    · rw [symbol] at none ⊢
      split at none
      next new =>
        rw [onceFlags] at none
        simp [new, declaredOnce, Symbol.addDeclaration, none]
      next old => exact (if_neg old).symm ▸ placed.valued x none
    · rw [symbol] at none ⊢
      split at none
      next new =>
        simp only [Symbol.addDeclaration, symbolMeetsOr, Bool.or_eq_false_iff] at none
        simp [new, Symbol.addDeclaration, none.2, placed.valued x none.1]
      next old => exact (if_neg old).symm ▸ placed.valued x none
  · obtain ⟨c₀, there, -, names⟩ := scopes i c here
    rcases names key x found with ⟨-, rfl, grown⟩ | old
    · exact grown ▸ Nat.lt_succ_self _
    · exact (placed.named i c₀ key x there old).trans_le more
  · obtain ⟨c₀, there, -, names⟩ := scopes i c here
    obtain ⟨c₁, there', -, names'⟩ := scopes j c' here'
    rcases names key x found with ⟨own, new, -⟩ | old
    · rcases names' key' x found' with ⟨own', -⟩ | old'
      · exact own.trans own'.symm
      · exact absurd (placed.named j c₁ key' x there' old') (new ▸ Nat.lt_irrefl _)
    · rcases names' key' x found' with ⟨-, new, -⟩ | old'
      · exact absurd (placed.named i c₀ key x there old) (new ▸ Nat.lt_irrefl _)
      · exact placed.once i j c₀ c₁ key key' x there old there' old'
  · exact size ▸ divided.known i k stands
  · exact size ▸ divided.opened i r opened
  · exact placing ▸ divided.stands
  · obtain ⟨c₀, there, same, -⟩ := scopes i c here
    exact divided.inside i c₀ outer there (same ▸ parent) k
  · obtain ⟨c₀, there, -, names⟩ := scopes i c here
    by_cases own : e.mark.id = d.mark.id
    · -- The variable has just been declared, in the scope in which it is known now.
      obtain ⟨-, -, -, within⟩ := lexical own
      suffices same : i = scope from within k (((divided.opened scope r opened).2 k).mp (same ▸ stands))
      rw [← own] at known
      rcases step.symbols with ⟨of, -, -⟩ | ⟨y, c₁, of, unchanged, -, there', known', -⟩
      · rw [of, Std.HashMap.getElem?_insert_self] at known
        rcases names key x found with ⟨same, -⟩ | old
        · exact same
        · exact absurd (placed.named i c₀ key x there old) (Option.some.inj known ▸ Nat.lt_irrefl _)
      · rw [of, Std.HashMap.getElem?_insert_self] at known
        cases known
        rcases names key x found with ⟨same, -⟩ | old
        · exact same
        · exact placed.once i scope c₀ c₁ key name x there old there' known'
    · rw [step.other own] at known
      rcases names key x found with ⟨-, new, -⟩ | old
      · exact absurd (oldSymbol (placed.declared x known).1) (new ▸ Nat.lt_irrefl _)
      · exact divided.kept i c₀ key x there old known k stands

end Declare

end Placed

/-! Binding files -/

theorem innerContainerAny {n : Node} {g : FunctionNode} (function : innerContainer none n = some g) (c : Option FunctionNode) :
    innerContainer c n = some g := by
  unfold innerContainer at *
  split at function
  · exact function
  · exact function
  · cases function

/-- A block variable of a function that has no functions inside it. -/
structure OwnVariable (f : SourceFile) (g : FunctionNode) (b : Block) (st : Stmt) (d : VarDeclarator) : Prop where
  function : ∃ fn, f.HasNode fn ∧ innerContainer none fn = some g ∧ .statement (.block b) ∈ fn.children
  plain : ∀ n : Node, n.Within (.statement (.block b)) → n.defines = false
  within : (Node.statement st).Within (.statement (.block b))
  declares : (.declarator d, SymbolFlags.blockVariable) ∈ declaredNodes st

section Own

variable {f : SourceFile} {g : FunctionNode} {b : Block} {st : Stmt} {d : VarDeclarator} {C : Scopes} {s t : State}

theorem OwnVariable.body (own : OwnVariable f g b st d) : f.HasNode (.statement (.block b)) := by
  obtain ⟨fn, has, -, child⟩ := own.function
  exact has.child child

theorem OwnVariable.form (own : OwnVariable f g b st d) :
    ∃ m kind declarations ambient, st = .var m kind declarations ambient ∧ kind ≠ .var ∧ d ∈ declarations := by
  obtain ⟨m, kind, declarations, ambient, same, other, member, -⟩ := declaredLexical own.declares
  exact ⟨m, kind, declarations, ambient, same, other, member⟩

theorem OwnVariable.node (own : OwnVariable f g b st d) : f.HasNode (.declarator d) := by
  obtain ⟨m, kind, declarations, ambient, rfl, -, member⟩ := own.form
  exact (own.body.within own.within).child (List.mem_map_of_mem member)

/-- No statement of the file is inside a function. -/
theorem OwnVariable.notTop (own : OwnVariable f g b st d) (apart : f.Apart) {top : Stmt} (stands : top ∈ f.statements) :
    ¬(Node.statement top).Within (.statement (.block b)) := by
  intro within
  rcases within.parent with same | ⟨p, inside, part⟩
  · obtain ⟨fn, has, -, child⟩ := own.function
    exact apart.notPart stands has (same ▸ child)
  · exact apart.notPart stands (own.body.within inside) part

/-- The variable is seen only from nodes of the file, and only from the block or branch around its declaration. -/
def Sees (f : SourceFile) (st : Stmt) (i : Nat) : Prop := f.HasNumber i ∧ ∀ shelter, Shelters f shelter st → shelter.Has i

/-- What binding leaves behind about a block variable. -/
abbrev State.Holding (f : SourceFile) (g : FunctionNode) (b : Block) (st : Stmt) (d : VarDeclarator) (C : Scopes) (s : State) : Prop :=
  s.Placed f (Node.statement (.block b)).Has g d (Sees f st) C

/-- A node of the file, with the function around it. -/
def Surrounded (f : SourceFile) (g : FunctionNode) (b : Block) (c : Option FunctionNode) (n : Node) : Prop :=
  f.HasNode n ∧ (n.Within (.statement (.block b)) → (∀ q, n ≠ .param q) → c = some g)

theorem surroundedBelow (apart : f.Apart) (own : OwnVariable f g b st d) {c : Option FunctionNode} {n m : Node}
    (ok : Surrounded f g b c n) (child : m ∈ n.children) (other : m.isTyping = false) :
    Surrounded f g b (innerContainer c n) m := by
  refine ⟨ok.1.child child, fun within plain => ?_⟩
  rcases within.parent with rfl | ⟨p, inside, part⟩
  · obtain ⟨fn, has, function, body⟩ := own.function
    obtain rfl := apart.parent ok.1 has child body
    exact innerContainerAny function c
  · obtain rfl := apart.parent ok.1 (own.body.within inside) child part
    have around := ok.2 inside (by rintro q rfl; cases q; simp_all [Node.children]; obtain ⟨t, -, rfl⟩ := child; cases other)
    unfold innerContainer
    split
    next body _ _ =>
      cases body with
      | some b' => cases own.plain _ inside
      | none =>
        simp only [Node.children, List.append_nil, Option.toList_none, List.map_nil, List.mem_append, List.mem_map] at child
        rcases child with ⟨q, -, rfl⟩ | ⟨t, -, rfl⟩
        · exact absurd rfl (plain q)
        · cases other
    next => cases own.plain _ inside
    next => exact around

theorem ownIntroduced (apart : f.Apart) (own : OwnVariable f g b st d) {r : Region} {n : Node} {flags excludes : SymbolFlags}
    (introduces : Introduces (Surrounded f g b) f.statements r n flags excludes) (node : f.HasNode n)
    (same : n.mark.id = d.mark.id) : n = .declarator d ∧ flags = SymbolFlags.blockVariable ∧ excludes = SymbolFlags.value ∧
      ∀ i, r.HasNumber i → Sees f st i := by
  obtain ⟨m, kind, declarations, ambient, rfl, other, member⟩ := own.form
  have there := own.body.within own.within
  obtain ⟨rfl, flags, excludes, sees⟩ := lexicalIntroduced (fun _ _ ok => ok.1) apart other there member introduces node same
  refine ⟨rfl, flags, excludes, fun i has => ⟨?_, fun shelter shelters => sees shelter shelters i has⟩⟩
  have region {n : Node} (around : f.HasNode n) (has : n.Has i) : f.HasNumber i := by
    obtain ⟨l, within, same⟩ := has
    exact ⟨l, around.within within, same⟩
  cases introduces with
  | top stands declared =>
    obtain ⟨_, _, _, _, rfl, -, member', -⟩ := declaredLexical declared
    have same := apart.parent ⟨_, stands, .self _⟩ there (List.mem_map_of_mem member') (List.mem_map_of_mem member)
    exact absurd (same ▸ own.within) (own.notTop apart stands)
  | block ok | branch ok | body ok => exact region ok.1 has
  | hoisted => cases flags

/-- The parameters of a function are the first to be declared in its scope. -/
theorem paramIntroduced {Ok : Option FunctionNode → Node → Prop} {r : Region} {q : Source.Param} {flags excludes : SymbolFlags}
    {tops : List Stmt} (introduces : Introduces Ok tops r (.param q) flags excludes) :
    flags.meets SymbolFlags.value = true ∧ excludes = SymbolFlags.value := by
  have other {st : Stmt} : (Node.param q, flags) ∉ declaredNodes st := by
    intro declared
    unfold declaredNodes at declared
    repeat' split at declared
    all_goals simp at declared
  cases introduces with
  | param value => exact ⟨value, rfl⟩
  | top _ declared | block _ _ declared | branch _ declared | body _ _ _ _ declared => exact absurd declared other

theorem holdingBinding (apart : f.Apart) (own : OwnVariable f g b st d) :
    Binding (State.Holding f g b st d) f.name f.statements (Surrounded f g b) f.HasNode where
  fewer less placed := placed.fewer less
  below ok child := by
    split
    · exact ok.1.child child
    next other => exact surroundedBelow apart own ok child (Bool.not_eq_true _ ▸ other)
  typed has child := has.child child
  noteFile same _ := .modified fun _ placed => placed.noteFile fun _ => same
  noteScope _ stands := .modified fun _ placed => placed.noteScope stands
  noteContainer ok plain := .modified fun _ placed => placed.noteContainer fun ⟨l, within, same⟩ => by
    obtain rfl := apart.same (own.body.within within) ok.1 same
    exact ok.2 within plain
  newScope _ stands placed run := by
    cases run
    exact placed.newScope stands
  error _ _ := .modified fun _ placed =>
    placed.same rfl (fun _ => ⟨rfl, rfl⟩) rfl rfl rfl placed.filed placed.contained
  declare {_ p n _ _ _ _ _ _} same ok opened declares introduces := ⟨fun s x t placed run => by
    obtain ⟨⟨⟩, u, noted, run⟩ := runBind run
    cases noted
    refine (placed.noteFile fun _ => same).declareStep opened ?_ ?_ ?_ (Typing.declareStep run)
    · intro same
      obtain ⟨rfl, flags, excludes, sees⟩ := ownIntroduced apart own introduces ok.1 (declares.mark ▸ same)
      cases declares
      exact ⟨rfl, flags, excludes, sees⟩
    · intro q has same
      obtain rfl : n = .param q := apart.same ok.1 has (declares.mark ▸ same)
      cases declares
      exact ⟨rfl, paramIntroduced introduces⟩
    · intro m name has same
      obtain rfl : n = .expression (.ident m name) := apart.same ok.1 has (declares.mark ▸ same)
      cases declares⟩
  detail x _ _ := .modified fun _ placed => placed.detailed x fun _ => ⟨rfl, rfl⟩

/-- Other files have other nodes. -/
theorem foreignBinding (own : OwnVariable f g b st d) (file : String) (tops : List Stmt) :
    Binding (State.Holding f g b st d) file tops (fun _ => (·.All (¬f.HasNumber ·))) (·.All (¬f.HasNumber ·)) where
  fewer less placed := placed.fewer less
  below all child := by
    split <;> exact all.child child
  typed all child := all.child child
  noteFile {_ _ n} _ all := .modified fun _ placed => placed.noteFile fun has => absurd has (all.elim (· n (.self n)) (· n (.self n)))
  noteScope _ stands := .modified fun _ placed => placed.noteScope stands
  noteContainer {_ _ n} all _ := .modified fun _ placed => placed.noteContainer fun ⟨l, within, same⟩ =>
    absurd ⟨l, own.body.within within, same⟩ (all n (.self n))
  newScope _ stands placed run := by
    cases run
    exact placed.newScope stands
  error _ _ := .modified fun _ placed =>
    placed.same rfl (fun _ => ⟨rfl, rfl⟩) rfl rfl rfl placed.filed placed.contained
  declare {_ p n _ _ _ _ _ _} _ all opened declares introduces := ⟨fun s x t placed run => by
    have foreign {m : Node} (has : f.HasNode m) (same : n.mark.id = m.mark.id) : False := all n (.self n) ⟨m, has, same.symm⟩
    obtain ⟨⟨⟩, u, noted, run⟩ := runBind run
    cases noted
    refine (placed.noteFile fun has => absurd has (all n (.self n))).declareStep opened ?_ ?_ ?_ (Typing.declareStep run)
    · exact fun same => (foreign own.node (declares.mark ▸ same)).elim
    · exact fun q has same => (foreign has (declares.mark ▸ same)).elim
    · exact fun m name has same => foreign has (declares.mark ▸ same)⟩
  detail x _ _ := .modified fun _ placed => placed.detailed x fun _ => ⟨rfl, rfl⟩

/-- Before any file there is one scope, with one name. -/
theorem initialHolding : State.initial.Holding f g b st d .outermost := by
  have only {i : ScopeId} {c : Scope} (here : State.initial.scopes[i]? = some c) : i = globalScope ∧ c.parent = none ∧
      ∀ (name : String) x, c.names[name]? = some x → x = undefinedSymbol := by
    obtain ⟨inside, there⟩ := Array.getElem?_eq_some_iff.mp here
    obtain rfl : i = 0 := Nat.lt_one_iff.mp inside
    cases there
    refine ⟨rfl, rfl, fun name x found => ?_⟩
    change (({} : Std.HashMap String SymbolId).insert "undefined" undefinedSymbol)[name]? = some x at found
    rw [Std.HashMap.getElem?_insert] at found
    split at found
    · exact (Option.some.inj found).symm
    · simp at found
  refine ⟨by simp [State.initial], by simp [State.initial], by simp [State.initial], by simp [State.initial],
    by simp [State.initial], fun x none => ?_, fun i c name x here found => ?_, fun i j _ _ _ _ _ here _ here' _ => ?_,
    fun i _ => i = globalScope, fun i k is => is ▸ Nat.zero_lt_one, ?_, by simp [State.initial], fun i c outer here parent => ?_,
    by simp [State.initial]⟩
  · cases x with
    | zero => cases none
    | succ => rfl
  · obtain ⟨-, -, names⟩ := only here
    exact names name x found ▸ Nat.zero_lt_one
  · exact (only here).1.trans (only here').1.symm
  · rintro i r ⟨rfl, rfl⟩
    exact ⟨Nat.zero_lt_one, fun k => ⟨fun _ => trivial, fun _ => rfl⟩⟩
  · cases parent.symm.trans (only here).2.1

/-- Files of which no other has a node of the given one are bound with all that is said of its nodes. -/
theorem startHolding (apart : f.Apart) (own : OwnVariable f g b st d) {files : List SourceFile}
    (foreign : ∀ h ∈ files, h = f ∨ ∀ st ∈ h.statements, (Node.statement st).All (¬f.HasNumber ·)) (started : start files = .ok s) :
    s.Holding f g b st d .outermost := by
  unfold start at started
  obtain ⟨⟨⟨⟩, u⟩, bound, started⟩ := okBind started
  cases started
  have keeps : Keeps (State.Holding f g b st d .outermost) (files.forM bindFile) := .forM fun h member => by
    rcases foreign h member with rfl | other
    · refine (holdingBinding apart own).bindFile fun st stands => ⟨⟨st, stands, .self _⟩, fun within => absurd within ?_⟩
      exact own.notTop apart stands
    · exact (foreignBinding own h.name h.statements).bindFile other
  exact keeps.keeps State.initial () s initialHolding bound

end Own

end Fragment.Typing
