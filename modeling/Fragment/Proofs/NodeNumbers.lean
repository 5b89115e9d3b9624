import Fragment.Proofs.LabelledTrees
import Fragment.Proofs.Nodes

/-! The numbers of the nodes of a file.
Building a file numbers its nodes with the numbers that it hands out. So the nodes of a file are told apart from those of
the files before it, and in an expression the nodes of functions from the names outside of them. -/
namespace Fragment.Source

namespace Node

/-- A node and all below it have numbers of a kind. -/
def All (A : Nat → Prop) (n : Node) : Prop := ∀ m : Node, m.Within n → A m.mark.id

theorem allIff {A : Nat → Prop} {n : Node} : n.All A ↔ A n.mark.id ∧ ∀ c ∈ n.children, c.All A := by
  unfold All
  simp only [withinIff (m := n), or_imp, forall_and, forall_eq]
  refine and_congr_right fun _ => ⟨fun below c child m within => below m ⟨c, child, within⟩, ?_⟩
  rintro below m ⟨c, child, within⟩
  exact below c child m within

theorem All.of {A : Nat → Prop} {n : Node} (own : A n.mark.id) (below : ∀ c ∈ n.children, c.All A) : n.All A :=
  allIff.mpr ⟨own, below⟩

theorem All.child {A : Nat → Prop} {n c : Node} (all : n.All A) (child : c ∈ n.children) : c.All A :=
  (allIff.mp all).2 c child

theorem All.imp {A B : Nat → Prop} {n : Node} (all : n.All A) (implies : ∀ i, A i → B i) : n.All B :=
  fun m within => implies _ (all m within)

end Node

/-! Nodes that are told apart -/

namespace Node

/-- A number is that of a node or of one below it. -/
def Has (n : Node) (i : Nat) : Prop := ∃ m : Node, m.Within n ∧ m.mark.id = i

theorem hasIff {n : Node} {i : Nat} : n.Has i ↔ n.mark.id = i ∨ ∃ c ∈ n.children, c.Has i := by
  unfold Has
  simp only [withinIff (m := n), or_and_right, exists_or, exists_eq_left]
  refine or_congr_right ⟨?_, ?_⟩
  · rintro ⟨m, ⟨c, child, within⟩, same⟩
    exact ⟨c, child, m, within, same⟩
  · rintro ⟨c, child, m, within, same⟩
    exact ⟨m, ⟨c, child, within⟩, same⟩

theorem Has.child {n c : Node} {i : Nat} (has : c.Has i) (child : c ∈ n.children) : n.Has i := hasIff.mpr (.inr ⟨c, child, has⟩)

theorem All.has {A : Nat → Prop} {n : Node} (all : n.All A) {i : Nat} (has : n.Has i) : A i := by
  obtain ⟨m, within, rfl⟩ := has
  exact all m within

/-- No number is in both of two nodes. -/
def Disjoint (c d : Node) : Prop := ∀ i, c.Has i → ¬d.Has i

theorem Disjoint.symm {c d : Node} (disjoint : c.Disjoint d) : d.Disjoint c := fun i there here => disjoint i here there

/-- All nodes below a node have numbers of their own. -/
inductive Apart : Node → Prop
  | of {n : Node} (own : ∀ c ∈ n.children, ¬c.Has n.mark.id) (parts : n.children.Pairwise Disjoint)
      (below : ∀ c ∈ n.children, c.Apart) : Apart n

namespace Apart

variable {n : Node}

theorem own (apart : n.Apart) : ∀ c ∈ n.children, ¬c.Has n.mark.id := by
  cases apart with
  | of own parts below => exact own

theorem parts (apart : n.Apart) : n.children.Pairwise Disjoint := by
  cases apart with
  | of own parts below => exact parts

theorem each (apart : n.Apart) : ∀ c ∈ n.children, c.Apart := by
  cases apart with
  | of own parts below => exact below

end Apart

end Node

/-- Nodes next to each other, all of which have numbers of their own from a range. -/
structure Spread (low high : Nat) (ns : List Node) : Prop where
  order : low ≤ high
  range : ∀ c ∈ ns, c.All fun i => low ≤ i ∧ i < high
  parts : ns.Pairwise Node.Disjoint
  apart : ∀ c ∈ ns, c.Apart

section Spread

variable {low mid high : Nat} {xs ys : List Node}

theorem Spread.nil (n : Nat) : Spread n n [] := ⟨Nat.le_refl n, by simp, .nil, by simp⟩

theorem Spread.append (first : Spread low mid xs) (rest : Spread mid high ys) : Spread low high (xs ++ ys) where
  order := Nat.le_trans first.order rest.order
  range c member := by
    rcases List.mem_append.mp member with member | member
    · exact (first.range c member).imp fun i inside => ⟨inside.1, Nat.lt_of_lt_of_le inside.2 rest.order⟩
    · exact (rest.range c member).imp fun i inside => ⟨Nat.le_trans first.order inside.1, inside.2⟩
  parts := by
    refine List.pairwise_append.mpr ⟨first.parts, rest.parts, fun c here d there i has others => ?_⟩
    exact absurd ((first.range c here).has has).2 (Nat.not_lt.mpr ((rest.range d there).has others).1)
  apart c member := (List.mem_append.mp member).elim (first.apart c) (rest.apart c)

theorem Spread.perm (spread : Spread low high xs) (same : xs.Perm ys) : Spread low high ys where
  order := spread.order
  range c member := spread.range c (same.mem_iff.mpr member)
  parts := spread.parts.perm same fun disjoint => disjoint.symm
  apart c member := spread.apart c (same.mem_iff.mpr member)

/-- A node made of parts, with the number after theirs. -/
theorem Spread.node {n : Node} (spread : Spread low mid xs) (same : xs.Perm n.children) (own : n.mark.id = mid) :
    Spread low (mid + 1) [n] := by
  have parts := spread.perm same
  refine ⟨Nat.le_trans parts.order (Nat.le_succ mid), ?_, List.pairwise_singleton .., ?_⟩ <;>
    refine List.forall_mem_singleton.mpr ?_
  · refine .of (by rw [own]; exact ⟨parts.order, Nat.lt_succ_self mid⟩) fun c child => ?_
    exact (parts.range c child).imp fun i inside => ⟨inside.1, Nat.lt_succ_of_lt inside.2⟩
  · refine .of (fun c child has => ?_) parts.parts parts.apart
    exact absurd ((parts.range c child).has has).2 (by rw [own]; exact Nat.lt_irrefl mid)

/-- Nodes some of which give way to their parts. -/
theorem Spread.opened (spread : Spread low high xs) {f : Node → List Node} (parts : ∀ c, f c = [c] ∨ f c = c.children) :
    Spread low high (xs.flatMap f) := by
  have below {c d : Node} (member : d ∈ f c) : ∀ i, d.Has i → c.Has i := by
    rcases parts c with alone | children
    · rw [alone, List.mem_singleton] at member
      exact fun i has => member ▸ has
    · rw [children] at member
      exact fun i has => has.child member
  refine ⟨spread.order, fun d member => ?_, ?_, fun d member => ?_⟩
  · obtain ⟨c, there, inside⟩ := List.mem_flatMap.mp member
    exact fun m within => (spread.range c there).has (below inside m.mark.id ⟨m, within, rfl⟩)
  · refine List.pairwise_flatMap.mpr ⟨fun c there => ?_, spread.parts.imp fun disjoint d here e other i has => ?_⟩
    · rcases parts c with alone | children
      · rw [alone]
        exact List.pairwise_singleton ..
      · rw [children]
        exact (spread.apart c there).parts
    · exact fun others => disjoint i (below here i has) (below other i others)
  · obtain ⟨c, there, inside⟩ := List.mem_flatMap.mp member
    rcases parts c with alone | children
    · rw [alone, List.mem_singleton] at inside
      exact inside ▸ spread.apart c there
    · rw [children] at inside
      exact (spread.apart c there).each d inside

end Spread

/-! Numbers that are handed out -/

variable {α β γ : Type}

/-- What a builder makes from the number `n` on fits the first number that it leaves over. -/
def NumbersFrom (n : Nat) (m : Builder α) (P : Nat → α → Prop) : Prop := ∀ a n', m n = .ok (a, n') → n ≤ n' ∧ P n' a

section NumbersFrom

variable {n : Nat} {m : Builder α} {P : Nat → α → Prop} {R : Nat → β → Prop} {f : α → Builder β}

theorem NumbersFrom.pure {a : α} (h : P n a) : NumbersFrom n (pure a) P := by
  intro b n' run
  cases run
  exact ⟨Nat.le_refl n, h⟩

theorem NumbersFrom.throw (e : BuildError) : NumbersFrom n (throw e : Builder α) P := fun _ _ run => by cases run

theorem NumbersFrom.weaken {P' : Nat → α → Prop} (builds : NumbersFrom n m P) (implies : ∀ k a, P k a → P' k a) :
    NumbersFrom n m P' :=
  fun a k run => (builds a k run).imp_right (implies k a)

theorem NumbersFrom.bind (first : NumbersFrom n m P) (rest : ∀ k a, P k a → NumbersFrom k (f a) R) :
    NumbersFrom n (m >>= f) R := by
  intro b n' run
  obtain ⟨a, k, ran, run⟩ := builderBindRun run
  obtain ⟨before, holds⟩ := first a k ran
  exact (rest k a holds b n' run).imp_left (Nat.le_trans before)

/-- A step that builds nothing: it hands out no number. -/
class Idle (m : Builder α) : Prop where
  idle : ∀ n a n', m n = .ok (a, n') → n' = n

instance pureIdle (a : α) : Idle (pure a : Builder α) where
  idle n b n' run := by
    cases run
    rfl

instance literalIdle (value : Except Fault α) : Idle (Builder.literal value) where
  idle n a n' run := by
    cases value <;> cases run
    rfl

instance partIdle (a : Option α) : Idle (Builder.part a) where
  idle n b n' run := by
    cases a <;> cases run
    rfl

instance throwIdle (e : BuildError) : Idle (throw e : Builder α) where
  idle n a n' run := by cases run

instance bindIdle (m : Builder α) (f : α → Builder β) [first : Idle m] [rest : ∀ a, Idle (f a)] : Idle (m >>= f) where
  idle n b n' run := by
    obtain ⟨a, k, ran, run⟩ := builderBindRun run
    exact ((rest a).idle k b n' run).trans (first.idle n a k ran)

instance nameIdle (t : Tree) : Idle t.nameText := by
  unfold Tree.nameText
  infer_instance

instance literalValueIdle (token : Token) : Idle (literalValue token) := by
  unfold literalValue
  split <;> infer_instance

instance keyIdle (key : Token) : Idle (keyText key) := by
  unfold keyText
  split <;> infer_instance

instance kindIdle (k : TokenKind) : Idle (varKind k) := by
  unfold varKind
  split <;> infer_instance

theorem NumbersFrom.skip [idle : Idle m] (rest : ∀ a, NumbersFrom n (f a) R) : NumbersFrom n (m >>= f) R := by
  intro b n' run
  obtain ⟨a, k, ran, run⟩ := builderBindRun run
  cases idle.idle n a k ran
  exact rest a b n' run

/-- The number of a new node is the one that is handed out for it. -/
theorem NumbersFrom.mark (e : Extent) {f : Mark → Builder β} (rest : ∀ k : Mark, k.id = n → NumbersFrom (n + 1) (f k) R) :
    NumbersFrom n (Builder.mark e >>= f) R := by
  refine NumbersFrom.bind (P := fun n' k => n' = n + 1 ∧ k.id = n) ?_ ?_
  · intro k n' run
    cases run
    exact ⟨Nat.le_succ n, rfl, rfl⟩
  · rintro _ k ⟨rfl, own⟩
    exact rest k own

theorem NumbersFrom.each {g : γ → Builder α} {f : α → Node} {items : List γ}
    (all : ∀ c k, NumbersFrom k (g c) fun n' a => Spread k n' [f a]) :
    NumbersFrom n (items.mapM g) fun n' as => Spread n n' (as.map f) := by
  induction items generalizing n with
  | nil => exact .pure (.nil n)
  | cons c rest ih =>
    rw [List.mapM_cons]
    exact (all c n).bind fun _ a one => ih.bind fun _ as others => .pure (one.append others)

theorem NumbersFrom.optional {g : γ → Builder α} {nodes : α → List Node} {c : Option γ}
    (there : ∀ d, NumbersFrom n (g d) fun n' a => Spread n n' (nodes a)) :
    NumbersFrom n (c.mapM g) fun n' a => Spread n n' (a.toList.flatMap nodes) := by
  cases c with
  | none => exact .pure (.nil n)
  | some d =>
    rw [Option.mapM_some, map_eq_pure_bind]
    exact (there d).bind fun _ b spread => .pure (by simpa using spread)

theorem NumbersFrom.one {g : γ → Builder α} {f : α → Node} {c : Option γ}
    (there : ∀ d, NumbersFrom n (g d) fun n' a => Spread n n' [f a]) :
    NumbersFrom n (c.mapM g) fun n' a => Spread n n' (a.toList.map f) :=
  (NumbersFrom.optional there).weaken fun _ a spread => by rwa [← List.map_eq_flatMap] at spread

theorem NumbersFrom.labels {Q : (Nat → Prop) → α → Prop}
    (builds : ∀ n, NumbersFrom n m fun n' a => ∀ A : Nat → Prop, (∀ i, n ≤ i → i < n' → A i) → Q A a) : Labels m Q := by
  intro n a n' run
  obtain ⟨after, holds⟩ := builds n a n' run
  exact ⟨after, fun _ => True, fun A agrees => holds A fun i low high => (agrees i low high).mpr trivial⟩

end NumbersFrom

/-! Types -/

/-- The types, parameters, annotations and members of trees of some depth. -/
structure TypesSpread (fuel : Nat) : Prop where
  type : ∀ t n, NumbersFrom n (buildType fuel t) fun n' t => Spread n n' [.type t]
  params : ∀ list n, NumbersFrom n (buildParams fuel list) fun n' ps => Spread n n' (ps.map .param)
  annotation : ∀ ann n, NumbersFrom n (annotatedType fuel ann) fun n' t => Spread n n' [.type t]
  members : ∀ body n, NumbersFrom n (buildMembers fuel body) fun n' ms => Spread n n' (ms.map .typeMember)

/-- A type made of types, the parts of which take the place of parts that are of the same kind. -/
theorem compoundSpread {fuel : Nat} (ih : TypesSpread fuel) {make : Mark → List TypeNode → TypeNode}
    (own : ∀ m ts, (make m ts).mark = m) (below : ∀ m ts, (Node.type (make m ts)).children = ts.map .type)
    {flatten : TypeNode → List TypeNode}
    (parts : ∀ t, flatten t = [t] ∨ (flatten t).map Node.type = (Node.type t).children)
    (trees : List Tree) (extent : Extent) (n : Nat) :
    NumbersFrom n (do
      let types ← trees.mapM (buildType fuel)
      return make (← Builder.mark extent) (types.flatMap flatten)) fun n' t => Spread n n' [.type t] := by
  refine (NumbersFrom.each ih.type).bind fun k types spread => .mark _ fun mark same => .pure ?_
  let opened : Node → List Node
    | .type t => (flatten t).map .type
    | c => [c]
  refine (spread.opened (f := opened) fun c => ?_).node ?_ ((congrArg Mark.id (own mark _)).trans same)
  · cases c with
    | type t => exact (parts t).imp_left fun alone => by simp [opened, alone]
    | _ => exact .inl rfl
  · rw [below, List.map_flatMap, List.flatMap_map]

theorem typeSpread {fuel : Nat} (ih : TypesSpread fuel) (t : Tree) (n : Nat) :
    NumbersFrom n (buildType (fuel + 1) t) fun n' t => Spread n n' [.type t] := by
  unfold buildType
  split
  · exact .throw _
  next label extent children =>
    split
    · refine (NumbersFrom.each ih.type).bind fun k args spread => .mark _ fun mark own => .skip fun name => ?_
      exact .pure (spread.node (.of_eq rfl) own)
    · refine (ih.type _ _).bind fun k element spread => .mark _ fun mark own => .pure ?_
      exact spread.node (.of_eq rfl) own
    · refine compoundSpread ih (fun _ _ => rfl) (fun _ _ => rfl) (fun t => ?_) _ _ n
      cases t with
      | union _ types => exact .inr rfl
      | _ => exact .inl rfl
    · refine compoundSpread ih (fun _ _ => rfl) (fun _ _ => rfl) (fun t => ?_) _ _ n
      cases t with
      | intersection _ types => exact .inr rfl
      | _ => exact .inl rfl
    · refine .skip fun token => .skip fun value => .mark _ fun mark own => .pure ?_
      exact (Spread.nil n).node (.of_eq rfl) own
    · refine .mark _ fun mark own => .pure ?_
      exact (Spread.nil n).node (.of_eq rfl) own
    · refine (ih.members _ _).bind fun k members spread => .mark _ fun mark own => .pure ?_
      exact spread.node (.of_eq rfl) own
    · refine (ih.params _ _).bind fun k params first => .skip fun last => (ih.type _ _).bind fun k result rest => ?_
      refine .mark _ fun mark own => .pure ?_
      exact (first.append rest).node (.of_eq rfl) own
    · exact ih.type _ _
    · exact .throw _

theorem paramsSpread {fuel : Nat} (ih : TypesSpread fuel) (list : Option Tree) (n : Nat) :
    NumbersFrom n (buildParams (fuel + 1) list) fun n' ps => Spread n n' (ps.map .param) := by
  cases list with
  | none =>
    unfold buildParams
    exact .pure (.nil n)
  | some list =>
    unfold buildParams
    refine .each fun node k => (NumbersFrom.one fun t => ih.annotation t k).bind fun k' type spread => .mark _ fun mark own => ?_
    refine .skip fun name => .pure ?_
    exact spread.node (.of_eq rfl) own

theorem membersSpread {fuel : Nat} (ih : TypesSpread fuel) (body : Tree) (n : Nat) :
    NumbersFrom n (buildMembers (fuel + 1) body) fun n' ms => Spread n n' (ms.map .typeMember) := by
  unfold buildMembers
  refine .each fun node k => ?_
  -- A property has no annotation of a result.
  refine (NumbersFrom.one fun t => ih.annotation t k).bind fun k' result last => ?_
  split
  · refine .skip fun tree => (ih.type _ _).bind fun k'' type spread => .mark _ fun mark own => .skip fun name => .pure ?_
    have alone : Spread k k'' [.type type] := ⟨Nat.le_trans last.order spread.order, fun c member =>
      (spread.range c member).imp fun i inside => ⟨Nat.le_trans last.order inside.1, inside.2⟩, spread.parts, spread.apart⟩
    exact alone.node (.of_eq rfl) own
  · refine (ih.params _ _).bind fun k'' params first => ?_
    have both := last.append first
    split
    · refine .mark _ fun mark own => .skip fun name => .pure ?_
      exact both.node List.perm_append_comm own
    · split
      · refine .mark _ fun mark own => .pure ?_
        exact both.node List.perm_append_comm own
      · exact .throw _

theorem typesSpread (fuel : Nat) : TypesSpread fuel := by
  induction fuel with
  | zero =>
    refine ⟨fun _ _ => .throw _, fun list n => ?_, fun _ _ => .throw _, fun _ _ => .throw _⟩
    cases list with
    | none => exact .pure (.nil n)
    | some list => exact .throw _
  | succ fuel ih =>
    refine ⟨typeSpread ih, paramsSpread ih, fun ann n => ?_, membersSpread ih⟩
    unfold annotatedType
    exact .skip fun first => ih.type first n

theorem typeParamsSpread (fuel : Nat) (list : Option Tree) (n : Nat) :
    NumbersFrom n (buildTypeParams fuel list) fun n' ps => Spread n n' (ps.map .typeParam) := by
  unfold buildTypeParams
  refine .each fun node k => (NumbersFrom.one fun t => (typesSpread fuel).type t k).bind fun k' bound spread => ?_
  refine .mark _ fun mark own => .skip fun name => .pure ?_
  exact spread.node (.of_eq rfl) own

/-! Expressions and statements -/

theorem annotatedSpread (fuel : Nat) (ann : Tree) (n : Nat) :
    NumbersFrom n (annotatedType fuel ann) fun n' t => Spread n n' [.type t] := TypesSpread.annotation (typesSpread fuel) ann n

/-- The expressions, statements and their parts of trees of some depth. -/
structure TreesSpread (fuel : Nat) : Prop where
  expr : ∀ t n, NumbersFrom n (buildExpr fuel t) fun n' e => Spread n n' [.expression e]
  property : ∀ t n, NumbersFrom n (buildProperty fuel t) fun n' p => Spread n n' [.property p]
  block : ∀ t n, NumbersFrom n (buildBlock fuel t) fun n' b => Spread n n' [.statement (.block b)]
  vars : ∀ t ambient n, NumbersFrom n (buildVars fuel t ambient) fun n' s => Spread n n' [.statement s]
  stmt : ∀ t n, NumbersFrom n (buildStmt fuel t) fun n' s => Spread n n' [.statement s]
  function : ∀ t ambient n, NumbersFrom n (buildFunction fuel t ambient) fun n' s => Spread n n' [.statement s]
  interface : ∀ t n, NumbersFrom n (buildInterface fuel t) fun n' s => Spread n n' [.statement s]
  enum : ∀ t ambient n, NumbersFrom n (buildEnum fuel t ambient) fun n' s => Spread n n' [.statement s]

/-- A function that stands as an expression. -/
def IsArrow (e : Expr) : Prop := ∃ m params body result isAsync, e = .arrow m params body result isAsync

theorem arrowSpread {fuel : Nat} (ih : TreesSpread fuel) (body : Tree) (extent : Extent) {params : List Param}
    {result : Option TypeNode} (isAsync : Bool) {n k : Nat}
    (before : Spread n k (params.map .param ++ result.toList.map .type)) :
    NumbersFrom k (do
      let body ← if body.hasLabel .block then Body.block <$> buildBlock fuel body else Body.expr <$> buildExpr fuel body
      return Expr.arrow (← Builder.mark extent) params body result isAsync)
      fun n' e => IsArrow e ∧ Spread n n' [.expression e] := by
  have made (b : Builder Body) (builds : NumbersFrom k b fun n' b => Spread k n' [Node.ofBody b]) : NumbersFrom k (do
      let body ← b
      return Expr.arrow (← Builder.mark extent) params body result isAsync)
      fun n' e => IsArrow e ∧ Spread n n' [.expression e] := by
    refine builds.bind fun k' body spread => .mark _ fun mark own => .pure ⟨⟨_, _, _, _, _, rfl⟩, ?_⟩
    exact (before.append spread).node (.of_eq rfl) own
  split
  · refine made _ ?_
    rw [map_eq_pure_bind]
    exact (ih.block body k).bind fun k' b spread => .pure spread
  · refine made _ ?_
    rw [map_eq_pure_bind]
    exact (ih.expr body k).bind fun k' e spread => .pure spread

theorem functionTreeSpread {fuel : Nat} (ih : TreesSpread fuel) (extent : Extent) (children : List Tree) (n : Nat) :
    NumbersFrom n (buildExpr (fuel + 1) (.node .arrowFunction extent children))
      fun n' e => IsArrow e ∧ Spread n n' [.expression e] := by
  unfold buildExpr
  dsimp only
  split
  · split
    next single found =>
      simp only [pure_bind]
      refine .mark _ fun mark own => arrowSpread ih _ extent _ ?_
      exact (Spread.nil n).node (n := .param (.mk mark single.text none false false)) (.of_eq rfl) own
    next =>
      simp only [pure_bind]
      refine ((typesSpread fuel).params _ _).bind fun k params first => ?_
      refine (NumbersFrom.one fun t => annotatedSpread fuel t k).bind fun k' result rest => ?_
      exact arrowSpread ih _ extent _ (first.append rest)
  · exact .throw _

theorem exprSpread {fuel : Nat} (ih : TreesSpread fuel) (t : Tree) (n : Nat) :
    NumbersFrom n (buildExpr (fuel + 1) t) fun n' e => Spread n n' [.expression e] := by
  by_cases function : ∃ extent children, t = .node .arrowFunction extent children
  · obtain ⟨extent, children, rfl⟩ := function
    exact (functionTreeSpread ih extent children n).weaken fun k e made => made.2
  unfold buildExpr
  split
  · exact .throw _
  next label extent children =>
    have plain : label ≠ .arrowFunction := fun same => function ⟨extent, children, same ▸ rfl⟩
    dsimp only
    have leaf {e : Mark → Expr} (own : ∀ m, (e m).mark = m) (below : ∀ m, (Node.expression (e m)).children = []) :
        NumbersFrom n (do return e (← Builder.mark extent)) fun n' e => Spread n n' [.expression e] :=
      .mark extent fun mark same => .pure
        ((Spread.nil n).node (.of_eq (below mark).symm) ((congrArg Mark.id (own mark)).trans same))
    split
    · exact .skip fun value => leaf (fun _ => rfl) fun _ => rfl
    · exact .skip fun value => leaf (fun _ => rfl) fun _ => rfl
    · exact leaf (fun _ => rfl) fun _ => rfl
    · exact leaf (fun _ => rfl) fun _ => rfl
    · exact leaf (fun _ => rfl) fun _ => rfl
    · exact .skip fun first => ih.expr first n
    · refine (NumbersFrom.each ih.property).bind fun _ _ spread => .mark _ fun mark own => .pure ?_
      exact spread.node (.of_eq rfl) own
    · refine (NumbersFrom.each ih.expr).bind fun _ _ spread => .mark _ fun mark own => .pure ?_
      exact spread.node (.of_eq rfl) own
    · refine (ih.expr _ _).bind fun _ _ spread => .mark _ fun mark own => .pure ?_
      exact spread.node (.of_eq rfl) own
    · refine (ih.expr _ _).bind fun _ target first => (ih.expr _ _).bind fun _ index rest => .mark _ fun mark own => ?_
      exact .pure ((first.append rest).node (.of_eq rfl) own)
    -- The arguments of a call have lower numbers than what is called.
    · refine (NumbersFrom.each ih.expr).bind fun _ args first => (ih.expr _ _).bind fun _ callee rest => .mark _ fun mark own => ?_
      exact .pure ((first.append rest).node List.perm_append_comm own)
    · refine (ih.expr _ _).bind fun _ _ spread => .mark _ fun mark own => .pure ?_
      exact spread.node (.of_eq rfl) own
    · refine (ih.expr _ _).bind fun _ _ spread => .mark _ fun mark own => .pure ?_
      exact spread.node (.of_eq rfl) own
    · refine (ih.expr _ _).bind fun _ left first => (ih.expr _ _).bind fun _ right rest => .mark _ fun mark own => ?_
      exact .pure ((first.append rest).node (.of_eq rfl) own)
    · refine (ih.expr _ _).bind fun _ test first => (ih.expr _ _).bind fun _ yes second => ?_
      refine (ih.expr _ _).bind fun _ no third => .mark _ fun mark own => .pure ?_
      exact ((first.append second).append third).node (.of_eq rfl) own
    · refine (ih.expr _ _).bind fun _ target first => (ih.expr _ _).bind fun _ value rest => .mark _ fun mark own => ?_
      exact .pure ((first.append rest).node (.of_eq rfl) own)
    · refine (ih.expr _ _).bind fun _ inner first => ((typesSpread fuel).type _ _).bind fun _ type rest => ?_
      refine .mark _ fun mark own => .pure ?_
      exact (first.append rest).node (.of_eq rfl) own
    · exact absurd rfl plain
    · exact .throw _

theorem propertySpread {fuel : Nat} (ih : TreesSpread fuel) (t : Tree) (n : Nat) :
    NumbersFrom n (buildProperty (fuel + 1) t) fun n' p => Spread n n' [.property p] := by
  unfold buildProperty
  refine .skip fun key => .skip fun name => ?_
  split
  · refine .mark _ fun inner same => .mark _ fun mark own => .pure ?_
    exact ((Spread.nil n).node (n := .expression (.ident inner name)) (.of_eq rfl) same).node (.of_eq rfl) own
  · refine .skip fun value => (ih.expr value n).bind fun k value spread => .mark _ fun mark own => ?_
    exact .pure (spread.node (.of_eq rfl) own)

theorem varsSpread {fuel : Nat} (ih : TreesSpread fuel) (t : Tree) (ambient : Bool) (n : Nat) :
    NumbersFrom n (buildVars (fuel + 1) t ambient) fun n' s => Spread n n' [.statement s] := by
  unfold buildVars
  refine .skip fun token => .skip fun kind => ?_
  refine (NumbersFrom.each (f := .declarator) fun node k => ?_).bind fun k declarations spread =>
    .mark _ fun mark own => .pure (spread.node (.of_eq rfl) own)
  refine (NumbersFrom.one fun t => annotatedSpread fuel t k).bind fun k' type first => ?_
  refine (NumbersFrom.one fun t => ih.expr t k').bind fun k'' init rest => .mark _ fun mark own => .skip fun name => ?_
  exact .pure ((first.append rest).node (.of_eq rfl) own)

theorem functionSpread {fuel : Nat} (ih : TreesSpread fuel) (t : Tree) (ambient : Bool) (n : Nat) :
    NumbersFrom n (buildFunction (fuel + 1) t ambient) fun n' s => Spread n n' [.statement s] := by
  unfold buildFunction
  refine ((typesSpread fuel).params _ _).bind fun k params first => ?_
  refine (NumbersFrom.one fun t => annotatedSpread fuel t k).bind fun k' result second => ?_
  refine (NumbersFrom.one (f := fun b => .statement (.block b)) fun t => ih.block t k').bind fun k'' body third => ?_
  refine .mark _ fun mark own => .skip fun name => .pure ?_
  exact ((first.append second).append third).node (.of_eq rfl) own

theorem interfaceSpread {fuel : Nat} (t : Tree) (n : Nat) :
    NumbersFrom n (buildInterface (fuel + 1) t) fun n' s => Spread n n' [.statement s] := by
  unfold buildInterface
  refine (typeParamsSpread fuel _ _).bind fun k typeParams first => ?_
  refine (NumbersFrom.each (typesSpread fuel).type).bind fun k' parents second => ?_
  refine (NumbersFrom.optional fun t => (typesSpread fuel).members t k').bind fun k'' members third => ?_
  refine .mark _ fun mark own => .skip fun name => .pure ?_
  refine ((first.append second).append third).node ?_ own
  cases members with
  | none =>
    unfold Node.children
    simp
  | some ms =>
    unfold Node.children
    simp

theorem enumSpread {fuel : Nat} (ih : TreesSpread fuel) (t : Tree) (ambient : Bool) (n : Nat) :
    NumbersFrom n (buildEnum (fuel + 1) t ambient) fun n' s => Spread n n' [.statement s] := by
  unfold buildEnum
  refine (NumbersFrom.each (f := .enumMember) fun node k => ?_).bind fun k members spread =>
    .mark _ fun mark own => .skip fun name => .pure (spread.node (.of_eq rfl) own)
  refine (NumbersFrom.one fun t => ih.expr t k).bind fun k' init spread => .mark _ fun mark own => .skip fun name => ?_
  exact .pure (spread.node (.of_eq rfl) own)

theorem stmtSpread {fuel : Nat} (ih : TreesSpread fuel) (t : Tree) (n : Nat) :
    NumbersFrom n (buildStmt (fuel + 1) t) fun n' s => Spread n n' [.statement s] := by
  unfold buildStmt
  dsimp only
  split
  · exact .throw _
  next label extent children =>
    have leaf {s : Mark → Stmt} (own : ∀ m, (s m).mark = m) (below : ∀ m, (Node.statement (s m)).children = []) :
        NumbersFrom n (do return s (← Builder.mark (Tree.node label extent children).extent))
          fun n' s => Spread n n' [.statement s] :=
      .mark _ fun mark same => .pure
        ((Spread.nil n).node (.of_eq (below mark).symm) ((congrArg Mark.id (own mark)).trans same))
    split
    · refine (ih.expr _ _).bind fun _ e spread => .mark _ fun mark own => .pure ?_
      exact spread.node (.of_eq rfl) own
    · exact ih.vars _ false n
    · exact ih.vars _ true n
    · exact (NumbersFrom.one fun t => ih.expr t n).bind fun _ value spread => .mark _ fun mark own =>
        .pure (spread.node (.of_eq rfl) own)
    · exact leaf (fun _ => rfl) fun _ => rfl
    · exact leaf (fun _ => rfl) fun _ => rfl
    · exact leaf (fun _ => rfl) fun _ => rfl
    · exact (ih.block _ n).bind fun k b spread => .pure spread
    -- The branch without the condition has the lowest numbers.
    · refine (NumbersFrom.one (f := .statement) fun t => ih.stmt t n).bind fun _ no first => ?_
      refine (ih.expr _ _).bind fun _ test second => (ih.stmt _ _).bind fun _ yes third => .mark _ fun mark own => .pure ?_
      refine (first.append (second.append third)).node ?_ own
      exact List.perm_append_comm
    · refine (ih.expr _ _).bind fun _ test first => (ih.stmt _ _).bind fun _ body rest => .mark _ fun mark own => ?_
      exact .pure ((first.append rest).node (.of_eq rfl) own)
    · exact ih.function _ false n
    · exact ih.function _ true n
    · refine (typeParamsSpread fuel _ _).bind fun _ typeParams first => .skip fun last => ?_
      refine ((typesSpread fuel).type _ _).bind fun _ type rest => .mark _ fun mark own => .skip fun name => ?_
      exact .pure ((first.append rest).node (.of_eq rfl) own)
    · exact ih.interface _ n
    · exact ih.interface _ n
    · exact ih.enum _ false n
    · exact ih.enum _ true n
    · refine .mark _ fun mark own => .skip fun name => .pure ?_
      exact (Spread.nil n).node (.of_eq rfl) own
    next nodes =>
      have rest : NumbersFrom n (do
          let module ← Builder.literal (stringValue (← Builder.part ((Tree.node .importDecl extent children).token? .string)).text)
          return Stmt.importDecl (← Builder.mark extent) module) fun n' s => Spread n n' [.statement s] :=
        .skip fun token => .skip fun module => .mark _ fun mark own => .pure ((Spread.nil n).node (.of_eq rfl) own)
      split
      · refine .skip fun word => ?_
        split
        · exact .skip fun _ => rest
        · exact rest
      · exact rest
    · exact .throw _

theorem treesSpread (fuel : Nat) : TreesSpread fuel := by
  induction fuel with
  | zero =>
    exact {
      expr := fun _ _ => .throw _
      property := fun _ _ => .throw _
      block := fun _ _ => .throw _
      vars := fun _ _ _ => .throw _
      stmt := fun _ _ => .throw _
      function := fun _ _ _ => .throw _
      interface := fun _ _ => .throw _
      enum := fun _ _ _ => .throw _ }
  | succ fuel ih =>
    refine ⟨exprSpread ih, propertySpread ih, fun t n => ?_, varsSpread ih, stmtSpread ih, functionSpread ih, interfaceSpread,
      enumSpread ih⟩
    unfold buildBlock
    refine (NumbersFrom.each ih.stmt).bind fun _ statements spread => .mark _ fun mark own => .pure ?_
    exact spread.node (.of_eq rfl) own

/-! Names outside of functions -/

namespace Node

/-- The nodes of which an expression is made, apart from those of a function and those of types. -/
def outerParts : Node → List Node
  | expression (.arrow ..) => []
  | expression (.cast _ e _) => [expression e]
  | n => n.children

/-- A node is reached from another without entering a function. -/
inductive Outer : Node → Node → Prop
  | self (n : Node) : Outer n n
  | part {n c m : Node} (part : c ∈ m.outerParts) (outer : Outer n c) : Outer n m

theorem outerIff {n m : Node} : Outer n m ↔ n = m ∨ ∃ c ∈ m.outerParts, Outer n c := by
  constructor
  · rintro (_ | ⟨part, outer⟩)
    · exact .inl rfl
    · exact .inr ⟨_, part, outer⟩
  · rintro (rfl | ⟨c, part, outer⟩)
    · exact .self n
    · exact .part part outer

/-- The numbers of a kind are those of the nodes of functions and not those of names outside of them. -/
def Sorted (A : Nat → Prop) : Node → Prop
  | expression (.ident m _) => ¬ A m.id
  | expression (.arrow m params body result isAsync) => (expression (.arrow m params body result isAsync)).All A
  | _ => True

/-- An expression whose outer nodes are sorted. -/
def Splits (A : Nat → Prop) (n : Node) : Prop := ∀ m : Node, m.Outer n → m.Sorted A

theorem splitsIff {A : Nat → Prop} {n : Node} : n.Splits A ↔ n.Sorted A ∧ ∀ c ∈ n.outerParts, c.Splits A := by
  unfold Splits
  simp only [outerIff (m := n), or_imp, forall_and, forall_eq]
  refine and_congr_right fun _ => ⟨fun below c child m outer => below m ⟨c, child, outer⟩, ?_⟩
  rintro below m ⟨c, child, outer⟩
  exact below c child m outer

theorem Splits.of {A : Nat → Prop} {n : Node} (own : n.Sorted A) (below : ∀ c ∈ n.outerParts, c.Splits A) : n.Splits A :=
  splitsIff.mpr ⟨own, below⟩

end Node

/-- The expressions and properties of trees of some depth. -/
structure TreesSplit (fuel : Nat) : Prop where
  expr : ∀ t, Labels (buildExpr fuel t) fun A e => (Node.expression e).Splits A
  property : ∀ t, Labels (buildProperty fuel t) fun A p => (Node.property p).Splits A

theorem exprSplits {fuel : Nat} (ih : TreesSplit fuel) (t : Tree) :
    Labels (buildExpr (fuel + 1) t) fun A e => (Node.expression e).Splits A := by
  by_cases function : ∃ extent children, t = .node .arrowFunction extent children
  · obtain ⟨extent, children, rfl⟩ := function
    refine NumbersFrom.labels fun n => (functionTreeSpread (treesSpread fuel) extent children n).weaken fun k e made A all => ?_
    obtain ⟨⟨m, params, body, result, isAsync, rfl⟩, spread⟩ := made
    refine .of ?_ (by simp [Node.outerParts])
    exact (spread.range _ List.mem_cons_self).imp fun i inside => all i inside.1 inside.2
  unfold buildExpr
  split
  · exact .throw _
  next label extent children =>
    have plain : label ≠ .arrowFunction := fun same => function ⟨extent, children, same ▸ rfl⟩
    dsimp only
    split
    · exact .skip fun value => .skip fun mark => .pure fun A => .of trivial (by simp [Node.outerParts, Node.children])
    · exact .skip fun value => .skip fun mark => .pure fun A => .of trivial (by simp [Node.outerParts, Node.children])
    · exact .skip fun mark => .pure fun A => .of trivial (by simp [Node.outerParts, Node.children])
    · exact .skip fun mark => .pure fun A => .of trivial (by simp [Node.outerParts, Node.children])
    · exact (Labels.name extent).bind fun mark => .pure fun A name => .of name (by simp [Node.outerParts, Node.children])
    · exact .part fun first _ => ih.expr first
    · refine (Labels.each fun c _ => ih.property c).bind fun properties => .skip fun mark => .pure fun A all => ?_
      exact .of trivial (by simpa [Node.outerParts, Node.children] using all)
    · refine (Labels.each fun c _ => ih.expr c).bind fun elements => .skip fun mark => .pure fun A all => ?_
      exact .of trivial (by simpa [Node.outerParts, Node.children] using all)
    · refine (ih.expr _).bind fun target => .skip fun mark => .pure fun A target => ?_
      exact .of trivial (by simpa [Node.outerParts, Node.children] using target)
    · refine (ih.expr _).bind fun target => (ih.expr _).bind fun index => .skip fun mark => ?_
      exact .pure fun A index target => .of trivial (by simpa [Node.outerParts, Node.children] using ⟨target, index⟩)
    · refine (Labels.each fun c _ => ih.expr c).bind fun args => (ih.expr _).bind fun callee => .skip fun mark => ?_
      exact .pure fun A callee args => .of trivial (by simpa [Node.outerParts, Node.children] using ⟨callee, args⟩)
    · refine (ih.expr _).bind fun operand => .skip fun mark => .pure fun A operand => ?_
      exact .of trivial (by simpa [Node.outerParts, Node.children] using operand)
    · refine (ih.expr _).bind fun operand => .skip fun mark => .pure fun A operand => ?_
      exact .of trivial (by simpa [Node.outerParts, Node.children] using operand)
    · refine (ih.expr _).bind fun left => (ih.expr _).bind fun right => .skip fun mark => ?_
      exact .pure fun A right left => .of trivial (by simpa [Node.outerParts, Node.children] using ⟨left, right⟩)
    · refine (ih.expr _).bind fun test => (ih.expr _).bind fun yes => (ih.expr _).bind fun no => .skip fun mark => ?_
      exact .pure fun A no yes test => .of trivial (by simpa [Node.outerParts, Node.children] using ⟨test, yes, no⟩)
    · refine (ih.expr _).bind fun target => (ih.expr _).bind fun value => .skip fun mark => ?_
      exact .pure fun A value target => .of trivial (by simpa [Node.outerParts, Node.children] using ⟨target, value⟩)
    · refine (ih.expr _).bind fun inner => .skip fun type => .skip fun mark => .pure fun A inner => ?_
      exact .of trivial (by simpa [Node.outerParts, Node.children] using inner)
    · exact absurd rfl plain
    · exact .throw _

theorem treesSplit (fuel : Nat) : TreesSplit fuel := by
  induction fuel with
  | zero => exact ⟨fun _ => .throw _, fun _ => .throw _⟩
  | succ fuel ih =>
    refine ⟨exprSplits ih, fun t => ?_⟩
    have keyCounts (key : Token) : Counts (keyText key) := by
      unfold keyText
      infer_instance
    unfold buildProperty
    refine .skip fun key => .skip fun name => ?_
    split
    · refine (Labels.name _).bind fun inner => .skip fun mark => .pure fun A name => .of trivial ?_
      simpa [Node.outerParts, Node.children] using
        Node.Splits.of (n := .expression (.ident inner _)) name (by simp [Node.outerParts, Node.children])
    · refine .part fun value _ => (ih.expr value).bind fun value => .skip fun mark => .pure fun A value => ?_
      exact .of trivial (by simpa [Node.outerParts, Node.children] using value)

/-! Files -/

/-- A builder of statements that are no expressions. -/
def Declares (m : Builder Stmt) : Prop := ∀ n s n', m n = .ok (s, n') → ∀ mark e, s ≠ .expr mark e

theorem Declares.pure {s : Stmt} (other : ∀ mark e, s ≠ .expr mark e) : Declares (pure s) := by
  intro n t n' run
  cases run
  exact other

theorem Declares.throw (e : BuildError) : Declares (throw e) := fun _ _ _ run => by cases run

theorem Declares.last {m : Builder α} {f : α → Builder Stmt} (rest : ∀ a, Declares (f a)) : Declares (m >>= f) := by
  intro n s n' run
  obtain ⟨a, k, -, run⟩ := builderBindRun run
  exact rest a k s n' run

theorem varsDeclare (fuel : Nat) (t : Tree) (ambient : Bool) : Declares (buildVars fuel t ambient) := by
  cases fuel with
  | zero => exact .throw _
  | succ fuel =>
    unfold buildVars
    exact .last fun _ => .last fun _ => .last fun _ => .last fun _ => .pure (by simp)

theorem functionDeclares (fuel : Nat) (t : Tree) (ambient : Bool) : Declares (buildFunction fuel t ambient) := by
  cases fuel with
  | zero => exact .throw _
  | succ fuel =>
    unfold buildFunction
    exact .last fun _ => .last fun _ => .last fun _ => .last fun _ => .last fun _ => .pure (by simp)

theorem interfaceDeclares (fuel : Nat) (t : Tree) : Declares (buildInterface fuel t) := by
  cases fuel with
  | zero => exact .throw _
  | succ fuel =>
    unfold buildInterface
    exact .last fun _ => .last fun _ => .last fun _ => .last fun _ => .last fun _ => .pure (by simp)

theorem enumDeclares (fuel : Nat) (t : Tree) (ambient : Bool) : Declares (buildEnum fuel t ambient) := by
  cases fuel with
  | zero => exact .throw _
  | succ fuel =>
    unfold buildEnum
    exact .last fun _ => .last fun _ => .last fun _ => .pure (by simp)

/-- If the statement is an expression, building it has begun with building the expression. -/
def Expressed (fuel : Nat) (b : Builder Stmt) : Prop :=
  ∀ n m e n', b n = .ok (.expr m e, n') → ∃ c k, buildExpr fuel c n = .ok (e, k) ∧ k ≤ n'

theorem stmtExpressed (fuel : Nat) (t : Tree) : Expressed fuel (buildStmt (fuel + 1) t) := by
  have other {b : Builder Stmt} (declares : Declares b) : Expressed fuel b := fun n m e n' run =>
    absurd rfl (declares n _ n' run m e)
  unfold buildStmt
  dsimp only
  split
  · exact other (.throw _)
  next label extent children =>
    split
    · intro n m e n' run
      obtain ⟨made, k, built, run⟩ := builderBindRun run
      obtain ⟨mark, k', marked, run⟩ := builderBindRun run
      cases run
      exact ⟨_, k, built, (markCounts extent).counts k _ n' marked⟩
    · exact other (varsDeclare _ _ _)
    · exact other (varsDeclare _ _ _)
    · exact other (.last fun _ => .last fun _ => .pure (by simp))
    · exact other (.last fun _ => .pure (by simp))
    · exact other (.last fun _ => .pure (by simp))
    · exact other (.last fun _ => .pure (by simp))
    · exact other (.last fun _ => .pure (by simp))
    · exact other (.last fun _ => .last fun _ => .last fun _ => .last fun _ => .pure (by simp))
    · exact other (.last fun _ => .last fun _ => .last fun _ => .pure (by simp))
    · exact other (functionDeclares _ _ _)
    · exact other (functionDeclares _ _ _)
    · exact other (.last fun _ => .last fun _ => .last fun _ => .last fun _ => .last fun _ => .pure (by simp))
    · exact other (interfaceDeclares _ _)
    · exact other (interfaceDeclares _ _)
    · exact other (enumDeclares _ _ _)
    · exact other (enumDeclares _ _ _)
    · exact other (.last fun _ => .last fun _ => .pure (by simp))
    next nodes =>
      have rest : Declares (do
          let module ← Builder.literal (stringValue (← Builder.part ((Tree.node .importDecl extent children).token? .string)).text)
          return Stmt.importDecl (← Builder.mark extent) module) :=
        .last fun _ => .last fun _ => .last fun _ => .pure (by simp)
      refine other ?_
      split
      · refine .last fun word => ?_
        split
        · exact .last fun _ => rest
        · exact rest
      · exact rest
    · exact other (.throw _)

/-- A statement that is an expression has its nodes sorted. -/
theorem stmtSplits (fuel : Nat) (t : Tree) {n n' : Nat} {m : Mark} {e : Expr}
    (run : buildStmt fuel t n = .ok (.expr m e, n')) : ∃ A : Nat → Prop, (Node.expression e).Splits A := by
  cases fuel with
  | zero => cases run
  | succ fuel =>
    obtain ⟨c, k, built, -⟩ := stmtExpressed fuel t n m e n' run
    obtain ⟨-, A, splits⟩ := (treesSplit fuel).expr c n e k built
    exact ⟨A, splits A fun _ _ _ => Iff.rfl⟩

end Fragment.Source
