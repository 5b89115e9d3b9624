import Fragment.Proofs.Nodes
import Fragment.Proofs.NameTokens

/-! Trees are labelled as they are built.
Building hands out every number once. So whatever the numbers before and after the ones that it hands
out are taken for, those of accesses and of names in what it builds can be told apart. -/
namespace Fragment.Source

variable {α β γ : Type}

/-! Counting -/

/-- A builder that never takes numbers back. -/
class Counts (m : Builder α) : Prop where
  counts : ∀ n a n', m n = .ok (a, n') → n ≤ n'

instance pureCounts (a : α) : Counts (pure a : Builder α) where
  counts n b n' run := by
    cases run
    exact Nat.le_refl n

instance throwCounts (e : BuildError) : Counts (throw e : Builder α) where
  counts n b n' run := by cases run

theorem builderBindRun {m : Builder α} {f : α → Builder β} {n n' : Nat} {b : β} (run : (m >>= f) n = .ok (b, n')) :
    ∃ a k, m n = .ok (a, k) ∧ f a k = .ok (b, n') := by
  change (m n >>= fun r => f r.1 r.2) = .ok (b, n') at run
  cases first : m n with
  | error e =>
    rw [first] at run
    cases run
  | ok r =>
    rw [first] at run
    exact ⟨r.1, r.2, rfl, run⟩

instance bindCounts (m : Builder α) (f : α → Builder β) [first : Counts m] [rest : ∀ a, Counts (f a)] :
    Counts (m >>= f) where
  counts n b n' run := by
    obtain ⟨a, k, ran, run⟩ := builderBindRun run
    exact Nat.le_trans (first.counts n a k ran) ((rest a).counts k b n' run)

instance iteCounts (c : Prop) [Decidable c] (m n : Builder α) [Counts m] [Counts n] : Counts (if c then m else n) := by
  split <;> assumption

instance markCounts (e : Extent) : Counts (Builder.mark e) where
  counts n m n' run := by
    cases run
    exact Nat.le_succ n

instance literalCounts (value : Except Fault α) : Counts (Builder.literal value) := by
  unfold Builder.literal
  split <;> infer_instance

instance partCounts (a : Option α) : Counts (Builder.part a) := by
  unfold Builder.part
  split <;> infer_instance

instance mapCounts (f : α → Builder β) (items : List α) [each : ∀ a, Counts (f a)] : Counts (items.mapM f) := by
  induction items with
  | nil => exact pureCounts _
  | cons a rest ih =>
    rw [List.mapM_cons]
    infer_instance

instance optionCounts (f : α → Builder β) (a : Option α) [each : ∀ a, Counts (f a)] : Counts (a.mapM f) := by
  cases a with
  | none => exact pureCounts _
  | some a =>
    rw [Option.mapM_some, map_eq_pure_bind]
    infer_instance

instance nameCounts (t : Tree) : Counts t.nameText := by
  unfold Tree.nameText
  infer_instance

instance literalValueCounts (token : Token) : Counts (literalValue token) := by
  unfold literalValue
  split <;> infer_instance

/-- The types, parameters, annotations and members of trees of some depth. -/
structure TypesCount (fuel : Nat) : Prop where
  type : ∀ t, Counts (buildType fuel t)
  params : ∀ list, Counts (buildParams fuel list)
  annotation : ∀ ann, Counts (annotatedType fuel ann)
  members : ∀ body, Counts (buildMembers fuel body)

theorem typesCount (fuel : Nat) : TypesCount fuel := by
  induction fuel with
  | zero =>
    refine ⟨fun _ => throwCounts _, fun list => ?_, fun _ => throwCounts _, fun _ => throwCounts _⟩
    cases list with
    | none => exact pureCounts _
    | some list => exact throwCounts _
  | succ fuel ih =>
    have := ih.type
    have := ih.params
    have := ih.annotation
    have := ih.members
    refine ⟨fun t => ?_, fun list => ?_, fun ann => ?_, fun body => ?_⟩
    · unfold buildType
      split
      · infer_instance
      · split <;> infer_instance
    · cases list with
      | none => exact pureCounts _
      | some list =>
        unfold buildParams
        infer_instance
    · unfold annotatedType
      infer_instance
    · unfold buildMembers
      infer_instance

instance typeCounts (fuel : Nat) (t : Tree) : Counts (buildType fuel t) := (typesCount fuel).type t

instance annotationCounts (fuel : Nat) (ann : Tree) : Counts (annotatedType fuel ann) := TypesCount.annotation (typesCount fuel) ann

instance membersCounts (fuel : Nat) (body : Tree) : Counts (buildMembers fuel body) := (typesCount fuel).members body

instance typeParamsCounts (fuel : Nat) (list : Option Tree) : Counts (buildTypeParams fuel list) := by
  unfold buildTypeParams
  infer_instance

/-! Labels -/

/-- What a builder makes is as it should be if the numbers that it handed out are taken for what they
were handed out for. -/
def Labels (m : Builder α) (P : (Nat → Prop) → α → Prop) : Prop :=
  ∀ n a n', m n = .ok (a, n') → n ≤ n' ∧
    ∃ own : Nat → Prop, ∀ A : Nat → Prop, (∀ i, n ≤ i → i < n' → (A i ↔ own i)) → P A a

section Labels

variable {m : Builder α} {P : (Nat → Prop) → α → Prop} {R : (Nat → Prop) → β → Prop}

theorem Labels.plain [counting : Counts m] (holds : ∀ n a n', m n = .ok (a, n') → ∀ A, P A a) : Labels m P :=
  fun n a n' run => ⟨counting.counts n a n' run, fun _ => False, fun A _ => holds n a n' run A⟩

theorem Labels.counted [Counts m] : Labels m fun _ _ => True := .plain fun _ _ _ _ _ => trivial

theorem Labels.pure {a : α} (h : ∀ A, P A a) : Labels (pure a) P := .plain fun _ _ _ run => by
  cases run
  exact h

theorem Labels.throw (e : BuildError) : Labels (throw e : Builder α) P := fun _ _ _ run => by cases run

theorem Labels.weaken {P' : (Nat → Prop) → α → Prop} (labels : Labels m P) (implies : ∀ A a, P A a → P' A a) :
    Labels m P' := by
  intro n a n' run
  obtain ⟨after, own, holds⟩ := labels n a n' run
  exact ⟨after, own, fun A agrees => implies A a (holds A agrees)⟩

/-- Two builders in a row hand out different numbers, so that both can have them taken as they need. -/
theorem Labels.bind {f : α → Builder β} (first : Labels m P) (rest : ∀ a, Labels (f a) fun A b => P A a → R A b) :
    Labels (m >>= f) R := by
  intro n b n' run
  obtain ⟨a, k, ran, run⟩ := builderBindRun run
  obtain ⟨before, own, holds⟩ := first n a k ran
  obtain ⟨after, own', holds'⟩ := rest a k b n' run
  refine ⟨Nat.le_trans before after, fun i => if i < k then own i else own' i, fun A agrees => ?_⟩
  refine holds' A (fun i low high => ?_) (holds A fun i low high => ?_)
  · exact (agrees i (Nat.le_trans before low) high).trans (by simp [Nat.not_lt.mpr low])
  · exact (agrees i low (Nat.lt_of_lt_of_le high after)).trans (by simp [high])

/-- A step whose result does not matter. -/
theorem Labels.skip {f : α → Builder β} [Counts m] (rest : ∀ a, Labels (f a) R) : Labels (m >>= f) R :=
  Labels.counted.bind fun a => (rest a).weaken fun _ _ holds _ => holds

theorem Labels.part {o : Option α} {f : α → Builder β} (rest : ∀ a, o = some a → Labels (f a) R) :
    Labels (Builder.part o >>= f) R := by
  cases o with
  | none => exact fun _ _ _ run => by cases run
  | some a =>
    rw [Builder.part, pure_bind]
    exact rest a rfl

theorem Labels.access (e : Extent) : Labels (Builder.mark e) fun A m => A m.id := by
  intro n a n' run
  cases run
  exact ⟨Nat.le_succ n, fun _ => True, fun A agrees => (agrees n (Nat.le_refl n) (Nat.lt_succ_self n)).mpr trivial⟩

theorem Labels.name (e : Extent) : Labels (Builder.mark e) fun A m => ¬ A m.id := by
  intro n a n' run
  cases run
  exact ⟨Nat.le_succ n, fun _ => False, fun A agrees => (agrees n (Nat.le_refl n) (Nat.lt_succ_self n)).mp⟩

theorem Labels.each {f : γ → Builder α} {items : List γ} (all : ∀ c ∈ items, Labels (f c) P) :
    Labels (items.mapM f) fun A as => ∀ a ∈ as, P A a := by
  induction items with
  | nil => exact .pure fun _ => nofun
  | cons c rest ih =>
    rw [List.mapM_cons]
    refine (all c List.mem_cons_self).bind fun a => ?_
    refine (ih fun d member => all d (List.mem_cons_of_mem c member)).bind fun as => .pure fun A others first => ?_
    exact List.forall_mem_cons.mpr ⟨first, others⟩

theorem Labels.optional {f : γ → Builder α} {c : Option γ} (there : ∀ d, c = some d → Labels (f d) P) :
    Labels (c.mapM f) fun A a => ∀ b ∈ a, P A b := by
  cases c with
  | none => exact .pure fun _ => nofun
  | some d =>
    rw [Option.mapM_some, map_eq_pure_bind]
    refine (there d rfl).bind fun b => .pure fun A holds c member => ?_
    cases member
    exact holds

end Labels

/-! Names -/

variable {t : Tree}

theorem tokenOver {P : Token → Prop} (good : t.Over P) {k : TokenKind} {token : Token} (found : t.token? k = some token) :
    P token ∧ token.kind = k := by
  have member := List.mem_of_find?_eq_some found
  obtain ⟨c, inside, is⟩ := List.mem_filterMap.mp member
  refine ⟨?_, by simpa using List.find?_some found⟩
  cases good.children c inside with
  | leaf holds =>
    cases is
    exact holds
  | node => cases is

theorem nameLabels (good : t.Over Token.Spelled) : Labels t.nameText fun _ name => IsWord name := by
  unfold Tree.nameText
  refine .part fun token found => .pure fun _ => ?_
  obtain ⟨spelled, kind⟩ := tokenOver good found
  exact spelled kind

theorem childOver {P : Token → Prop} (good : t.Over P) {l : Label} {c : Tree} (found : t.child? l = some c) : c.Over P :=
  good.children c (List.mem_of_find?_eq_some found)

theorem nodesOfOver {P : Token → Prop} (good : t.Over P) (l : Label) : ∀ c ∈ Tree.nodesOf (t.child? l), c.Over P := by
  cases found : t.child? l with
  | none => exact nofun
  | some c => exact (childOver good found).nodes

theorem paramsLabels (fuel : Nat) {list : Option Tree} (good : ∀ l ∈ list, l.Over Token.Spelled) :
    Labels (buildParams fuel list) fun _ params => ∀ p ∈ params, IsWord p.name := by
  cases list with
  | none =>
    unfold buildParams
    exact .pure fun _ => nofun
  | some list =>
    cases fuel with
    | zero => exact .throw _
    | succ fuel =>
      unfold buildParams
      refine .each fun node member => .skip fun type => .skip fun mark => ?_
      exact (nameLabels ((good list rfl).nodes node member)).bind fun name => .pure fun _ word => word

/-! Expressions and statements -/

/-- The expressions, statements and their parts of trees of some depth. -/
structure TreesLabelled (fuel : Nat) : Prop where
  expr : ∀ t : Tree, t.Over Token.Spelled → Labels (buildExpr fuel t) fun A e => e.Labelled IsWord A
  property : ∀ t : Tree, t.Over Token.Spelled → Labels (buildProperty fuel t) fun A p => p.value.Labelled IsWord A
  block : ∀ t : Tree, t.Over Token.Spelled → Labels (buildBlock fuel t) fun A b => b.Labelled IsWord A
  vars : ∀ t : Tree, t.Over Token.Spelled → ∀ ambient, Labels (buildVars fuel t ambient) fun A s => s.Labelled IsWord A
  stmt : ∀ t : Tree, t.Over Token.Spelled → Labels (buildStmt fuel t) fun A s => s.Labelled IsWord A
  function : ∀ t : Tree, t.Over Token.Spelled → ∀ ambient,
    Labels (buildFunction fuel t ambient) fun A s => s.Labelled IsWord A
  interface : ∀ t : Tree, t.Over Token.Spelled → Labels (buildInterface fuel t) fun A s => s.Labelled IsWord A
  enum : ∀ t : Tree, t.Over Token.Spelled → ∀ ambient, Labels (buildEnum fuel t ambient) fun A s => s.Labelled IsWord A

theorem arrowLabels {fuel : Nat} (ih : TreesLabelled fuel) {body : Tree} (good : body.Over Token.Spelled) (extent : Extent)
    (params : List Param) (result : Option TypeNode) (isAsync : Bool) :
    Labels (do
      let body ← if body.hasLabel .block then Body.block <$> buildBlock fuel body else Body.expr <$> buildExpr fuel body
      return Expr.arrow (← Builder.mark extent) params body result isAsync)
      fun A e => (∀ p ∈ params, IsWord p.name) → e.Labelled IsWord A := by
  have made (b : Builder Body) (labels : Labels b fun A b => b.Labelled IsWord A) : Labels (do
      let body ← b
      return Expr.arrow (← Builder.mark extent) params body result isAsync)
      fun A e => (∀ p ∈ params, IsWord p.name) → e.Labelled IsWord A :=
    labels.bind fun body => .skip fun mark => .pure fun A labelled words => ⟨words, labelled⟩
  split
  · refine made _ ?_
    rw [map_eq_pure_bind]
    exact (ih.block body good).bind fun b => .pure fun A labelled => labelled
  · refine made _ ?_
    rw [map_eq_pure_bind]
    exact (ih.expr body good).bind fun e => .pure fun A labelled => labelled

theorem exprLabels {fuel : Nat} (ih : TreesLabelled fuel) (good : t.Over Token.Spelled) :
    Labels (buildExpr (fuel + 1) t) fun A e => e.Labelled IsWord A := by
  unfold buildExpr
  split
  · exact .throw _
  next label extent children =>
    have inside : ∀ c ∈ children, c.Over Token.Spelled := good.children
    have exprs : ∀ c ∈ (Tree.node label extent children).nodes, Labels (buildExpr fuel c) fun A e => e.Labelled IsWord A :=
      fun c member => ih.expr c (good.nodes c member)
    dsimp only
    split
    · exact .skip fun value => .skip fun mark => .pure fun _ => trivial
    · exact .skip fun value => .skip fun mark => .pure fun _ => trivial
    · exact .skip fun mark => .pure fun _ => trivial
    · exact .skip fun mark => .pure fun _ => trivial
    · exact (Labels.name extent).bind fun mark => .pure fun _ name => name
    · exact .part fun c first => exprs c (List.mem_of_mem_head? first)
    · refine (Labels.each fun c member => ih.property c (good.nodes c member)).bind fun properties => ?_
      exact .skip fun mark => .pure fun A all => (labelledPropertiesIff properties).mpr all
    · refine (Labels.each exprs).bind fun elements => ?_
      exact .skip fun mark => .pure fun A all => (labelledExprsIff elements).mpr all
    next target _ name =>
      refine (ih.expr target (inside target List.mem_cons_self)).bind fun target => ?_
      exact (Labels.access name.extent).bind fun mark => .pure fun A access labelled => ⟨access, labelled⟩
    next target _ index _ =>
      refine (ih.expr target (inside target (by simp))).bind fun target => ?_
      refine (ih.expr index (inside index (by simp))).bind fun index => ?_
      exact (Labels.access extent).bind fun mark => .pure fun A access index target => ⟨access, target, index⟩
    next callee _ =>
      refine (Labels.each fun c member => ih.expr c (nodesOfOver good .arguments c member)).bind fun args => ?_
      refine (ih.expr callee (inside callee (by simp))).bind fun callee => ?_
      exact .skip fun mark => .pure fun A callee args => ⟨callee, (labelledExprsIff _).mpr args⟩
    next op operand =>
      refine (ih.expr operand (inside operand (by simp))).bind fun operand => ?_
      exact .skip fun mark => .pure fun A labelled => labelled
    next operand =>
      refine (ih.expr operand (inside operand (by simp))).bind fun operand => ?_
      exact .skip fun mark => .pure fun A labelled => labelled
    next left op right =>
      refine (ih.expr left (inside left (by simp))).bind fun left => ?_
      refine (ih.expr right (inside right (by simp))).bind fun right => ?_
      exact .skip fun mark => .pure fun A right left => ⟨left, right⟩
    next test _ yes _ no =>
      refine (ih.expr test (inside test (by simp))).bind fun test => ?_
      refine (ih.expr yes (inside yes (by simp))).bind fun yes => ?_
      refine (ih.expr no (inside no (by simp))).bind fun no => ?_
      exact .skip fun mark => .pure fun A no yes test => ⟨test, yes, no⟩
    next target op value =>
      refine (ih.expr target (inside target (by simp))).bind fun target => ?_
      refine (ih.expr value (inside value (by simp))).bind fun value => ?_
      exact .skip fun mark => .pure fun A value target => ⟨target, value⟩
    next inner _ type =>
      refine (ih.expr inner (inside inner (by simp))).bind fun inner => ?_
      exact .skip fun type => .skip fun mark => .pure fun A labelled => labelled
    · split
      next params body two =>
        have paramsGood : params.Over Token.Spelled := good.nodes params (by simp [two])
        have bodyGood : body.Over Token.Spelled := good.nodes body (by simp [two])
        have closed := arrowLabels ih bodyGood extent
        split
        next single found =>
          refine .skip fun mark => ?_
          rw [pure_bind]
          refine (closed _ _ _).weaken fun A e holds => holds fun p member => ?_
          obtain rfl := List.mem_singleton.mp member
          obtain ⟨spelled, kind⟩ := tokenOver paramsGood found
          exact spelled kind
        next =>
          refine (paramsLabels fuel fun list found => childOver paramsGood found).bind fun params => .skip fun result => ?_
          rw [pure_bind]
          exact (closed _ _ _).weaken fun A e holds words => holds words
      · exact .throw _
    · exact .throw _

theorem propertyLabels {fuel : Nat} (ih : TreesLabelled fuel) (good : t.Over Token.Spelled) :
    Labels (buildProperty (fuel + 1) t) fun A p => p.value.Labelled IsWord A := by
  unfold buildProperty
  have keyCounts (key : Token) : Counts (keyText key) := by
    unfold keyText
    infer_instance
  refine .skip fun key => .skip fun name => ?_
  split
  · exact (Labels.name _).bind fun mark => .skip fun outer => .pure fun A name => name
  · refine .part fun value first => ?_
    refine (ih.expr value (good.nodes value (List.mem_of_mem_head? first))).bind fun value => ?_
    exact .skip fun mark => .pure fun A labelled => labelled

theorem blockLabels {fuel : Nat} (ih : TreesLabelled fuel) (good : t.Over Token.Spelled) :
    Labels (buildBlock (fuel + 1) t) fun A b => b.Labelled IsWord A := by
  unfold buildBlock
  refine (Labels.each fun c member => ih.stmt c (good.nodes c member)).bind fun statements => ?_
  exact .skip fun mark => .pure fun A all => (labelledStmtsIff statements).mpr all

theorem varsLabels {fuel : Nat} (ih : TreesLabelled fuel) (good : t.Over Token.Spelled) (ambient : Bool) :
    Labels (buildVars (fuel + 1) t ambient) fun A s => s.Labelled IsWord A := by
  unfold buildVars
  have kindCounts (k : TokenKind) : Counts (varKind k) := by
    unfold varKind
    split <;> infer_instance
  refine .skip fun token => .skip fun kind => ?_
  refine (Labels.each (P := fun A d => d.Labelled IsWord A) fun node member => .skip fun type => ?_).bind
    fun declarations => .skip fun mark => .pure fun A all => (labelledDeclaratorsIff declarations).mpr all
  have inside := good.nodes node member
  refine (Labels.optional (P := fun A e => e.Labelled IsWord A) fun c first => ?_).bind fun init => .skip fun mark => ?_
  · exact ih.expr c (inside.nodes c (List.mem_filter.mp (List.mem_of_mem_head? first)).1)
  · exact (nameLabels inside).bind fun name => .pure fun A word labelled => ⟨word, labelled⟩

theorem functionLabels {fuel : Nat} (ih : TreesLabelled fuel) (good : t.Over Token.Spelled) (ambient : Bool) :
    Labels (buildFunction (fuel + 1) t ambient) fun A s => s.Labelled IsWord A := by
  unfold buildFunction
  refine (paramsLabels fuel fun list found => childOver good found).bind fun params => .skip fun result => ?_
  refine (Labels.optional fun c found => ih.block c (childOver good found)).bind fun body => .skip fun mark => ?_
  refine (nameLabels good).bind fun name => .pure fun A word inside words => ?_
  cases body with
  | none => exact ⟨word, words, trivial⟩
  | some b => exact ⟨word, words, inside b rfl⟩

theorem interfaceLabels {fuel : Nat} (good : t.Over Token.Spelled) :
    Labels (buildInterface (fuel + 1) t) fun A s => s.Labelled IsWord A := by
  unfold buildInterface
  refine .skip fun typeParams => .skip fun parents => .skip fun members => .skip fun mark => ?_
  exact (nameLabels good).bind fun name => .pure fun A word => word

theorem enumLabels {fuel : Nat} (ih : TreesLabelled fuel) (good : t.Over Token.Spelled) (ambient : Bool) :
    Labels (buildEnum (fuel + 1) t ambient) fun A s => s.Labelled IsWord A := by
  unfold buildEnum
  refine (Labels.each (P := fun A m => ∀ e ∈ m.init, e.Labelled IsWord A) fun node member => ?_).bind fun members =>
    .skip fun mark => (nameLabels good).bind fun name => .pure fun A word all =>
      ⟨word, (labelledMembersIff members).mpr all⟩
  have inside := nodesOfOver good .enumBody node member
  refine (Labels.optional fun c first => ih.expr c (inside.nodes c (List.mem_of_mem_head? first))).bind fun init => ?_
  exact .skip fun mark => .skip fun name => .pure fun A labelled => labelled

theorem stmtLabels {fuel : Nat} (ih : TreesLabelled fuel) (good : t.Over Token.Spelled) :
    Labels (buildStmt (fuel + 1) t) fun A s => s.Labelled IsWord A := by
  unfold buildStmt
  dsimp only
  split
  · exact .throw _
  next label extent children =>
    split
    next expr _ two =>
      refine (ih.expr expr (good.nodes expr (by simp [two]))).bind fun e => ?_
      exact .skip fun mark => .pure fun A labelled => labelled
    next list _ two => exact ih.vars list (good.nodes list (by simp [two])) false
    next list _ two => exact ih.vars list (good.nodes list (by simp [two])) true
    next =>
      refine (Labels.optional fun c first => ih.expr c (good.nodes c (List.mem_of_mem_head? first))).bind fun value => ?_
      refine .skip fun mark => .pure fun A labelled => ?_
      cases value with
      | none => exact trivial
      | some e => exact labelled e rfl
    · exact .skip fun mark => .pure fun _ => trivial
    · exact .skip fun mark => .pure fun _ => trivial
    · exact .skip fun mark => .pure fun _ => trivial
    · exact (ih.block _ good).bind fun b => .pure fun A labelled => labelled
    next test yes no three =>
      have noGood : ∀ c, no.head? = some c → c.Over Token.Spelled := fun c first =>
        good.nodes c (by simp [three, List.mem_of_mem_head? first])
      refine (Labels.optional fun c first => ih.stmt c (noGood c first)).bind fun no => ?_
      refine (ih.expr test (good.nodes test (by simp [three]))).bind fun test => ?_
      refine (ih.stmt yes (good.nodes yes (by simp [three]))).bind fun yes => ?_
      refine .skip fun mark => .pure fun A yes test labelled => ?_
      cases no with
      | none => exact ⟨test, yes, trivial⟩
      | some s => exact ⟨test, yes, labelled s rfl⟩
    next test body two =>
      refine (ih.expr test (good.nodes test (by simp [two]))).bind fun test => ?_
      refine (ih.stmt body (good.nodes body (by simp [two]))).bind fun body => ?_
      exact .skip fun mark => .pure fun A body test => ⟨test, body⟩
    · exact ih.function _ good false
    next sig _ two => exact ih.function sig (good.nodes sig (by simp [two])) true
    · refine .skip fun typeParams => .skip fun last => .skip fun type => .skip fun mark => ?_
      exact (nameLabels good).bind fun name => .pure fun A word => word
    · exact ih.interface _ good
    next decl _ two => exact ih.interface decl (good.nodes decl (by simp [two]))
    · exact ih.enum _ good false
    next decl _ two => exact ih.enum decl (good.nodes decl (by simp [two])) true
    · exact .skip fun mark => .skip fun name => .pure fun _ => trivial
    next nodes =>
      have rest : Labels (do
          let module ← Builder.literal (stringValue (← Builder.part ((Tree.node .importDecl extent children).token? .string)).text)
          return Stmt.importDecl (← Builder.mark extent) module) fun A s => s.Labelled IsWord A :=
        .skip fun token => .skip fun module => .skip fun mark => .pure fun _ => trivial
      split
      · refine .skip fun word => ?_
        split
        · exact .skip fun _ => rest
        · exact rest
      · exact rest
    · exact .throw _

theorem treesLabelled (fuel : Nat) : TreesLabelled fuel := by
  induction fuel with
  | zero =>
    exact {
      expr := fun _ _ => .throw _
      property := fun _ _ => .throw _
      block := fun _ _ => .throw _
      vars := fun _ _ _ => .throw _
      stmt := fun _ _ => .throw _
      function := fun _ _ _ => .throw _
      interface := fun _ _ => .throw _
      enum := fun _ _ _ => .throw _ }
  | succ fuel ih =>
    exact {
      expr := fun _ good => exprLabels ih good
      property := fun _ good => propertyLabels ih good
      block := fun _ good => blockLabels ih good
      vars := fun _ good => varsLabels ih good
      stmt := fun _ good => stmtLabels ih good
      function := fun _ good => functionLabels ih good
      interface := fun _ good => interfaceLabels good
      enum := fun _ good => enumLabels ih good }

end Fragment.Source
