import Fragment.Proofs.Reshape

/-! The numbers of nodes play no part in whether a text parses.
Building hands out numbers and never looks at them, so the same trees are refused for the same
reason whatever the first number is. -/
namespace Fragment.Source

/-- Two builders that fail alike: both give something, or both stop with one error. -/
def FailAlike {α β : Type} (m : Builder α) (m' : Builder β) : Prop :=
  ∀ n k, (m n).map (fun _ => ()) = (m' k).map (fun _ => ())

section FailAlike

variable {α β γ δ : Type}

theorem FailAlike.pure (a : α) (b : β) : FailAlike (pure a) (pure b) := fun _ _ => rfl

theorem FailAlike.throw (e : BuildError) : FailAlike (throw e : Builder α) (throw e : Builder β) :=
  fun _ _ => rfl

theorem FailAlike.bind {m : Builder α} {m' : Builder β} {f : α → Builder γ} {f' : β → Builder δ}
    (first : FailAlike m m') (rest : ∀ a b, FailAlike (f a) (f' b)) : FailAlike (m >>= f) (m' >>= f') := by
  intro n k
  have same := first n k
  change ((m n).bind fun p => f p.1 p.2).map _ = ((m' k).bind fun p => f' p.1 p.2).map _
  cases here : m n with
  | error e =>
    cases there : m' k with
    | error e' => simpa [here, there, Except.map, Except.bind] using same
    | ok p => simp [here, there, Except.map] at same
  | ok p =>
    cases there : m' k with
    | error e' => simp [here, there, Except.map] at same
    | ok p' => exact rest p.1 p'.1 p.2 p'.2

theorem FailAlike.map {m : Builder α} {m' : Builder β} {f : α → γ} {f' : β → δ} (h : FailAlike m m') :
    FailAlike (f <$> m) (f' <$> m') := by
  rw [map_eq_pure_bind, map_eq_pure_bind]
  exact h.bind fun _ _ => .pure _ _

theorem markAlike (e e' : Extent) : FailAlike (Builder.mark e) (Builder.mark e') := fun _ _ => rfl

theorem literalAlike (value : Except Fault α) : FailAlike (Builder.literal value) (Builder.literal value) := by
  cases value with
  | ok a => exact .pure a a
  | error fault => exact .throw _

theorem mapAlike {f : α → Builder β} {items : List α} (h : ∀ a, FailAlike (f a) (f a)) :
    FailAlike (items.mapM f) (items.mapM f) := by
  induction items with
  | nil => exact .pure _ _
  | cons a rest ih =>
    simp only [List.mapM_cons]
    exact (h a).bind fun _ _ => ih.bind fun _ _ => .pure _ _

theorem optionAlike {f : α → Builder β} {a : Option α} (h : ∀ a, FailAlike (f a) (f a)) :
    FailAlike (a.mapM f) (a.mapM f) := by
  cases a with
  | none => exact .pure _ _
  | some a => exact (h a).map

-- A part that is there is the same for both.
theorem FailAlike.part {a : Option α} {f : α → Builder β} {f' : α → Builder γ} (rest : ∀ a, FailAlike (f a) (f' a)) :
    FailAlike (Builder.part a >>= f) (Builder.part a >>= f') := by
  cases a with
  | none => exact .throw _
  | some a => exact rest a

end FailAlike

theorem varKindAlike (k : TokenKind) : FailAlike (varKind k) (varKind k) := by
  unfold varKind
  split
  all_goals first | exact .pure _ _ | exact .throw _

theorem keyTextAlike (key : Token) : FailAlike (keyText key) (keyText key) := by
  unfold keyText
  split
  · exact literalAlike _
  · exact .pure _ _

theorem literalValueAlike (token : Token) : FailAlike (literalValue token) (literalValue token) := by
  unfold literalValue
  split
  · exact (literalAlike _).bind fun _ _ => .pure _ _
  · exact (literalAlike _).bind fun _ _ => .pure _ _
  · exact .pure _ _

theorem nameAlike (t : Tree) : FailAlike t.nameText t.nameText := FailAlike.part fun _ => .pure _ _

/-- The types, parameters, annotations and members of trees of some depth. -/
structure TypesAlike (fuel : Nat) : Prop where
  type : ∀ t, FailAlike (buildType fuel t) (buildType fuel t)
  params : ∀ list, FailAlike (buildParams fuel list) (buildParams fuel list)
  annotation : ∀ ann, FailAlike (annotatedType fuel ann) (annotatedType fuel ann)
  members : ∀ body, FailAlike (buildMembers fuel body) (buildMembers fuel body)

theorem typesAlike (fuel : Nat) : TypesAlike fuel := by
  induction fuel with
  | zero =>
    refine ⟨fun _ => .throw _, fun list => ?_, fun _ => .throw _, fun _ => .throw _⟩
    cases list with
    | none => exact .pure _ _
    | some list => exact .throw _
  | succ fuel ih =>
    refine ⟨fun t => ?_, fun list => ?_, fun ann => ?_, fun body => ?_⟩
    case refine_2 => cases list with
      | none => exact .pure _ _
      | some list =>
        simp only [buildParams]
        exact mapAlike fun node => (optionAlike ih.annotation).bind fun _ _ => (markAlike _ _).bind fun _ _ =>
          (nameAlike node).bind fun _ _ => .pure _ _
    all_goals
      simp only [buildType, annotatedType, buildMembers]
      repeat' first
        | with_reducible exact .pure _ _
        | with_reducible exact .throw _
        | with_reducible exact markAlike _ _
        | with_reducible exact nameAlike _
        | with_reducible exact literalValueAlike _
        | with_reducible exact ih.type _
        | with_reducible exact ih.params _
        | with_reducible exact optionAlike ih.annotation
        | with_reducible exact ih.members _
        | with_reducible exact mapAlike ih.type
        | with_reducible refine mapAlike fun node => ?_
        | with_reducible refine FailAlike.part fun _ => ?_
        | with_reducible refine FailAlike.bind ?_ fun _ _ => ?_
        | split

theorem typeParamsAlike (fuel : Nat) (list : Option Tree) :
    FailAlike (buildTypeParams fuel list) (buildTypeParams fuel list) := by
  unfold buildTypeParams
  exact mapAlike fun node => (optionAlike (typesAlike fuel).type).bind fun _ _ => (markAlike _ _).bind fun _ _ =>
    (nameAlike node).bind fun _ _ => .pure _ _

/-- The expressions, statements and their parts of trees of some depth. -/
structure TreesAlike (fuel : Nat) : Prop where
  expr : ∀ t, FailAlike (buildExpr fuel t) (buildExpr fuel t)
  property : ∀ t, FailAlike (buildProperty fuel t) (buildProperty fuel t)
  block : ∀ t, FailAlike (buildBlock fuel t) (buildBlock fuel t)
  vars : ∀ t ambient, FailAlike (buildVars fuel t ambient) (buildVars fuel t ambient)
  stmt : ∀ t, FailAlike (buildStmt fuel t) (buildStmt fuel t)
  function : ∀ t ambient, FailAlike (buildFunction fuel t ambient) (buildFunction fuel t ambient)
  interface : ∀ t, FailAlike (buildInterface fuel t) (buildInterface fuel t)
  enum : ∀ t ambient, FailAlike (buildEnum fuel t ambient) (buildEnum fuel t ambient)

theorem treesAlike (fuel : Nat) : TreesAlike fuel := by
  induction fuel with
  | zero =>
    exact {
      expr := fun _ => .throw _
      property := fun _ => .throw _
      block := fun _ => .throw _
      vars := fun _ _ => .throw _
      stmt := fun _ => .throw _
      function := fun _ _ => .throw _
      interface := fun _ => .throw _
      enum := fun _ _ => .throw _ }
  | succ fuel ih =>
    have types := typesAlike fuel
    constructor
    case expr =>
      intro t
      unfold buildExpr
      dsimp only
      repeat' first
        | with_reducible refine FailAlike.part fun _ => ?_
        | with_reducible refine FailAlike.bind ?_ fun _ _ => ?_
        | with_reducible exact .pure _ _
        | with_reducible exact .throw _
        | with_reducible exact markAlike _ _
        | with_reducible exact literalAlike _
        | with_reducible exact ih.expr _
        | with_reducible exact types.type _
        | with_reducible exact types.params _
        | with_reducible exact optionAlike types.annotation
        | with_reducible exact mapAlike ih.expr
        | with_reducible exact mapAlike ih.property
        | with_reducible exact FailAlike.map (ih.expr _)
        | with_reducible exact FailAlike.map (ih.block _)
        | split
    case stmt =>
      intro t
      unfold buildStmt
      dsimp only
      repeat' first
        | with_reducible refine FailAlike.part fun _ => ?_
        | with_reducible refine FailAlike.bind ?_ fun _ _ => ?_
        | with_reducible exact .pure _ _
        | with_reducible exact .throw _
        | with_reducible exact markAlike _ _
        | with_reducible exact nameAlike _
        | with_reducible exact literalAlike _
        | with_reducible exact ih.expr _
        | with_reducible exact optionAlike ih.expr
        | with_reducible exact ih.block _
        | with_reducible exact ih.vars _ _
        | with_reducible exact ih.stmt _
        | with_reducible exact optionAlike ih.stmt
        | with_reducible exact ih.function _ _
        | with_reducible exact ih.interface _
        | with_reducible exact ih.enum _ _
        | with_reducible exact types.type _
        | with_reducible exact typeParamsAlike _ _
        | split
    all_goals
      intros
      simp only [buildProperty, buildBlock, buildVars, buildFunction, buildInterface, buildEnum]
      repeat' first
        | with_reducible refine FailAlike.part fun _ => ?_
        | with_reducible refine FailAlike.bind ?_ fun _ _ => ?_
        | with_reducible exact .pure _ _
        | with_reducible exact .throw _
        | with_reducible exact markAlike _ _
        | with_reducible exact nameAlike _
        | with_reducible exact varKindAlike _
        | with_reducible exact keyTextAlike _
        | with_reducible exact ih.expr _
        | with_reducible exact optionAlike ih.expr
        | with_reducible exact optionAlike ih.block
        | with_reducible exact types.params _
        | with_reducible exact optionAlike types.annotation
        | with_reducible exact optionAlike types.members
        | with_reducible exact typeParamsAlike _ _
        | with_reducible exact mapAlike ih.stmt
        | with_reducible exact mapAlike types.type
        | with_reducible refine mapAlike fun node => ?_
        | split

/-- A text parses, or is refused for one reason, whatever the numbers of its nodes. -/
theorem parseFromAlike (start : Nat) (text file : String) :
    (parseFrom start text file).map (fun _ => ()) = (parse text file).map (fun _ => ()) := by
  unfold parse parseFrom
  cases lexed : tokens text with
  | error e => rfl
  | ok raw =>
    cases read : treeOf (layOut raw) with
    | error e =>
      simp [Except.mapError, read, Except.map, bind, Except.bind]
    | ok trees =>
      have stmts := (treesAlike (buildDepth (layOut raw))).stmt
      have same := @mapAlike _ _ _ (trees.flatMap Tree.nodes) stmts start 0
      simp only [Except.mapError, read, Except.map, bind, Except.bind, StateT.run]
      cases here : (trees.flatMap Tree.nodes).mapM (buildStmt (buildDepth (layOut raw))) start <;>
        cases there : (trees.flatMap Tree.nodes).mapM (buildStmt (buildDepth (layOut raw))) 0 <;>
          simp_all [Except.map, pure, Except.pure]

/-- The references of a parsed file are those of its text. -/
theorem parseFromReferences {start next : Nat} {text file : String} {parsed : SourceFile}
    (ok : parseFrom start text file = .ok (parsed, next)) : parsed.references = references text := by
  unfold parseFrom at ok
  obtain ⟨raw, _, ok⟩ := okBind ok
  obtain ⟨trees, _, ok⟩ := okBind ok
  obtain ⟨⟨statements, last⟩, _, ok⟩ := okBind ok
  simp only [pure, Except.pure, Except.ok.injEq, Prod.mk.injEq] at ok
  rw [← ok.1]

end Fragment.Source
