import Fragment.Proofs.Declaring
import Fragment.Proofs.Nodes

/-! What the binder notes.
Binding a file comes to an end and leaves a note about every node of the file. What has been noted for other files is
not lost, and everything that is reported on the way is reported about nodes of this file. -/
namespace Fragment.Typing

open Fragment.Source (Mark Node TypeNode TypeMember Param TypeParam Block Body Property Stmt VarDeclarator EnumMember
  SourceFile)
open Check

/-- Between the two states something of a file has been bound. -/
structure State.Binds (file : String) (s t : State) : Prop where
  files : ∀ id : NodeId, t.fileOf[id]? = s.fileOf[id]? ∨ t.fileOf[id]? = some file
  scopes : ∀ id, id ∈ s.scopeOf → id ∈ t.scopeOf
  containers : ∀ id, id ∈ s.containerOf → id ∈ t.containerOf
  /-- Only this file may have more diagnostics than before. -/
  reported : ∀ other, s.reported other <+: t.reported other ∧ (other ≠ file → t.reported other = s.reported other)

section Binds

variable {file : String} {s t u : State}

theorem State.Binds.same (fileOf : t.fileOf = s.fileOf) (scopeOf : t.scopeOf = s.scopeOf)
    (containerOf : t.containerOf = s.containerOf) (diagnostics : t.diagnostics = s.diagnostics) : s.Binds file t where
  files id := .inl (by rw [fileOf])
  scopes id known := scopeOf ▸ known
  containers id known := containerOf ▸ known
  reported other := by simp [State.reported, diagnostics]

theorem State.Binds.trans (first : s.Binds file t) (rest : t.Binds file u) : s.Binds file u where
  files id := by
    rcases rest.files id with same | new
    · rw [same]
      exact first.files id
    · exact .inr new
  scopes id known := rest.scopes id (first.scopes id known)
  containers id known := rest.containers id (first.containers id known)
  reported other := ⟨(first.reported other).1.trans (rest.reported other).1, fun apart =>
    ((rest.reported other).2 apart).trans ((first.reported other).2 apart)⟩

/-- What has been noted about a node of the file stays. -/
theorem State.Binds.noted (binds : s.Binds file t) {note : Note} (noted : s.Noted file note) : t.Noted file note := by
  cases note with
  | file id =>
    rcases binds.files id with same | new
    · exact same.trans noted
    · exact new
  | scope id => exact binds.scopes id noted
  | container id => exact binds.containers id noted

/-- What is said about a node of the file is added to the diagnostics of the file. -/
theorem errorBinds {mark : Mark} (noted : s.fileOf[mark.id]? = some file) (m : Message) :
    ∃ t, (error mark m).run s = .ok ((), t) ∧ s.Binds file t := by
  obtain ⟨ds, ran, spoken⟩ := State.errorSays s mark m
  refine ⟨_, ran, fun _ => .inl rfl, fun _ => id, fun _ => id, fun other => ?_⟩
  have own : s.fileFor mark = file := by rw [State.fileFor, noted, Option.getD_some]
  rw [spoken.added other]
  refine ⟨List.prefix_append .., fun apart => ?_⟩
  simp [own, apart.symm]

end Binds

/-! Steps of the binder -/

/-- From the given state the step comes to an end and leaves the notes. -/
def Leaves {α : Type} (file : String) (notes : Note → Prop) (m : Check α) (s : State) : Prop :=
  ∃ a t, m.run s = .ok (a, t) ∧ s.Binds file t ∧ ∀ note, notes note → t.Noted file note

/-- A step that need not leave any notes. -/
abbrev Passes {α : Type} (file : String) (m : Check α) (s : State) : Prop := Leaves file (fun _ => False) m s

section Leaves

variable {α β : Type} {file : String} {first rest all : Note → Prop} {m : Check α} {f : α → Check β} {s t : State}

theorem Leaves.pure (a : α) (s : State) : Passes file (pure a : Check α) s :=
  ⟨a, s, rfl, .same rfl rfl rfl rfl, fun _ => False.elim⟩

/-- A step that only looks at something. -/
theorem Leaves.reads {a : α} (ran : m.run s = .ok (a, s)) (follows : Leaves file all (f a) s) :
    Leaves file all (m >>= f) s := by
  obtain ⟨b, t, next, rest⟩ := follows
  exact ⟨b, t, (runThen ran).trans next, rest⟩

/-- What follows a step may count on its notes. -/
theorem Leaves.before {a : α} (ran : m.run s = .ok (a, t)) (binds : s.Binds file t)
    (noted : ∀ note, first note → t.Noted file note) (follows : Leaves file rest (f a) t) :
    Leaves file (fun note => first note ∨ rest note) (m >>= f) s := by
  obtain ⟨b, u, next, more, others⟩ := follows
  refine ⟨b, u, (runThen ran).trans next, binds.trans more, fun note either => ?_⟩
  rcases either with here | there
  · exact more.noted (noted note here)
  · exact others note there

theorem Leaves.bind (step : Leaves file first m s) (follows : ∀ a t, Leaves file rest (f a) t) :
    Leaves file (fun note => first note ∨ rest note) (m >>= f) s := by
  obtain ⟨a, t, ran, binds, noted⟩ := step
  exact .before ran binds noted (follows a t)

theorem Leaves.of (step : Leaves file all m s) (some : ∀ note, first note → all note) : Leaves file first m s := by
  obtain ⟨a, t, ran, binds, noted⟩ := step
  exact ⟨a, t, ran, binds, fun note wanted => noted note (some note wanted)⟩

/-- A step that leaves no notes, and what follows it. -/
theorem Leaves.after (step : Passes file m s) (follows : ∀ a t, Leaves file rest (f a) t) :
    Leaves file rest (m >>= f) s := (step.bind follows).of fun _ => .inr

theorem Leaves.discarded (step : Passes file m s) : Passes file (discard m) s := by
  obtain ⟨a, t, ran, binds, -⟩ := step
  exact ⟨(), t, runDiscard ran, binds, fun _ => False.elim⟩

theorem Leaves.modified {g : State → State} (binds : s.Binds file (g s)) : Passes file (modify g) s :=
  ⟨(), g s, rfl, binds, fun _ => False.elim⟩

theorem Leaves.forM {ι : Type} {g : ι → Check PUnit} {N : ι → Note → Prop} (xs : List ι)
    (each : ∀ x s, Leaves file (N x) (g x) s) (s : State) :
    Leaves file (fun note => ∃ x ∈ xs, N x note) (xs.forM g) s := by
  induction xs generalizing s with
  | nil => exact (Leaves.pure _ s).of (by simp)
  | cons x xs ih => exact ((each x s).bind fun _ t => ih t).of (by simp)

theorem Leaves.forIn {ι : Type} {g : ι → β → Check (ForInStep β)} (xs : List ι) (each : ∀ x b s, Passes file (g x b) s)
    (b : β) (s : State) : Passes file (forIn xs b g) s := by
  induction xs generalizing b s with
  | nil => exact .pure b s
  | cons x xs ih =>
    rw [List.forIn_cons]
    refine .after (each x b s) fun step t => ?_
    cases step with
    | done c => exact .pure c t
    | yield c => exact ih c t

end Leaves

section Notes

variable (p : Place) (mark : Mark)

theorem noteFileLeaves (s : State) : Leaves p.file (· = .file mark.id) (noteFile p mark) s := by
  refine ⟨(), _, rfl, ⟨fun id => ?_, fun _ => id, fun _ => id, fun _ => ⟨List.prefix_refl _, fun _ => rfl⟩⟩, ?_⟩
  · rw [Std.HashMap.getElem?_insert]
    split
    · exact .inr rfl
    · exact .inl rfl
  · rintro note rfl
    exact Std.HashMap.getElem?_insert_self

theorem noteScopeLeaves (scope : ScopeId) (s : State) : Leaves p.file (· = .scope mark.id) (noteScope mark scope) s := by
  refine ⟨(), _, rfl, ⟨fun _ => .inl rfl, fun id known => ?_, fun _ => id, fun _ => ⟨List.prefix_refl _, fun _ => rfl⟩⟩, ?_⟩
  · exact Std.HashMap.mem_insert.mpr (.inr known)
  · rintro note rfl
    exact Std.HashMap.mem_insert_self

theorem noteContainerLeaves (s : State) : Leaves p.file (· = .container mark.id) (noteContainer p mark) s := by
  refine ⟨(), _, rfl, ⟨fun _ => .inl rfl, fun _ => id, fun id known => ?_, fun _ => ⟨List.prefix_refl _, fun _ => rfl⟩⟩, ?_⟩
  · exact Std.HashMap.mem_insert.mpr (.inr known)
  · rintro note rfl
    exact Std.HashMap.mem_insert_self

theorem newScopeEnds (file : String) (scope : Scope) (s : State) : Passes file (newScope scope) s :=
  ⟨_, _, rfl, .same rfl rfl rfl rfl, fun _ => False.elim⟩

theorem modifySymbolEnds (file : String) (x : SymbolId) (g : Symbol → Symbol) (s : State) :
    Passes file (modifySymbol x g) s := .modified (.same rfl rfl rfl rfl)

end Notes

/-! Declarations -/

section Declarations

variable {file : String} {s : State} {d : Declaration}

/-- A declaration is reported where it stands. -/
theorem declareEnds (noted : s.fileOf[d.mark.id]? = some file) (scope : ScopeId) (name : String)
    (flags excludes : SymbolFlags) : Passes file (declare scope name flags excludes d) s := by
  have orphan (t : State) : Passes file (do
      let orphan ← newSymbol (declaredOnce name d flags)
      noteSymbol d.mark orphan
      return orphan : Check SymbolId) t := ⟨_, _, rfl, .same rfl rfl rfl rfl, fun _ => False.elim⟩
  have merged (y : SymbolId) (t : State) : Passes file (do
      modifySymbol y (·.addDeclaration d flags)
      noteSymbol d.mark y
      return y : Check SymbolId) t := ⟨_, _, rfl, .same rfl rfl rfl rfl, fun _ => False.elim⟩
  have reported (m : Message) {n : Unit → Check SymbolId} (next : ∀ t, Passes file (n ()) t) :
      Passes file (error d.mark m >>= n) s := by
    obtain ⟨t, ran, binds⟩ := errorBinds noted m
    exact (Leaves.before ran binds (fun _ => False.elim) (next t)).of (by simp)
  unfold declare
  refine .reads (lookupRuns s scope name) ?_
  cases s.symbolIn scope name with
  | none => exact ⟨_, _, rfl, .same rfl rfl rfl rfl, fun _ => False.elim⟩
  | some y =>
    refine .reads (symbolRuns s y) ?_
    split
    · split
      · exact reported _ orphan
      · exact reported _ orphan
    · split
      · exact reported _ (merged y)
      · exact merged y s

/-- A node that is noted before it is declared. -/
theorem notedDeclareEnds (p : Place) (d : Declaration) {β : Type} (scope : ScopeId) (name : String)
    (flags excludes : SymbolFlags) {next : SymbolId → Check β} (ends : ∀ x t, Passes p.file (next x) t) (s : State) :
    Leaves p.file (· = .file d.mark.id) (do
      noteFile p d.mark
      let x ← declare scope name flags excludes d
      next x) s := by
  obtain ⟨⟨⟩, t, ran, binds, noted⟩ := noteFileLeaves p d.mark s
  have declared := declareEnds (noted _ rfl) scope name flags excludes
  exact (Leaves.before ran binds noted (declared.bind ends)).of (by simp)

theorem declareStatementEnds (p : Place) (scope : ScopeId) (st : Stmt) (s : State) :
    Passes p.file (declareStatement p scope st) s := by
  have changed (g : Symbol → Symbol) (x : SymbolId) (t : State) := modifySymbolEnds p.file x g t
  unfold declareStatement
  split
  next m kind declarations ambient =>
    split
    · exact .pure _ s
    · refine .after (Leaves.forIn declarations (fun d b t => ?_) PUnit.unit s) fun _ => .pure _
      refine (notedDeclareEnds p (.variable d) scope d.name _ _ (fun x t => ?_) t).of (by simp)
      exact .after (changed _ x t) fun _ => .pure _
  next mark name params result body isAsync ambient =>
    exact (notedDeclareEnds p (.function _) scope name _ _ (changed _) s).of (by simp)
  next mark name typeParams parents members =>
    exact (notedDeclareEnds p (.interface ..) scope name _ _ (fun x t => .pure _ t) s).of (by simp)
  next mark name typeParams type =>
    exact (notedDeclareEnds p (.typeAlias ..) scope name _ _ (fun x t => .pure _ t) s).of (by simp)
  next mark name members isConst ambient =>
    exact (notedDeclareEnds p (.enum ..) scope name _ _ (changed _) s).of (by simp)
  next => exact .pure _ s

mutual

theorem hoistVarEnds (p : Place) (scope : ScopeId) : (st : Stmt) → (s : State) → Passes p.file (hoistVar p scope st) s
  | .var _ kind declarations ambient, s => by
    unfold hoistVar
    split
    · refine .after (Leaves.forIn declarations (fun d b t => ?_) PUnit.unit s) fun _ => .pure _
      refine (notedDeclareEnds p (.variable d) scope d.name _ _ (fun x t => ?_) t).of (by simp)
      exact .after (modifySymbolEnds p.file x _ t) fun _ => .pure _
    · exact .pure _ s
  | .block (.mk _ ss), s => by
    unfold hoistVar
    exact hoistVarsEnds p scope ss s
  | .cond _ _ yes (some no), s => by
    unfold hoistVar
    exact .after (hoistVarEnds p scope yes s) fun _ => hoistVarEnds p scope no
  | .cond _ _ yes none, s => by
    unfold hoistVar
    exact .after (hoistVarEnds p scope yes s) fun _ => .pure _
  | .loop _ _ body, s => by
    unfold hoistVar
    exact hoistVarEnds p scope body s
  | .expr .., s | .ret .., s | .function .., s | .typeAlias .., s | .interface .., s | .enum .., s | .brk .., s
  | .cont .., s | .empty .., s | .classDecl .., s | .importDecl .., s => by
    unfold hoistVar
    exact .pure _ s

theorem hoistVarsEnds (p : Place) (scope : ScopeId) : (ss : List Stmt) → (s : State) →
    Passes p.file (hoistVars p scope ss) s
  | [], s => by
    unfold hoistVars
    exact .pure _ s
  | st :: ss, s => by
    unfold hoistVars
    exact .after (hoistVarEnds p scope st s) fun _ => hoistVarsEnds p scope ss

end

theorem declareAllEnds (p : Place) (scope : ScopeId) (ss : List Stmt) (s : State) :
    Passes p.file (ss.forM (declareStatement p scope)) s :=
  (Leaves.forM ss (declareStatementEnds p scope) s).of (by simp)

end Declarations

/-! Types -/

/-- What has to be noted about nodes and all below them. -/
def NotesBelow (roots : List Node) (note : Note) : Prop := ∃ root ∈ roots, NotesWithin root note

theorem belowMap {ι : Type} (node : ι → Node) (xs : List ι) (note : Note) :
    NotesBelow (xs.map node) note ↔ ∃ x ∈ xs, NotesWithin (node x) note := by
  constructor
  · rintro ⟨root, member, within⟩
    obtain ⟨x, there, rfl⟩ := List.mem_map.mp member
    exact ⟨x, there, within⟩
  · rintro ⟨x, there, within⟩
    exact ⟨node x, List.mem_map_of_mem there, within⟩

/-- A node that has to be noted with its file only, and what is below it. -/
theorem notedLeaves (p : Place) {root : Node} {β : Type} {f : Unit → Check β} (own : notesOf root = [.file root.mark.id])
    (below : ∀ t, Leaves p.file (NotesBelow root.children) (f ()) t) (s : State) :
    Leaves p.file (NotesWithin root) (noteFile p root.mark >>= f) s := by
  refine ((noteFileLeaves p root.mark s).bind fun _ => below).of fun note within => ?_
  rw [notesWithinIff, own, List.mem_singleton] at within
  exact within

theorem leafLeaves (p : Place) {root : Node} (own : notesOf root = [.file root.mark.id]) (leaf : root.children = [])
    (s : State) : Leaves p.file (NotesWithin root) (noteFile p root.mark) s := by
  refine (noteFileLeaves p root.mark s).of fun note within => ?_
  rw [notesWithinIff, own, leaf] at within
  simpa using within

section Below

variable {file : String} {α β : Type} {m : Check α} {f : α → Check β} {s : State} {root : Node} {roots others : List Node}

theorem nothingBelow (ends : Passes file m s) : Leaves file (NotesBelow []) m s := ends.of (by simp [NotesBelow])

theorem belowOne (leaves : Leaves file (NotesWithin root) m s) : Leaves file (NotesBelow [root]) m s :=
  leaves.of (by simp [NotesBelow])

theorem belowCons (first : Leaves file (NotesWithin root) m s) (rest : ∀ a t, Leaves file (NotesBelow roots) (f a) t) :
    Leaves file (NotesBelow (root :: roots)) (m >>= f) s :=
  (first.bind rest).of (by simp [NotesBelow])

theorem belowAppend (first : Leaves file (NotesBelow roots) m s)
    (rest : ∀ a t, Leaves file (NotesBelow others) (f a) t) :
    Leaves file (NotesBelow (roots ++ others)) (m >>= f) s := by
  refine (first.bind rest).of fun note ⟨root, member, within⟩ => ?_
  exact (List.mem_append.mp member).imp (fun here => ⟨root, here, within⟩) fun there => ⟨root, there, within⟩

/-- The first of several nodes, and what is below it. Something else may have to be noted about it. -/
theorem notedFirst (p : Place) {f : Unit → Check β} {other : List Note} (own : notesOf root = .file root.mark.id :: other)
    (below : ∀ t, Leaves p.file (fun note => note ∈ other ∨ NotesBelow (root.children ++ roots) note) (f ()) t)
    (s : State) : Leaves p.file (NotesBelow (root :: roots)) (noteFile p root.mark >>= f) s := by
  refine ((noteFileLeaves p root.mark s).bind fun _ => below).of fun note ⟨n, member, within⟩ => ?_
  rcases List.mem_cons.mp member with rfl | later
  · rw [notesWithinIff, own, List.mem_cons, or_assoc] at within
    exact within.imp_right (Or.imp_right fun ⟨c, child, inside⟩ => ⟨c, List.mem_append_left _ child, inside⟩)
  · exact .inr (.inr ⟨n, List.mem_append_right _ later, within⟩)

theorem notedCons (p : Place) {f : Unit → Check β} (own : notesOf root = [.file root.mark.id])
    (below : ∀ t, Leaves p.file (NotesBelow (root.children ++ roots)) (f ()) t) (s : State) :
    Leaves p.file (NotesBelow (root :: roots)) (noteFile p root.mark >>= f) s :=
  notedFirst p own (fun t => (below t).of (by simp)) s

end Below

mutual

theorem bindTypeLeaves (p : Place) : (node : TypeNode) → (s : State) →
    Leaves p.file (NotesWithin (.type node)) (bindType p node) s
  | .ref _ _ nodes, s | .union _ nodes, s | .intersection _ nodes, s => by
    unfold bindType
    refine notedLeaves p rfl (fun t => ?_) s
    exact bindTypesLeaves p nodes t
  | .array _ element, s => by
    unfold bindType
    refine notedLeaves p rfl (fun t => ?_) s
    exact belowOne (bindTypeLeaves p element t)
  | .literal m value, s => by
    unfold bindType
    exact leafLeaves p rfl rfl s
  | .function _ params result, s => by
    unfold bindType
    refine notedLeaves p rfl (fun t => ?_) s
    exact belowAppend (bindTypeParamsLeaves p params t) fun _ t => belowOne (bindTypeLeaves p result t)
  | .members _ members, s => by
    unfold bindType
    refine notedLeaves p rfl (fun t => ?_) s
    exact bindMembersLeaves p members t

theorem bindTypesLeaves (p : Place) : (nodes : List TypeNode) → (s : State) →
    Leaves p.file (NotesBelow (nodes.map .type)) (bindTypes p nodes) s
  | [], s => by
    unfold bindTypes
    exact nothingBelow (.pure _ s)
  | node :: nodes, s => by
    unfold bindTypes
    exact belowCons (bindTypeLeaves p node s) fun _ => bindTypesLeaves p nodes

theorem bindTypeParamsLeaves (p : Place) : (params : List Param) → (s : State) →
    Leaves p.file (NotesBelow (params.map .param)) (bindTypeParams p params) s
  | [], s => by
    unfold bindTypeParams
    exact nothingBelow (.pure _ s)
  | .mk _ _ (some type) _ _ :: params, s => by
    unfold bindTypeParams
    refine notedCons p rfl (fun t => ?_) s
    exact belowCons (bindTypeLeaves p type t) fun _ => bindTypeParamsLeaves p params
  | .mk _ _ none _ _ :: params, s => by
    unfold bindTypeParams
    refine notedCons p rfl (fun t => ?_) s
    exact bindTypeParamsLeaves p params t

theorem bindMembersLeaves (p : Place) : (members : List TypeMember) → (s : State) →
    Leaves p.file (NotesBelow (members.map .typeMember)) (bindMembers p members) s
  | [], s => by
    unfold bindMembers
    exact nothingBelow (.pure _ s)
  | .property _ _ type _ :: members, s => by
    unfold bindMembers
    refine notedCons p rfl (fun t => ?_) s
    exact belowCons (bindTypeLeaves p type t) fun _ => bindMembersLeaves p members
  | .method _ _ params (some type) _ :: members, s | .call _ params (some type) :: members, s => by
    unfold bindMembers
    refine notedCons p rfl (fun t => ?_) s
    simp only [Node.children, List.append_assoc]
    exact belowAppend (bindTypeParamsLeaves p params t) fun _ t =>
      belowCons (bindTypeLeaves p type t) fun _ => bindMembersLeaves p members
  | .method _ _ params none _ :: members, s | .call _ params none :: members, s => by
    unfold bindMembers
    refine notedCons p rfl (fun t => ?_) s
    simp only [Node.children, List.append_assoc]
    exact belowAppend (bindTypeParamsLeaves p params t) fun _ => bindMembersLeaves p members

end

theorem bindGenericsLeaves (p : Place) (params : List TypeParam) (s : State) :
    Leaves p.file (NotesBelow (params.map .typeParam)) (bindGenerics p params) s := by
  refine (Leaves.forM (N := fun param => NotesWithin (.typeParam param)) params (fun param t => ?_) s).of ?_
  · refine notedLeaves p rfl (fun u => ?_) t
    change Leaves p.file (NotesBelow (param.constraint.toList.map .type)) _ u
    cases param.constraint with
    | some type => exact belowOne (bindTypeLeaves p type u)
    | none => exact nothingBelow (.pure _ u)
  · exact fun note => (belowMap Node.typeParam params note).mp

/-! Functions -/

theorem bindParamsLeaves (p : Place) (scope : ScopeId) (params : List Param) (s : State) :
    Leaves p.file (NotesBelow (params.map .param)) (bindParams p scope params) s := by
  refine (Leaves.forM (N := fun param => NotesWithin (.param param)) params (fun param t => ?_) s).of ?_
  · obtain ⟨⟨⟩, u, ran, binds, noted⟩ := noteFileLeaves p param.mark t
    have declared (flags : SymbolFlags) := declareEnds (d := .param param) (noted _ rfl) scope param.name flags SymbolFlags.value
    refine (Leaves.before ran binds noted (.after (.discarded (declared _)) fun _ v =>
      (?_ : Leaves p.file (NotesBelow (Node.children (.param param))) _ v))).of fun note within => ?_
    · obtain ⟨m, name, type, optional, rest⟩ := param
      cases type with
      | some type => exact belowOne (bindTypeLeaves p type v)
      | none => exact nothingBelow (.pure _ v)
    · rw [notesWithinIff] at within
      exact within.imp_left List.mem_singleton.mp
  · exact fun note => (belowMap Node.param params note).mp

/-- The place inside a function. -/
def Place.inside (p : Place) (f : FunctionNode) : Place := { file := p.file, container := some f }

theorem enterFunctionLeaves (p : Place) (scope : ScopeId) (f : FunctionNode) {β : Type}
    {next : Place × ScopeId → Check β} {roots : List Node}
    (rest : ∀ inner t, Leaves p.file (NotesBelow roots) (next (p.inside f, inner)) t) (s : State) :
    Leaves p.file (NotesBelow (f.params.map .param ++ f.result.toList.map .type ++ roots)) (enterFunction p scope f >>= next)
      s := by
  unfold enterFunction
  simp only [bind_assoc, List.append_assoc]
  refine .after (newScopeEnds p.file _ s) fun inner t => ?_
  refine belowAppend (bindParamsLeaves (p.inside f) inner f.params t) fun _ u => ?_
  cases f.result with
  | some type =>
    simp only [bind_assoc, pure_bind]
    exact belowCons (bindTypeLeaves (p.inside f) type u) fun _ => rest inner
  | none =>
    simp only [pure_bind]
    exact rest inner u

/-! Expressions and statements -/

theorem noteScopeEnds (p : Place) (mark : Mark) (scope : ScopeId) (s : State) :
    Passes p.file (noteScope mark scope) s := (noteScopeLeaves p mark scope s).of fun _ => False.elim

theorem noteContainerEnds (p : Place) (mark : Mark) (s : State) : Passes p.file (noteContainer p mark) s :=
  (noteContainerLeaves p mark s).of fun _ => False.elim

theorem containedThen (p : Place) (m : Mark) {β : Type} {f : Unit → Check β} {rest : Note → Prop}
    (below : ∀ t, Leaves p.file rest (f ()) t) (s : State) :
    Leaves p.file (fun note => note ∈ [Note.container m.id] ∨ rest note) (noteContainer p m >>= f) s :=
  ((noteContainerLeaves p m s).bind fun _ => below).of (by simp)

theorem oneBelow {file : String} {α : Type} {m : Check α} {root : Node} {s : State}
    (leaves : Leaves file (NotesBelow [root]) m s) : Leaves file (NotesWithin root) m s :=
  leaves.of fun _ within => ⟨root, List.mem_singleton_self root, within⟩

theorem enterNestedEnds (p : Place) (scope : ScopeId) (st : Stmt) (s : State) :
    Passes p.file (bindStmt.enterNested p scope st) s := by
  unfold bindStmt.enterNested
  split
  · exact .pure _ s
  · exact .after (newScopeEnds p.file _ s) fun inner t => .after (declareStatementEnds p inner st t) fun _ => .pure _

/-- A return is reported if no function is around it. -/
theorem retLeaves (p : Place) (m : Mark) {value : Option Source.Expr} (next : Unit → Check Unit) (s : State)
    (below : ∀ t, Leaves p.file (NotesBelow (value.toList.map .expression)) (next ()) t) :
    Leaves p.file (NotesWithin (.statement (.ret m value))) (do
      noteFile p m
      noteContainer p m
      if p.container.isNone then error m .returnOutsideFunction
      next ()) s := by
  obtain ⟨⟨⟩, t, ran, binds, noted⟩ := noteFileLeaves p m s
  obtain ⟨⟨⟩, u, inside, more, contained⟩ := noteContainerLeaves p m t
  have reported : Leaves p.file (NotesBelow (value.toList.map .expression)) (do
      if p.container.isNone then error m .returnOutsideFunction
      next ()) u := by
    split
    · obtain ⟨v, said, binds⟩ := errorBinds (more.noted (noted _ rfl)) .returnOutsideFunction
      exact .after ⟨(), v, said, binds, fun _ => False.elim⟩ fun _ => below
    · exact below u
  refine (Leaves.before ran binds noted (.before inside more contained reported)).of fun note within => ?_
  rw [notesWithinIff] at within
  simpa [notesOf, NotesBelow, Node.children, or_assoc] using within

theorem leafReports (p : Place) {root : Node} (own : notesOf root = [.file root.mark.id]) (leaf : root.children = [])
    (allowed : Bool) (m : Message) (s : State) : Leaves p.file (NotesWithin root) (do
      noteFile p root.mark
      unless allowed do error root.mark m) s := by
  obtain ⟨⟨⟩, t, ran, binds, noted⟩ := noteFileLeaves p root.mark s
  have reported : Passes p.file (do unless allowed do error root.mark m) t := by
    split
    · exact .pure _ t
    · obtain ⟨v, said, binds⟩ := errorBinds (noted _ rfl) m
      exact ⟨(), v, said, binds, fun _ => False.elim⟩
  refine (Leaves.before ran binds noted reported).of fun note within => ?_
  rw [notesWithinIff, own, leaf] at within
  simpa using within

mutual

theorem bindExprLeaves (p : Place) (scope : ScopeId) : (e : Source.Expr) → (s : State) →
    Leaves p.file (NotesWithin (.expression e)) (bindExpr p scope e) s
  | .number .., s | .string .., s | .boolean .., s => by
    unfold bindExpr
    exact leafLeaves p rfl rfl s
  | .ident m _, s => by
    unfold bindExpr
    refine (((noteFileLeaves p m s).bind fun _ t => (noteScopeLeaves p m scope t).bind fun _ => noteContainerLeaves p m)).of ?_
    intro note within
    rw [notesWithinIff] at within
    simpa [notesOf, Node.children] using within
  | .object _ properties, s => by
    unfold bindExpr
    refine notedLeaves p rfl (fun t => ?_) s
    exact bindPropertiesLeaves p scope properties t
  | .array _ elements, s => by
    unfold bindExpr
    refine notedLeaves p rfl (fun t => ?_) s
    exact bindExprsLeaves p scope elements t
  | .member _ target _, s | .unary _ _ target, s => by
    unfold bindExpr
    refine notedLeaves p rfl (fun t => ?_) s
    exact belowOne (bindExprLeaves p scope target t)
  | .element _ left right, s | .binary _ _ left right, s | .assign _ _ left right, s => by
    unfold bindExpr
    refine notedLeaves p rfl (fun t => ?_) s
    exact belowCons (bindExprLeaves p scope left t) fun _ t => belowOne (bindExprLeaves p scope right t)
  | .call _ callee args, s => by
    unfold bindExpr
    refine notedLeaves p rfl (fun t => ?_) s
    exact belowCons (bindExprLeaves p scope callee t) fun _ => bindExprsLeaves p scope args
  | .await m operand, s => by
    unfold bindExpr
    refine oneBelow (notedFirst p rfl (fun t => ?_) s)
    exact containedThen p m (fun t => belowOne (bindExprLeaves p scope operand t)) t
  | .conditional _ test yes no, s => by
    unfold bindExpr
    refine notedLeaves p rfl (fun t => ?_) s
    exact belowCons (bindExprLeaves p scope test t) fun _ t => belowCons (bindExprLeaves p scope yes t) fun _ t =>
      belowOne (bindExprLeaves p scope no t)
  | .cast _ e type, s => by
    unfold bindExpr
    refine notedLeaves p rfl (fun t => ?_) s
    exact belowCons (bindExprLeaves p scope e t) fun _ t => belowOne (bindTypeLeaves p type t)
  | .arrow m params (.block b) result isAsync, s => by
    unfold bindExpr
    refine notedLeaves p rfl (fun t => ?_) s
    refine .after (noteScopeEnds p m scope t) fun _ t => .after (noteContainerEnds p m t) fun _ t => ?_
    refine enterFunctionLeaves p scope (.ofArrow m params (.block b) result isAsync) (fun inner u => ?_) t
    exact belowOne (bindBodyLeaves (p.inside _) inner b u)
  | .arrow m params (.expr e) result isAsync, s => by
    unfold bindExpr
    refine notedLeaves p rfl (fun t => ?_) s
    refine .after (noteScopeEnds p m scope t) fun _ t => .after (noteContainerEnds p m t) fun _ t => ?_
    refine enterFunctionLeaves p scope (.ofArrow m params (.expr e) result isAsync) (fun inner u => ?_) t
    exact belowOne (bindExprLeaves (p.inside _) inner e u)

theorem bindExprsLeaves (p : Place) (scope : ScopeId) : (es : List Source.Expr) → (s : State) →
    Leaves p.file (NotesBelow (es.map .expression)) (bindExprs p scope es) s
  | [], s => by
    unfold bindExprs
    exact nothingBelow (.pure _ s)
  | e :: es, s => by
    unfold bindExprs
    exact belowCons (bindExprLeaves p scope e s) fun _ => bindExprsLeaves p scope es

theorem bindPropertiesLeaves (p : Place) (scope : ScopeId) : (properties : List Property) → (s : State) →
    Leaves p.file (NotesBelow (properties.map .property)) (bindProperties p scope properties) s
  | [], s => by
    unfold bindProperties
    exact nothingBelow (.pure _ s)
  | .mk _ _ value _ :: properties, s => by
    unfold bindProperties
    refine notedCons p rfl (fun t => ?_) s
    exact belowCons (bindExprLeaves p scope value t) fun _ => bindPropertiesLeaves p scope properties

/-- The body of a function is one of its nodes. -/
theorem bindBodyLeaves (p : Place) (scope : ScopeId) : (b : Block) → (s : State) →
    Leaves p.file (NotesWithin (.statement (.block b))) (bindBody p scope b) s
  | .mk m ss, s => by
    unfold bindBody
    refine notedLeaves p rfl (fun t => ?_) s
    exact .after (noteScopeEnds p m scope t) fun _ t => .after (hoistVarsEnds p scope ss t) fun _ t =>
      .after (declareAllEnds p scope ss t) fun _ => bindStmtsLeaves p scope ss

theorem bindStmtsLeaves (p : Place) (scope : ScopeId) : (ss : List Stmt) → (s : State) →
    Leaves p.file (NotesBelow (ss.map .statement)) (bindStmts p scope ss) s
  | [], s => by
    unfold bindStmts
    exact nothingBelow (.pure _ s)
  | st :: ss, s => by
    unfold bindStmts
    exact belowCons (bindStmtLeaves p scope st s) fun _ => bindStmtsLeaves p scope ss

theorem bindDeclaratorsLeaves (p : Place) (scope : ScopeId) : (ds : List VarDeclarator) → (s : State) →
    Leaves p.file (NotesBelow (ds.map .declarator)) (bindDeclarators p scope ds) s
  | [], s => by
    unfold bindDeclarators
    exact nothingBelow (.pure _ s)
  | .mk m name type (some e) :: ds, s => by
    unfold bindDeclarators
    refine notedFirst p rfl (fun t => ?_) s
    refine .after (noteScopeEnds p m scope t) fun _ t => containedThen p m (fun t => ?_) t
    have value (t : State) := belowCons (bindExprLeaves p scope e t) fun _ => bindDeclaratorsLeaves p scope ds
    cases type with
    | some type => exact belowCons (bindTypeLeaves p type t) fun _ => value
    | none => exact value t
  | .mk m name type none :: ds, s => by
    unfold bindDeclarators
    refine notedFirst p rfl (fun t => ?_) s
    refine .after (noteScopeEnds p m scope t) fun _ t => containedThen p m (fun t => ?_) t
    cases type with
    | some type => exact belowCons (bindTypeLeaves p type t) fun _ => bindDeclaratorsLeaves p scope ds
    | none => exact bindDeclaratorsLeaves p scope ds t

theorem bindEnumMembersLeaves (p : Place) (scope : ScopeId) : (members : List EnumMember) → (s : State) →
    Leaves p.file (NotesBelow (members.map .enumMember)) (bindEnumMembers p scope members) s
  | [], s => by
    unfold bindEnumMembers
    exact nothingBelow (.pure _ s)
  | .mk _ _ (some e) :: members, s => by
    unfold bindEnumMembers
    refine notedCons p rfl (fun t => ?_) s
    exact belowCons (bindExprLeaves p scope e t) fun _ => bindEnumMembersLeaves p scope members
  | .mk _ _ none :: members, s => by
    unfold bindEnumMembers
    refine notedCons p rfl (fun t => ?_) s
    exact bindEnumMembersLeaves p scope members t

theorem bindStmtLeaves (p : Place) (scope : ScopeId) : (st : Stmt) → (s : State) →
    Leaves p.file (NotesWithin (.statement st)) (bindStmt p scope st) s
  | .expr _ e, s => by
    unfold bindStmt
    refine notedLeaves p rfl (fun t => ?_) s
    exact belowOne (bindExprLeaves p scope e t)
  | .var _ _ declarations _, s => by
    unfold bindStmt
    refine notedLeaves p rfl (fun t => ?_) s
    exact bindDeclaratorsLeaves p scope declarations t
  | .ret m (some e), s => by
    unfold bindStmt
    refine retLeaves p m (fun _ => bindExpr p scope e) s fun t => ?_
    exact belowOne (bindExprLeaves p scope e t)
  | .ret m none, s => by
    unfold bindStmt
    refine retLeaves p m (fun _ => pure ()) s fun t => ?_
    exact nothingBelow (.pure _ t)
  | .brk m, s => by
    unfold bindStmt
    exact leafReports p rfl rfl p.inLoop .breakOutsideLoop s
  | .cont m, s => by
    unfold bindStmt
    exact leafReports p rfl rfl p.inLoop .continueOutsideLoop s
  | .block (.mk m ss), s => by
    unfold bindStmt
    refine notedLeaves p rfl (fun t => ?_) s
    exact .after (newScopeEnds p.file _ t) fun inner t => .after (noteScopeEnds p m inner t) fun _ t =>
      .after (declareAllEnds p inner ss t) fun _ => bindStmtsLeaves p inner ss
  | .cond _ test yes (some no), s => by
    unfold bindStmt
    refine notedLeaves p rfl (fun t => ?_) s
    exact belowCons (bindExprLeaves p scope test t) fun _ t => .after (enterNestedEnds p scope yes t) fun inner t =>
      belowCons (bindStmtLeaves p inner yes t) fun _ t => .after (enterNestedEnds p scope no t) fun inner t =>
      belowOne (bindStmtLeaves p inner no t)
  | .cond _ test yes none, s => by
    unfold bindStmt
    refine notedLeaves p rfl (fun t => ?_) s
    exact belowCons (bindExprLeaves p scope test t) fun _ t => .after (enterNestedEnds p scope yes t) fun inner t =>
      belowCons (bindStmtLeaves p inner yes t) fun _ t => nothingBelow (.pure _ t)
  | .loop _ test body, s => by
    unfold bindStmt
    refine notedLeaves p rfl (fun t => ?_) s
    exact belowCons (bindExprLeaves p scope test t) fun _ t =>
      .after (enterNestedEnds { p with inLoop := true } scope body t) fun inner t =>
      belowOne (bindStmtLeaves { p with inLoop := true } inner body t)
  | .function m _ params result (some b) isAsync ambient, s => by
    unfold bindStmt
    refine notedLeaves p rfl (fun t => ?_) s
    refine .after (noteScopeEnds p m scope t) fun _ t => .after (noteContainerEnds p m t) fun _ t => ?_
    refine enterFunctionLeaves p scope (.ofDeclaration m params result (some b) isAsync ambient) (fun inner u => ?_) t
    exact belowOne (bindBodyLeaves (p.inside _) inner b u)
  | .function m _ params result none isAsync ambient, s => by
    unfold bindStmt
    refine notedLeaves p rfl (fun t => ?_) s
    refine .after (noteScopeEnds p m scope t) fun _ t => .after (noteContainerEnds p m t) fun _ t => ?_
    refine enterFunctionLeaves p scope (.ofDeclaration m params result none isAsync ambient) (fun inner u => ?_) t
    exact nothingBelow (.pure _ u)
  | .typeAlias _ _ typeParams type, s => by
    unfold bindStmt
    refine notedLeaves p rfl (fun t => ?_) s
    exact belowAppend (bindGenericsLeaves p typeParams t) fun _ t => belowOne (bindTypeLeaves p type t)
  | .interface _ _ typeParams parents members, s => by
    unfold bindStmt
    refine notedLeaves p rfl (fun t => ?_) s
    simp only [Node.children, List.append_assoc]
    exact belowAppend (bindGenericsLeaves p typeParams t) fun _ t => belowAppend (bindTypesLeaves p parents t) fun _ =>
      bindMembersLeaves p members
  | .enum _ _ members _ _, s => by
    unfold bindStmt
    refine notedLeaves p rfl (fun t => ?_) s
    exact bindEnumMembersLeaves p scope members t
  | .empty _, s | .classDecl .., s | .importDecl .., s => by
    unfold bindStmt
    exact leafLeaves p rfl rfl s

end

/-- Binding a file comes to an end, and something is noted about every node of the file. -/
theorem bindFileLeaves (f : SourceFile) (s : State) :
    Leaves f.name (NotesBelow (f.statements.map .statement)) (bindFile f) s := by
  unfold bindFile
  exact .after (hoistVarsEnds ⟨f.name, none, false⟩ globalScope f.statements s) fun _ t =>
    .after (declareAllEnds ⟨f.name, none, false⟩ globalScope f.statements t) fun _ =>
    bindStmtsLeaves ⟨f.name, none, false⟩ globalScope f.statements

theorem belowFile {f : SourceFile} {n : Node} (has : f.HasNode n) {note : Note} (due : note ∈ notesOf n) :
    NotesBelow (f.statements.map .statement) note := by
  obtain ⟨st, member, within⟩ := has
  exact (belowMap ..).mpr ⟨st, member, n, within, due⟩

end Fragment.Typing
