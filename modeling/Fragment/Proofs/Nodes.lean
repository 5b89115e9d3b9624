import Fragment.Typing.State
import Fragment.Source.Program

/-! The nodes of a file, and what the binder has to note about each of them. -/
namespace Fragment.Source

/-- A node of a file. -/
inductive Node where
  | statement (s : Stmt)
  | declarator (d : VarDeclarator)
  | expression (e : Expr)
  | property (p : Property)
  | type (t : TypeNode)
  | param (p : Param)
  | typeParam (p : TypeParam)
  | typeMember (m : TypeMember)
  | enumMember (m : EnumMember)

namespace Node

def mark : Node → Mark
  | statement s => s.mark
  | declarator d => d.mark
  | expression e => e.mark
  | property p => p.mark
  | type t => t.mark
  | param p => p.mark
  | typeParam p => p.mark
  | typeMember m => m.mark
  | enumMember m => m.mark

def ofBody : Body → Node
  | .block b => statement (.block b)
  | .expr e => expression e

/-- The nodes of which a node is made. -/
def children : Node → List Node
  | statement (.expr _ e) => [expression e]
  | statement (.var _ _ declarations _) => declarations.map declarator
  | statement (.ret _ value) => value.toList.map expression
  | statement (.block (.mk _ ss)) => ss.map statement
  | statement (.cond _ test yes no) => expression test :: statement yes :: no.toList.map statement
  | statement (.loop _ test body) => [expression test, statement body]
  | statement (.function _ _ params result body _ _) =>
    params.map param ++ result.toList.map type ++ body.toList.map fun b => statement (.block b)
  | statement (.typeAlias _ _ typeParams t) => typeParams.map typeParam ++ [type t]
  | statement (.interface _ _ typeParams parents members) =>
    typeParams.map typeParam ++ parents.map type ++ members.map typeMember
  | statement (.enum _ _ members _ _) => members.map enumMember
  | statement (.brk _) | statement (.cont _) | statement (.empty _) | statement (.classDecl ..)
  | statement (.importDecl ..) => []
  | declarator (.mk _ _ t init) => t.toList.map type ++ init.toList.map expression
  | expression (.object _ properties) => properties.map property
  | expression (.array _ elements) => elements.map expression
  | expression (.member _ target _) => [expression target]
  | expression (.element _ target index) => [expression target, expression index]
  | expression (.call _ callee args) => expression callee :: args.map expression
  | expression (.unary _ _ operand) | expression (.await _ operand) => [expression operand]
  | expression (.binary _ _ left right) | expression (.assign _ _ left right) => [expression left, expression right]
  | expression (.conditional _ test yes no) => [expression test, expression yes, expression no]
  | expression (.cast _ e t) => [expression e, type t]
  | expression (.arrow _ params body result _) =>
    params.map param ++ result.toList.map type ++ [ofBody body]
  | expression (.number ..) | expression (.string ..) | expression (.boolean ..) | expression (.ident ..) => []
  | property (.mk _ _ value _) => [expression value]
  | type (.ref _ _ args) => args.map type
  | type (.array _ element) => [type element]
  | type (.union _ types) | type (.intersection _ types) => types.map type
  | type (.literal ..) => []
  | type (.function _ params result) => params.map param ++ [type result]
  | type (.members _ members) => members.map typeMember
  | param (.mk _ _ t _ _) => t.toList.map type
  | typeParam p => p.constraint.toList.map type
  | typeMember (.property _ _ t _) => [type t]
  | typeMember (.method _ _ params result _) | typeMember (.call _ params result) =>
    params.map param ++ result.toList.map type
  | enumMember (.mk _ _ init) => init.toList.map expression

/-- A node is reached from another through what nodes are made of. -/
inductive Within : Node → Node → Prop
  | self (n : Node) : Within n n
  | part {n c m : Node} (child : c ∈ m.children) (within : Within n c) : Within n m

theorem withinIff {n m : Node} : Within n m ↔ n = m ∨ ∃ c ∈ m.children, Within n c := by
  constructor
  · rintro (_ | ⟨child, within⟩)
    · exact .inl rfl
    · exact .inr ⟨_, child, within⟩
  · rintro (rfl | ⟨c, child, within⟩)
    · exact .self n
    · exact .part child within

theorem Within.trans {n m l : Node} (inner : Within n m) (outer : Within m l) : Within n l := by
  induction outer with
  | self => exact inner
  | part child _ ih => exact .part child ih

end Node

/-- A node of a file. -/
def SourceFile.HasNode (f : SourceFile) (n : Node) : Prop := ∃ s ∈ f.statements, n.Within (.statement s)

end Fragment.Source

namespace Fragment.Typing

open Fragment.Source (Node)

/-- What can be noted about a node: its file, the scope around it, and the function around it. -/
inductive Note where
  | file (id : NodeId)
  | scope (id : NodeId)
  | container (id : NodeId)

/-- What has to be noted about a node. -/
def notesOf : Node → List Note
  | .expression (.ident m _) => [.file m.id, .scope m.id, .container m.id]
  | .expression (.await m _) => [.file m.id, .container m.id]
  | .statement (.ret m _) => [.file m.id, .container m.id]
  | .declarator d => [.file d.mark.id, .container d.mark.id]
  | n => [.file n.mark.id]

/-- Something is noted; the file has to be the given one. -/
def State.Noted (s : State) (file : String) : Note → Prop
  | .file id => s.fileOf[id]? = some file
  | .scope id => id ∈ s.scopeOf
  | .container id => id ∈ s.containerOf

/-- What has to be noted about a node and all below it. -/
def NotesWithin (root : Node) (note : Note) : Prop := ∃ n : Node, n.Within root ∧ note ∈ notesOf n

theorem notesWithinIff {root : Node} {note : Note} :
    NotesWithin root note ↔ note ∈ notesOf root ∨ ∃ c ∈ root.children, NotesWithin c note := by
  unfold NotesWithin
  simp only [Node.withinIff (m := root), or_and_right, exists_or, exists_eq_left]
  refine or_congr_right ⟨?_, ?_⟩
  · rintro ⟨n, ⟨c, child, within⟩, noted⟩
    exact ⟨c, child, n, within, noted⟩
  · rintro ⟨c, child, n, within, noted⟩
    exact ⟨n, ⟨c, child, within⟩, noted⟩

end Fragment.Typing

/-! Trees in which accesses and names are told apart by their numbers.
What a checker notes under the number of an access is a property, which may be called anything. What it
notes under the number of a name, or of the declaration of one, is something that has been declared. -/
namespace Fragment.Source

/-- What accesses and names are told apart by: the numbers that accesses have, and the nodes that names may be. -/
structure Tags where
  access : Nat → Prop
  name : Mark → Prop

/-- A name may have any number that no access has. -/
def Tags.apart (A : Nat → Prop) : Tags := ⟨A, fun m => ¬A m.id⟩

instance : Coe (Nat → Prop) Tags := ⟨Tags.apart⟩

section Labelled

/- The names that may be declared, and what accesses and names are told apart by. -/
variable (Q : String → Prop) (A : Tags)

mutual

/-- Declared names satisfy `Q`; accesses and names are tagged as such. -/
def Expr.Labelled : Expr → Prop
  | .number .. | .string .. | .boolean .. => True
  | .ident m _ => A.name m
  | .object _ properties => LabelledProperties properties
  | .array _ elements => LabelledExprs elements
  | .member m target _ => A.access m.id ∧ target.Labelled
  | .element m target index => A.access m.id ∧ target.Labelled ∧ index.Labelled
  | .call _ callee args => callee.Labelled ∧ LabelledExprs args
  | .unary _ _ operand => operand.Labelled
  | .await _ operand => operand.Labelled
  | .binary _ _ left right => left.Labelled ∧ right.Labelled
  | .conditional _ test yes no => test.Labelled ∧ yes.Labelled ∧ no.Labelled
  | .assign _ _ target value => target.Labelled ∧ value.Labelled
  | .cast _ e _ => e.Labelled
  | .arrow _ params body _ _ => (∀ p ∈ params, Q p.name) ∧ body.Labelled

def LabelledExprs : List Expr → Prop
  | [] => True
  | e :: es => e.Labelled ∧ LabelledExprs es

def LabelledProperties : List Property → Prop
  | [] => True
  | .mk _ _ value _ :: ps => value.Labelled ∧ LabelledProperties ps

def Body.Labelled : Body → Prop
  | .block b => b.Labelled
  | .expr e => e.Labelled

def Block.Labelled : Block → Prop
  | .mk _ ss => LabelledStmts ss

def Stmt.Labelled : Stmt → Prop
  | .expr _ e => e.Labelled
  | .var _ _ declarations _ => LabelledDeclarators declarations
  | .ret _ value => match value with
    | some e => e.Labelled
    | none => True
  | .block b => b.Labelled
  | .cond _ test yes no => test.Labelled ∧ yes.Labelled ∧ (match no with
    | some s => s.Labelled
    | none => True)
  | .loop _ test body => test.Labelled ∧ body.Labelled
  | .function _ name params _ body _ _ => Q name ∧ (∀ p ∈ params, Q p.name) ∧ (match body with
    | some b => b.Labelled
    | none => True)
  | .typeAlias _ name _ _ => Q name
  | .interface _ name _ _ _ => Q name
  | .enum _ name members _ _ => Q name ∧ LabelledMembers members
  | .brk _ | .cont _ | .empty _ | .classDecl .. | .importDecl .. => True

def LabelledStmts : List Stmt → Prop
  | [] => True
  | s :: ss => s.Labelled ∧ LabelledStmts ss

def LabelledDeclarators : List VarDeclarator → Prop
  | [] => True
  | .mk _ name _ init :: ds => Q name ∧ (match init with
    | some e => e.Labelled
    | none => True) ∧ LabelledDeclarators ds

def LabelledMembers : List EnumMember → Prop
  | [] => True
  | .mk _ _ init :: ms => (match init with
    | some e => e.Labelled
    | none => True) ∧ LabelledMembers ms

end

end Labelled

variable {Q : String → Prop} {A : Tags}

theorem labelledExprsIff (es : List Expr) : LabelledExprs Q A es ↔ ∀ e ∈ es, e.Labelled Q A := by
  induction es with
  | nil => simp [LabelledExprs]
  | cons e es ih => simp [LabelledExprs, ih]

theorem labelledPropertiesIff (ps : List Property) : LabelledProperties Q A ps ↔ ∀ p ∈ ps, p.value.Labelled Q A := by
  induction ps with
  | nil => simp [LabelledProperties]
  | cons p ps ih =>
    obtain ⟨mark, name, value, shorthand⟩ := p
    simp [LabelledProperties, Property.value, ih]

theorem labelledStmtsIff (ss : List Stmt) : LabelledStmts Q A ss ↔ ∀ s ∈ ss, s.Labelled Q A := by
  induction ss with
  | nil => simp [LabelledStmts]
  | cons s ss ih => simp [LabelledStmts, ih]

/-- A variable whose name may be declared and whose first value is labelled. -/
def VarDeclarator.Labelled (Q : String → Prop) (A : Tags) (d : VarDeclarator) : Prop :=
  Q d.name ∧ ∀ e ∈ d.init, e.Labelled Q A

theorem labelledDeclaratorsIff (ds : List VarDeclarator) :
    LabelledDeclarators Q A ds ↔ ∀ d ∈ ds, d.Labelled Q A := by
  induction ds with
  | nil => simp [LabelledDeclarators]
  | cons d ds ih =>
    obtain ⟨mark, name, type, init⟩ := d
    cases init <;>
      simp [LabelledDeclarators, VarDeclarator.Labelled, VarDeclarator.name, VarDeclarator.init, ih, and_assoc]

theorem labelledMembersIff (ms : List EnumMember) :
    LabelledMembers Q A ms ↔ ∀ m ∈ ms, ∀ e ∈ m.init, e.Labelled Q A := by
  induction ms with
  | nil => simp [LabelledMembers]
  | cons m ms ih =>
    obtain ⟨mark, name, init⟩ := m
    cases init <;> simp [LabelledMembers, EnumMember.init, ih]

end Fragment.Source
