import Fragment.Proofs.Asking
import Fragment.Proofs.BlockStructure
import Fragment.Proofs.ItemSets
import Fragment.Proofs.LegalCode
import Fragment.Proofs.LoweringSteps
import Fragment.Proofs.OutsideNames

/-! The text of one expression in both shapes.
The function around a closure adds to each line of the script one step of indentation. It takes names of libraries only,
so nothing is named for it and the statements are made as if it were not there. -/
namespace Fragment

namespace Target

/-! Lines one step deeper -/

def Line.deeper (l : Line) : Line := { l with depth := l.depth + 1 }

theorem Line.deeperRender (l : Line) : l.deeper.render = "    " ++ l.render := by
  refine String.ext ?_
  have step : 4 * (l.depth + 1) = 4 + 4 * l.depth := by omega
  simp [Line.deeper, Line.render, step, List.replicate_add]

mutual

theorem Stmt.linesDeeper : (s : Stmt) → (d : Nat) → s.lines (d + 1) = (s.lines d).map Line.deeper
  | .assign .., _ | .expr _, _ | .ret _, _ | .brk, _ | .cont, _ | .pass, _ | .globals _, _ | .nonlocals _, _
  | .collect _, _ => by
    unfold Stmt.lines
    rfl
  | .cond _ yes no, d => by
    simp only [Stmt.lines, linesOfDeeper yes (d + 1), linesOfOptionDeeper no d, List.map_cons, List.map_append, Line.deeper]
  | .loop _ body, d | .define _ _ _ body, d => by
    simp only [Stmt.lines, linesOfDeeper body (d + 1), List.map_cons, Line.deeper]

/-- The same statements one step deeper. -/
theorem linesOfDeeper : (ss : List Stmt) → (d : Nat) → linesOf (d + 1) ss = (linesOf d ss).map Line.deeper
  | [], _ => rfl
  | s :: ss, d => by simp only [linesOf, s.linesDeeper d, linesOfDeeper ss d, List.map_append]

theorem linesOfOptionDeeper : (ss : Option (List Stmt)) → (d : Nat) →
    linesOfOption (d + 1) ss = (linesOfOption d ss).map Line.deeper
  | none, _ => rfl
  | some ss, d => by
    simp only [linesOfOption, linesOfDeeper ss (d + 1), List.map_cons, Line.deeper]

end

theorem linesOfAppend (d : Nat) (ss rest : List Stmt) : linesOf d (ss ++ rest) = linesOf d ss ++ linesOf d rest := by
  induction ss with
  | nil => rfl
  | cons s ss ih => simp only [List.cons_append, linesOf, ih, List.append_assoc]

/-! Texts of lines -/

/-- The lines of a text. -/
def textLines (t : String) : List String := (Text.lines t.toList).map String.ofList

/-- The text of some lines. -/
def unlines (ls : List String) : String := String.join (ls.map (· ++ "\n"))

/-- The lines of a script, behind its comment in a function that takes some names from the outermost level, and a call of
this function. -/
def wrapped (globals : List String) : List String → List String
  | [] => []
  | comment :: script =>
    let borrowed := if globals.isEmpty then [] else ["global " ++ String.intercalate ", " globals]
    [comment, "def __module__():"] ++ (borrowed ++ script ++ ["return __completion__"]).map ("    " ++ ·) ++
      ["__completion__ = __module__()"]

end Target

namespace Emit

open Source (Mark Expr Site Stmt SourceFile)
open Typing (SymbolId State Check)
open Lowering

/-! Steps that are the same in both shapes -/

/-- A step that is the same for both shapes of a module if the file declares nothing. -/
def ShapeFree {α : Type} (act : Lowering α) : Prop :=
  ∀ c kind p, c.moduleSymbols = [] → act { c with kind } p = act c p

theorem ShapeFree.bind {α β : Type} {m : Lowering α} {k : α → Lowering β} (first : ShapeFree m)
    (rest : ∀ a, ShapeFree (k a)) : ShapeFree (m >>= k) := by
  intro c kind p none
  rw [bindRun, bindRun, first c kind p none]
  cases m c p with
  | error f => rfl
  | ok r => exact rest r.1 c kind r.2 none

theorem askShapeFree {α : Type} (question : Check α) : ShapeFree (ask question) := by
  intro c kind p _
  simp only [ask, bindRun, getRun]
  cases question.run p.typing <;> rfl

instance shapeFreeLowers : Lowers fun act => ShapeFree act where
  pure _ _ _ _ _ := rfl
  throw _ _ _ _ _ := rfl
  bind := ShapeFree.bind
  get _ _ _ _ := rfl
  own _ _ _ _ _ _ := rfl
  within isAsync free c kind p none := free { c with isAsync } kind p none
  reads {_ k} each same c kind p none := by
    change k { c with kind } { c with kind } p = k c c p
    rw [same c kind none]
    exact each c c kind p none
  symbolAt _ := askShapeFree _
  symbol _ := askShapeFree _
  form _ := askShapeFree _
  parts _ _ := askShapeFree _
  flag _ _ := askShapeFree _
  promised _ := askShapeFree _

theorem siteShapeFree (site : Site) : SiteHas (fun act => ShapeFree act) site := by
  cases site with
  | expr e => exact askShapeFree _
  | enum m =>
    have each (x : SymbolId) : Has (fun act => ShapeFree act) (ask (Typing.answers.declaredType x)) := ⟨askShapeFree _⟩
    have whole : Has (fun act => ShapeFree act) (enumLine m) := by
      unfold enumLine
      refine .bind inferInstance fun found => ?_
      split <;> infer_instance
    exact whole.has
  | _ => trivial

theorem statementsShapeFree (ss : List Stmt) : ShapeFree (fileStatements ss) :=
  (fileStatementsHas fun site _ => siteShapeFree site).has

/-! The function around the statements -/

section Libraries

variable {c : Context}

theorem placedLibraries {foreign : List SymbolId} (known : ∀ x ∈ foreign, (c.libraryName? x).isSome) (p : Progress) :
    placedNames c foreign c p = .ok ((foreign.filterMap c.libraryName?).map fun a => (true, a), p) := by
  induction foreign with
  | nil => rfl
  | cons x rest ih =>
    obtain ⟨a, found⟩ := Option.isSome_iff_exists.mp (known x List.mem_cons_self)
    have outermost : c.isOutermost x = true := by simp [Context.isOutermost, found]
    have later := ih fun y member => known y (List.mem_cons_of_mem _ member)
    unfold placedNames at later ⊢
    rw [List.mapM_cons, bindRun, bindRun, libraryNameRun found]
    simp only [pureRun, bindRun, outermost, later, List.filterMap_cons, found, List.map_cons]

/-- Where only symbols of libraries are assigned, one line names them, and no symbol gets a name. -/
theorem bindingLibraries {assigned : List Mark} {own : List SymbolId} {p : Progress}
    (known : ∀ x ∈ foreignSymbols p.typing assigned own, (c.libraryName? x).isSome) :
    collected (bindingLines assigned own) c p =
      .ok (borrowLines ((foreignSymbols p.typing assigned own).filterMap c.libraryName?) [], p) := by
  have placed := placedLibraries known { p with made := #[] }
  generalize names : (foreignSymbols p.typing assigned own).filterMap c.libraryName? = globals at placed ⊢
  have outer : ((globals.map fun a => (true, a)).filter (·.1)).map (·.2) = globals := by
    simp [List.filter_map, Function.comp_def]
  have inner : ((globals.map fun a => (true, a)).filter (!·.1)).map (·.2) = ([] : List String) := by
    simp [List.filter_map, Function.comp_def]
  unfold placedNames foreignSymbols Context.isOutermost at placed
  simp only [collectedRun, bindingLines, bindRun, symbolsAtRun, readRun, placed, outer, inner]
  by_cases none : globals.isEmpty <;> simp [none, borrowLines, push, pureRun, bindRun, modifyRun]

end Libraries

/-- The names of the library variables that an expression assigns outside of its functions. -/
def assignedLibraries (s : State) (e : Expr) : List String :=
  (foreignSymbols s (assignedIn e) []).filterMap (expressionContext .closure s).libraryName?

theorem librarySymbolDefined {s : State} {a : String} {x : SymbolId} (member : (a, x) ∈ librarySymbols s) :
    x ≠ Typing.undefinedSymbol := by
  have conditions := (List.mem_filter.mp member).2
  simp only [Bool.and_eq_true, decide_eq_true_eq] at conditions
  exact conditions.1.1.1

theorem memAssignedLibraries {s : State} {e : Expr} {a : String} : a ∈ assignedLibraries s e ↔
    ∃ mark ∈ assignedIn e, ∃ x, symbolAt s mark = some x ∧ (expressionContext .closure s).libraryName? x = some a := by
  simp only [assignedLibraries, foreignSymbols, List.mem_filterMap, List.mem_filter, List.mem_eraseDups]
  constructor
  · rintro ⟨x, ⟨⟨mark, member, stands⟩, -⟩, named⟩
    exact ⟨mark, member, x, stands, named⟩
  · rintro ⟨mark, member, x, stands, named⟩
    refine ⟨x, ⟨⟨mark, member, stands⟩, ?_⟩, named⟩
    simpa using librarySymbolDefined (libraryNameEntry named)

theorem assignedLibrariesNodup (s : State) (e : Expr) : (assignedLibraries s e).Nodup := by
  refine List.Nodup.filterMap (fun x y a hx hy => ?_) ((Source.Automaton.eraseDupsNodup _).filter _)
  exact congrArg Prod.snd
    (List.inj_on_of_nodup_map (libraryNamesNodup s) (libraryNameEntry hx) (libraryNameEntry hy) rfl)

/-- Different names in order. -/
theorem sortedNamesIncrease {names : List String} (different : names.Nodup) : (sortedNames names).Pairwise (· < ·) := by
  have order : (sortedNames names).Pairwise fun a b => !(b < a) := by
    refine List.pairwise_mergeSort (fun a b c first rest => ?_) (fun a b => ?_) names
    · simp only [Bool.not_eq_true', decide_eq_false_iff_not, String.not_lt] at first rest ⊢
      exact String.le_trans first rest
    · simpa only [Bool.or_eq_true, Bool.not_eq_true', decide_eq_false_iff_not, String.not_lt] using String.le_total a b
  have apart : (sortedNames names).Pairwise (· ≠ ·) := (List.mergeSort_perm names _).nodup_iff.mpr different
  refine (order.and apart).imp fun {a b} ⟨before, other⟩ => ?_
  simp only [Bool.not_eq_true', decide_eq_false_iff_not, String.not_lt] at before
  exact Decidable.byContradiction fun no => other (String.le_antisymm before (String.not_lt.mp no))

/-- The closure of one expression has the statements of its script, if what the expression itself assigns belongs to
libraries. -/
theorem emitEnclosed {file : SourceFile} {m : Mark} {e : Expr} (single : file.statements = [.expr m e])
    {typing checked : State} (check : (Check.checkFile file).run typing = .ok ((), checked))
    (known : ∀ x ∈ foreignSymbols checked (assignedIn e) [], ((expressionContext .closure checked).libraryName? x).isSome) :
    emitFile file .closure typing =
      (fun r => (enclosed r.1.source (assignedLibraries checked e) r.1.body, r.2)) <$> emitFile file .script typing := by
  have assigned : assignedInStmts [.expr m e] = assignedIn e := by simp [assignedInStmts, assignedInStmt]
  have bound : collected (bindingLines (assignedIn e) []) (expressionContext .closure checked) (expressionStart checked) =
      .ok (borrowLines (assignedLibraries checked e) [], expressionStart checked) := bindingLibraries known
  have same : fileStatements [.expr m e] (expressionContext .closure checked) (expressionStart checked) =
      fileStatements [.expr m e] (expressionContext .script checked) (expressionStart checked) :=
    statementsShapeFree _ (expressionContext .script checked) .closure (expressionStart checked) rfl
  rw [emitFileRun single check, emitFileRun single check]
  simp only [lowerFile, single, declaredInAll, declaredIn, declaredSymbols, List.append_nil, List.filterMapM_nil, pure_bind,
    bindRun, assigned, bound, same]
  cases fileStatements [.expr m e] (expressionContext .script checked) (expressionStart checked) <;> rfl

theorem enclosedRender (script : Target.Module) (globals : List String) :
    (enclosed script.source globals script.body).render =
      Target.unlines (Target.wrapped (sortedNames globals) (script.lines.map Target.Line.render)) := by
  have borrowed : (Target.linesOf 1 (borrowLines globals [])).map Target.Line.render =
      (if (sortedNames globals).isEmpty then [] else ["global " ++ String.intercalate ", " (sortedNames globals)]).map
        ("    " ++ ·) := by
    simp only [sortedEmpty, borrowLines]
    split <;> rfl
  have inside : (Target.linesOf 1 script.body).map Target.Line.render =
      ((Target.linesOf 0 script.body).map Target.Line.render).map ("    " ++ ·) := by
    rw [Target.linesOfDeeper, List.map_map, List.map_map]
    exact List.map_congr_left fun l _ => l.deeperRender
  have lines : (enclosed script.source globals script.body).lines.map Target.Line.render =
      Target.wrapped (sortedNames globals) (script.lines.map Target.Line.render) := by
    unfold Target.wrapped
    simp only [Target.Module.lines, enclosed, Target.linesOf, Target.Stmt.lines, Nat.zero_add, Target.linesOfAppend,
      List.map_cons, List.map_append, borrowed, inside]
    rfl
  rw [Target.Module.render, Target.unlines, ← lines, List.map_map]
  rfl

end Emit

namespace Compilation

variable {c : Compilation} {s t : Typing.State}

/-- If nothing is said about a compilation, all its files have been checked. -/
theorem silentMarks (silent : c.diagnostics.run s = .ok ([], t)) : ∀ f ∈ c.sourceFiles, f.name ∈ t.checkedFiles := by
  unfold diagnostics at silent
  dsimp only at silent
  split at silent
  next wrong =>
    have said := congrArg Prod.fst (Except.ok.inj silent)
    simp only [List.append_eq_nil_iff] at said
    simp [said.2] at wrong
  next =>
    obtain ⟨missing, u, -, silent⟩ := Typing.runBind silent
    obtain ⟨said, v, asked, silent⟩ := Typing.runBind silent
    obtain rfl : v = t := congrArg Prod.snd (Except.ok.inj silent)
    obtain ⟨found, w, asked, rest⟩ := Typing.runBind asked
    cases rest
    exact Typing.filesMarked asked

end Compilation

namespace Emit

open Source (Expr SourceFile)
open Typing (Check)

section Accepted

variable {source : String} {options : Options} {declarations : Files} {e : Expr} {s : Request.Session} {file : SourceFile}

/-- When a fragment is accepted its file has been checked. -/
theorem acceptedChecked (accepted : (Request.openFragment source options declarations >>= Request.acceptedExpr) = .ok (e, s))
    (root : s.compilation.source? rootPath = some file) : (Check.checkFile file).run s.typing = .ok ((), s.typing) := by
  obtain ⟨_, _, _, loaded, -, silent, -⟩ := Request.acceptedRequest accepted
  obtain ⟨libraries, first, fragmented⟩ := Compilation.loadFragmented loaded root
  exact Typing.checkFileAgain (Compilation.silentMarks silent file (by simp [fragmented.files]))

/-- An accepted fragment assigns outside of its functions only what belongs to libraries. -/
theorem acceptedAssigns (accepted : (Request.openFragment source options declarations >>= Request.acceptedExpr) = .ok (e, s)) :
    ∀ x ∈ foreignSymbols s.typing (assignedIn e) [], ((expressionContext .closure s.typing).libraryName? x).isSome := by
  obtain ⟨file, m, typing, loaded, begun, silent, root, single⟩ := Request.acceptedRequest accepted
  obtain ⟨own, I, lasting, start, labelled, stands⟩ := Compilation.assignedStand loaded root single begun
  have later : I s.typing := (Compilation.diagnosticsKeeps labelled).keeps _ _ _ start silent
  intro x foreign
  simp only [foreignSymbols, List.mem_filter, List.mem_eraseDups, List.mem_filterMap] at foreign
  obtain ⟨⟨mark, member, found⟩, other⟩ := foreign
  rcases stands s.typing later mark member x found with rfl | ⟨a, library⟩
  · simp at other
  · simp only [Context.libraryName?, Option.isSome_map, List.find?_isSome]
    exact ⟨(a, x), library, by simp⟩

/-- The text of the code of an accepted fragment is made of its lines. -/
theorem acceptedLines (accepted : (Request.openFragment source options declarations >>= Request.acceptedExpr) = .ok (e, s))
    (root : s.compilation.source? rootPath = some file) {kind : ModuleKind} {code : Target.Module} {after : Typing.State}
    (made : emitFile file kind s.typing = .ok (code, after)) :
    Target.textLines code.render = code.lines.map Target.Line.render := by
  obtain ⟨_, _, _, loaded, begun, silent, -⟩ := Request.acceptedRequest accepted
  obtain ⟨lines, -⟩ := emittedBlocks loaded (.diagnosed (.start begun) silent) root made
  rw [Target.textLines, lines, List.map_map]
  exact List.map_congr_left fun l _ => String.ofList_toList

end Accepted

end Emit

end Fragment
