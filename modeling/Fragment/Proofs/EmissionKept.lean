import Fragment.Proofs.Growing
import Fragment.Proofs.LoweringSteps

/-! What making code keeps of what the checker knows.
Code is made by asking the checker: it changes what is known only through its questions, and these are about the
places of the file that have types. -/
namespace Fragment.Emit

open Source (Mark Expr Site Tags anyName)
open Typing (SymbolId TypeId TypeFlags State Keeps Lasting Check)
open Lowering

/-- A step of making code after which a condition on what the checker knows still holds. -/
def Minds (I : State → Prop) {α : Type} (m : Lowering α) : Prop :=
  ∀ c p a q, I p.typing → m c p = .ok (a, q) → I q.typing

section Steps

variable {I : State → Prop} {α β : Type}

theorem Minds.bind {m : Lowering α} {k : α → Lowering β} (first : Minds I m) (rest : ∀ a, Minds I (k a)) :
    Minds I (m >>= k) := by
  intro c p b r holds run
  obtain ⟨a, q, step, run⟩ := bindOk run
  exact rest a c q b r (first c p a q holds step) run

theorem askMinds {question : Check α} (keeps : Keeps I question) : Minds I (ask question) := by
  intro c p a q holds run
  simp only [ask, bindRun, getRun] at run
  cases asked : question.run p.typing with
  | error f =>
    rw [asked] at run
    cases run
  | ok result =>
    rw [asked] at run
    cases run
    exact keeps.keeps _ _ _ holds asked

/-- Making code asks nothing else that could change what is known than what is asked about places and promises. -/
instance mindsLowers [promised : ∀ t, Keeps I (Typing.answers.promised t)] : Lowers fun act => Minds I act where
  pure a c p b q holds run := by
    cases run
    exact holds
  throw f c p b q _ run := by cases run
  bind := Minds.bind
  get c p a q holds run := by
    cases run
    exact holds
  own names made c p a q holds run := by
    cases run
    exact holds
  within isAsync inner c p a q holds run := inner { c with isAsync } p a q holds run
  reads each _ c p a q holds run := each c c p a q holds run
  symbolAt mark := askMinds (by
    unfold Check.symbolAt?
    infer_instance)
  symbol x := askMinds (by
    unfold Check.symbol
    infer_instance)
  form t := askMinds (by
    unfold Check.form Check.typeInfo
    infer_instance)
  parts t mask := askMinds (by
    unfold Check.allParts
    infer_instance)
  flag t mask := askMinds (by
    unfold Check.hasFlag Check.flags Check.typeInfo
    infer_instance)
  promised t := askMinds (promised t)

theorem Has.minds {act : Lowering α} [step : Has (fun act => Minds I act) act] {c : Context} {p q : Progress} {a : α}
    (holds : I p.typing) (run : act c p = .ok (a, q)) : I q.typing := step.has c p a q holds run

end Steps

/-! Places of which types are asked for -/

/-- What is asked about a place when code is made of it keeps a condition. -/
def SiteKept (I : State → Prop) : Site → Prop
  | .expr e => Keeps I (Check.typeOfExpr e)
  | .enum m => ∀ s x t s', I s → s.symbolOf[m.id]? = some x → (Typing.answers.declaredType x).run s = .ok (t, s') → I s'
  | _ => True

def SitesKept (I : State → Prop) (sites : List Site) : Prop := ∀ site ∈ sites, SiteKept I site

section Trees

variable {I : State → Prop}

/-- The type of an enumeration is asked for at its declaration. -/
theorem enumLineMinds [∀ t, Keeps I (Typing.answers.promised t)] {mark : Mark} (kept : SiteKept I (.enum mark)) :
    Minds I (enumLine mark) := by
  intro c p a q holds run
  unfold enumLine at run
  obtain ⟨found, r, asked, run⟩ := bindOk run
  cases asked
  cases declared : p.typing.symbolOf[mark.id]? with
  | none =>
    rw [declared] at run
    cases run
    exact holds
  | some x =>
    rw [declared] at run
    obtain ⟨t, r, asked, run⟩ := bindOk run
    have after : I r.typing := by
      simp only [ask, bindRun, getRun] at asked
      cases known : (Typing.answers.declaredType x).run p.typing with
      | error f =>
        rw [known] at asked
        cases asked
      | ok result =>
        rw [known] at asked
        cases asked
        exact kept p.typing x _ _ holds declared known
    exact Has.minds after run

theorem siteMinds [∀ t, Keeps I (Typing.answers.promised t)] {site : Site} (kept : SiteKept I site) :
    SiteHas (fun act => Minds I act) site := by
  cases site with
  | expr e => exact askMinds kept
  | enum m => exact enumLineMinds kept
  | _ => trivial

/-- What checking a file keeps, and what is asked when its code is made, is kept when both is done. -/
theorem emitFileKept [∀ t, Keeps I (Typing.answers.promised t)] {file : Source.SourceFile} {kind : ModuleKind}
    {s t : State} {code : Target.Module} (check : Keeps I (Check.checkFile file)) (kept : SitesKept I file.sites)
    (holds : I s) (run : emitFile file kind s = .ok (code, t)) : I t := by
  unfold emitFile at run
  simp only [Failure.ofFault] at run
  cases checked : (Check.checkFile file).run s with
  | error f =>
    rw [checked] at run
    cases run
  | ok result =>
    obtain ⟨⟨⟩, u⟩ := result
    have after : I u := check.keeps s () u holds checked
    rw [checked] at run
    dsimp only [Except.mapError, bind, Except.bind] at run
    split at run
    · cases run
    next made lowered =>
      cases run
      exact (lowerFileHas kind fun site member => siteMinds (kept site member)).has _ _ _ _ after lowered

/-- What all questions keep is kept when code is made. -/
theorem emitFileKeeps [Lasting anyName Tags.any I] {file : Source.SourceFile} {kind : ModuleKind} {s t : State}
    {code : Target.Module} (holds : I s) (run : emitFile file kind s = .ok (code, t)) : I t := by
  refine emitFileKept (Typing.checkFileKeeps (Source.labelledAnyStmts file.statements)) (fun site _ => ?_) holds run
  cases site with
  | expr e => exact Typing.Level.typeOfExpr (q := Typing.answers) e e.labelledAny none
  | enum m =>
    have (x : SymbolId) : Keeps I (Typing.answers.declaredType x) := inferInstance
    exact fun s x t s' holds _ asked => (this x).keeps s t s' holds asked
  | _ => trivial

end Trees

end Fragment.Emit
