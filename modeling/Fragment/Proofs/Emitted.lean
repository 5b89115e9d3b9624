import Fragment.Proofs.Making
import Fragment.Proofs.ShapeReplies

/-! What the code of an expression keeps.
It uses the name of the function around a module for nothing, no function in it takes one of the names
that the code keeps for itself from the outermost level, and it reads its temporaries only once they
have values. -/
namespace Fragment.Emit

open Target (Layout Helper usesAll usesEntries usesIn usesInOption settlesAll settlesEntries)

open Lowering

/-- Names of functions that the code defines and of values that it keeps. -/
def definedIn (ss : List Target.Stmt) : List String := ss.filterMap Target.Stmt.defined?

theorem ownPlain {x : String} (own : startsWithUnderscores x = false) : Layout.Plain x := by
  rintro rfl
  exact absurd own (by decide)

theorem temporaryPlain (kind : Temporary) : Finds Layout.Plain (temporary kind) := by
  refine (temporaryFinds kind).weaken ?_
  rintro _ ⟨k, rfl⟩ same
  have third := congrArg (fun x : String => x.toList[2]?) same
  simp only [temporaryName, String.toList_append] at third
  cases kind <;> simp [Temporary.label, Target.moduleName] at third

/-- An expression that can be evaluated once the names `settled` have values. -/
structure Fit (kept settled : List String) (e : Target.Expr) : Prop where
  uses : e.Uses Layout.Plain
  settles : ∀ D, settled ⊆ D → (e.settles kept D).isSome

section Fit

variable {kept D : List String} {e a b : Target.Expr}

theorem Fit.more {E : List String} (h : Fit kept D e) (more : D ⊆ E) : Fit kept E e :=
  ⟨h.uses, fun F hF => h.settles F (List.Subset.trans more hF)⟩

theorem Fit.after (h : Fit kept D e) {B : List String} (sub : D ⊆ B) :
    ∃ C, e.settles kept B = some C ∧ D ⊆ C := by
  obtain ⟨C, settled⟩ := Option.isSome_iff_exists.mp (h.settles B sub)
  exact ⟨C, settled, fun x hx => Target.settlesMore e settled x (sub hx)⟩

theorem Fit.none : Fit kept D .none := ⟨trivial, fun _ _ => rfl⟩
theorem Fit.bool (b : Bool) : Fit kept D (.bool b) := ⟨trivial, fun _ _ => rfl⟩
theorem Fit.number (n : Number) : Fit kept D (.number n) := ⟨trivial, fun _ _ => rfl⟩
theorem Fit.text (t : String) : Fit kept D (.text t) := ⟨trivial, fun _ _ => rfl⟩

theorem allFit {items : List Target.Expr} (h : ∀ e ∈ items, Fit kept D e) :
    usesAll Layout.Plain items ∧ ∀ B, D ⊆ B → (settlesAll kept B items).isSome := by
  induction items with
  | nil => exact ⟨trivial, fun _ _ => rfl⟩
  | cons e rest ih =>
    obtain ⟨uses, settles⟩ := ih fun t ht => h t (by simp [ht])
    refine ⟨⟨(h e (by simp)).uses, uses⟩, fun B sub => ?_⟩
    obtain ⟨C, first, sub⟩ := (h e (by simp)).after sub
    simpa [settlesAll, first] using settles C sub

theorem entriesFit {entries : List (String × Target.Expr)} (h : ∀ p ∈ entries, Fit kept D p.2) :
    Fit kept D (.dict entries) := by
  suffices all : usesEntries Layout.Plain entries ∧ ∀ B, D ⊆ B → (settlesEntries kept B entries).isSome from
    ⟨all.1, all.2⟩
  induction entries with
  | nil => exact ⟨trivial, fun _ _ => rfl⟩
  | cons p rest ih =>
    obtain ⟨uses, settles⟩ := ih fun t ht => h t (by simp [ht])
    refine ⟨⟨(h p (by simp)).uses, uses⟩, fun B sub => ?_⟩
    obtain ⟨C, first, sub⟩ := (h p (by simp)).after sub
    simpa [settlesEntries, first] using settles C sub

theorem Fit.list {items : List Target.Expr} (h : ∀ e ∈ items, Fit kept D e) : Fit kept D (.list items) :=
  ⟨(allFit h).1, (allFit h).2⟩

theorem Fit.helper (h : Helper) {args : List Target.Expr} (fit : ∀ e ∈ args, Fit kept D e) :
    Fit kept D (.helper h args) := ⟨(allFit fit).1, (allFit fit).2⟩

theorem Fit.call {args : List Target.Expr} (callee : Fit kept D e) (fit : ∀ e ∈ args, Fit kept D e) :
    Fit kept D (.call e args) := by
  refine ⟨⟨callee.uses, (allFit fit).1⟩, fun B sub => ?_⟩
  obtain ⟨C, first, sub⟩ := callee.after sub
  simpa [Target.Expr.settles, first] using (allFit fit).2 C sub

theorem Fit.subscript (h : Fit kept D e) (key : String) : Fit kept D (.subscript e key) := ⟨h.uses, h.settles⟩
theorem Fit.await (h : Fit kept D e) : Fit kept D (.await e) := ⟨h.uses, h.settles⟩
theorem Fit.negate (h : Fit kept D e) : Fit kept D (.negate e) := ⟨h.uses, h.settles⟩
theorem Fit.not (h : Fit kept D e) : Fit kept D (.not e) := ⟨h.uses, h.settles⟩

theorem Fit.binary (op : Target.Operator) (left : Fit kept D a) (right : Fit kept D b) : Fit kept D (.binary op a b) := by
  refine ⟨⟨left.uses, right.uses⟩, fun B sub => ?_⟩
  obtain ⟨C, first, sub⟩ := left.after sub
  simpa [Target.Expr.settles, first] using right.settles C sub

theorem Fit.and (left : Fit kept D a) (right : Fit kept D b) : Fit kept D (.and a b) := by
  refine ⟨⟨left.uses, right.uses⟩, fun B sub => ?_⟩
  obtain ⟨C, first, sub⟩ := left.after sub
  simpa [Target.Expr.settles, first] using right.settles C sub

theorem Fit.or (left : Fit kept D a) (right : Fit kept D b) : Fit kept D (.or a b) := by
  refine ⟨⟨left.uses, right.uses⟩, fun B sub => ?_⟩
  obtain ⟨C, first, sub⟩ := left.after sub
  simpa [Target.Expr.settles, first] using right.settles C sub

theorem Fit.cond (test : Fit kept D e) (yes : Fit kept D a) (no : Fit kept D b) : Fit kept D (.cond e a b) := by
  refine ⟨⟨test.uses, yes.uses, no.uses⟩, fun B sub => ?_⟩
  obtain ⟨C, first, sub⟩ := test.after sub
  obtain ⟨_, second, _⟩ := yes.after sub
  simpa [Target.Expr.settles, first, second] using no.settles C sub

/-- A name that the code does not keep for itself may be read at any time. -/
theorem Fit.name (reserved : ∀ x ∈ kept, startsWithUnderscores x = true) {x : String}
    (plain : startsWithUnderscores x = false) : Fit kept D (.name x) := by
  have other : x ∉ kept := fun member => by simp [reserved x member] at plain
  exact ⟨ownPlain plain, fun B _ => by simp [Target.Expr.settles, other]⟩

/-- A name that has a value. -/
theorem Fit.settled {x : String} (plain : Layout.Plain x) (member : x ∈ D) : Fit kept D (.name x) :=
  ⟨plain, fun B sub => by simp [Target.Expr.settles, sub member]⟩

theorem Fit.bind {x : String} (plain : Layout.Plain x) (h : Fit kept D e) : Fit kept D (.bind x e) :=
  ⟨⟨plain, h.uses⟩, fun B sub => by simpa [Target.Expr.settles] using h.settles B sub⟩

/-- A value that is tested and kept for what follows. -/
theorem Fit.chosen {x : String} (tested : Fit kept D e) (plain : Layout.Plain x) (yes : Fit kept (x :: D) a)
    (no : Fit kept (x :: D) b) : Fit kept D (.cond (.truthyBind x e) a b) := by
  refine ⟨⟨⟨plain, tested.uses⟩, yes.uses, no.uses⟩, fun B sub => ?_⟩
  obtain ⟨C, first, sub⟩ := tested.after sub
  have sub : x :: D ⊆ x :: C := List.cons_subset_cons x sub
  obtain ⟨_, second, _⟩ := yes.after sub
  simpa [Target.Expr.settles, first, second] using no.settles (x :: C) sub

/-- A store whose object and key are kept for the new value. -/
theorem Fit.stored {object key : String} {o k result : Target.Expr} (plain : Layout.Plain object ∧ Layout.Plain key)
    (fits : Fit kept D o) (keyFits : Fit kept D k) (resultFits : Fit kept (key :: object :: D) result) :
    Fit kept D (storeExpr (.bind object o) (.bind key k) result) := by
  refine ⟨⟨⟨plain.1, fits.uses⟩, ⟨plain.2, keyFits.uses⟩, resultFits.uses, trivial⟩, fun B sub => ?_⟩
  obtain ⟨C, first, sub⟩ := fits.after sub
  obtain ⟨E, second, sub⟩ := (keyFits.more (List.subset_cons_self object D)).after (List.cons_subset_cons object sub)
  obtain ⟨F, third⟩ := Option.isSome_iff_exists.mp (resultFits.settles (key :: E) (List.cons_subset_cons key sub))
  simp [storeExpr, Target.Expr.settles, settlesAll, first, second, third]

end Fit

/-! The parts of expressions -/

section Expressions

variable {kept D : List String} {a b : Target.Expr}

theorem conditionFinds (e : Source.Expr) (fit : Fit kept D a) : Finds (Fit kept D) (condition e a) := by
  refine (askFinds _).bind fun t _ => (askFinds _).bind fun isBool _ => ?_
  split
  · exact Finds.pure fit
  · exact Finds.pure (Fit.helper _ (by simpa using fit))

theorem isArrayFinds (t : Typing.TypeId) : Finds (fun _ => True) (isArray t) := by
  refine (askFinds _).bind fun form _ => ?_
  split <;> exact Finds.pure trivial

theorem isPlainObjectFinds (t : Typing.TypeId) : Finds (fun _ => True) (isPlainObject t) :=
  getFinds.bind fun _ _ => Finds.pure trivial

theorem readsRequiredFinds (mark : Source.Mark) : Finds (fun _ => True) (readsRequired mark) := by
  refine (askFinds _).bind fun found _ => ?_
  split
  · exact (askFinds _).bind fun _ _ => Finds.pure trivial
  · exact Finds.pure trivial

theorem memberFinds (mark : Source.Mark) (source : Source.Expr) (name : String) (fit : Fit kept D a) :
    Finds (Fit kept D) (memberExpr mark source name a) := by
  simp only [memberExpr]
  refine (askFinds _).bind fun t _ => (askFinds _).bind fun isText _ => (isArrayFinds t).bind fun isArray _ => ?_
  split
  · exact Finds.pure (Fit.helper _ (by simpa using fit))
  · refine (readsRequiredFinds mark).bind fun required _ => (isPlainObjectFinds t).bind fun isPlain _ => ?_
    split
    · exact Finds.pure (fit.subscript name)
    · exact Finds.pure (Fit.helper _ (by simpa using ⟨fit, Fit.text name⟩))

theorem elementFinds (mark : Source.Mark) (source index : Source.Expr) (target : Fit kept D a) (key : Fit kept D b) :
    Finds (Fit kept D) (elementExpr mark source index a b) := by
  have indexed : Fit kept D (.helper .index [a, b]) := Fit.helper _ (by simpa using ⟨target, key⟩)
  unfold elementExpr
  dsimp only
  split
  case h_1 name =>
    refine (readsRequiredFinds mark).bind fun required _ => ?_
    split
    · refine (askFinds _).bind fun t _ => (isPlainObjectFinds t).bind fun isPlain _ => ?_
      split
      · exact Finds.pure (target.subscript name)
      · exact Finds.pure indexed
    · exact Finds.pure indexed
  case h_2 => exact Finds.pure indexed

theorem unaryFinds (op : Source.UnaryOp) (source : Source.Expr) (fit : Fit kept D a) :
    Finds (Fit kept D) (unaryExpr op source a) := by
  have converted (h : Helper) : Fit kept D (.helper h [a]) := Fit.helper h (by simpa using fit)
  simp only [unaryExpr]
  refine (askFinds _).bind fun t _ => ?_
  split
  · refine (askFinds _).bind fun isBool _ => ?_
    split
    · exact Finds.pure fit.not
    · exact Finds.pure (converted .truthy).not
  · exact Finds.pure (converted .typeOf)
  · refine (askFinds _).bind fun isNumber _ => ?_
    have number : Fit kept D (if isNumber = true then a else .helper .toNumber [a]) := by
      split
      · exact fit
      · exact converted .toNumber
    refine Finds.pure ?_
    split
    · exact number.negate
    · exact number

/-- A logical operator keeps its left operand before it reads it again. -/
theorem logicalFinds (isAnd : Bool) (t : Typing.TypeId) (left : Fit kept D a) (right : Fit kept D b) :
    Finds (Fit kept D) (logicalExpr isAnd t a b) := by
  simp only [logicalExpr]
  refine (askFinds _).bind fun isBool _ => ?_
  split
  · refine Finds.pure ?_
    split
    · exact left.and right
    · exact left.or right
  · refine (temporaryPlain .value).bind fun temp plain => Finds.pure ?_
    have again : Fit kept (temp :: D) (.name temp) := Fit.settled plain List.mem_cons_self
    have later := right.more (List.subset_cons_self temp D)
    split
    · exact left.chosen plain later again
    · exact left.chosen plain again later

theorem bothAreFinds (s t : Typing.TypeId) (mask : Typing.TypeFlags) : Finds (fun _ => True) (bothAre s t mask) :=
  (askFinds _).bind fun _ _ => (askFinds _).bind fun _ _ => Finds.pure trivial

theorem operatorFinds (op : Source.BinaryOp) (s t : Typing.TypeId) (left : Fit kept D a) (right : Fit kept D b) :
    Finds (Fit kept D) (operator op a s b t) := by
  have helped (h : Helper) : Fit kept D (.helper h [a, b]) := Fit.helper h (by simpa using ⟨left, right⟩)
  have number {e : Target.Expr} (fit : Fit kept D e) : Fit kept D (.helper .toNumber [e]) :=
    Fit.helper _ (by simpa using fit)
  have summed : Finds (Fit kept D) (sum a b s t) := by
    refine (bothAreFinds s t _).bind fun numbers _ => ?_
    split
    · exact Finds.pure (left.binary _ right)
    · refine (askFinds _).bind fun leftText _ => (askFinds _).bind fun rightText _ => ?_
      split <;> exact Finds.pure (helped _)
  have onNumbers (op : Target.Operator) : Finds (Fit kept D) (onNumbers op a b s t) := by
    refine (bothAreFinds s t _).bind fun numbers _ => ?_
    split
    · exact Finds.pure (left.binary _ right)
    · exact Finds.pure ((number left).binary _ (number right))
  have strict (negated : Bool) : Finds (Fit kept D) (strictEquality negated a b s t) := by
    refine (bothAreFinds s t _).bind fun numbers _ => (bothAreFinds s t _).bind fun texts _ =>
      (bothAreFinds s t _).bind fun bools _ => ?_
    simp only
    split
    · exact Finds.pure (left.binary _ right)
    · refine Finds.pure ?_
      split
      · exact (helped _).not
      · exact helped _
  cases op with
  | add => exact summed
  | sub | mul => exact onNumbers _
  | div | rem | pow | looseEqual => exact Finds.pure (helped _)
  | less | greater | lessEqual | greaterEqual => exact Finds.pure (left.binary _ right)
  | strictEqual | strictNotEqual => exact strict _
  | looseNotEqual => exact Finds.pure (helped _).not
  | and | or => exact refuseMakes _

theorem combinedFinds (op : Source.AssignOp) (target value : Source.Expr) (current : op.isSome → Fit kept D a)
    (assigned : Fit kept D b) : Finds (Fit kept D) (combined op a target value b) := by
  cases op with
  | none => exact Finds.pure assigned
  | some op => exact (askFinds _).bind fun s _ => (askFinds _).bind fun t _ => operatorFinds op s t (current rfl) assigned

theorem returnFinds (source : Source.Expr) (fit : Fit kept D a) : Finds (Fit kept D) (returnExpr source a) := by
  refine Makes.known (fun _ _ _ => rfl) fun c _ => ?_
  split
  · exact Finds.pure fit
  · refine (askFinds _).bind fun t _ => (askFinds _).bind fun isAny _ => ?_
    split
    · exact Finds.pure fit.await
    · refine (askFinds _).bind fun promised _ => ?_
      split
      · exact Finds.pure fit.await
      · exact Finds.pure fit

theorem numberFinds (n : Number) : Finds (Fit kept D) (numberExpr n) := by
  unfold numberExpr
  split
  · exact Finds.pure (Fit.number n)
  · exact Makes.throw _

/-- A name in code stands for a symbol, or for undefined. -/
theorem nameExprFinds (mark : Source.Mark) (name : String) :
    Finds (fun e => e = .none ∨ ∃ x, startsWithUnderscores x = false ∧ e = .name x) (nameExpr mark name) := by
  refine (askFinds _).bind fun found _ => ?_
  split
  · exact refuseMakes _
  · split
    · exact Finds.pure (.inl rfl)
    · exact (nameOfFinds _).bind fun x own => Finds.pure (.inr ⟨x, own, rfl⟩)

theorem targetNameFinds (mark : Source.Mark) (name : String) :
    Finds (fun x => startsWithUnderscores x = false) (targetName mark name) := by
  refine (nameExprFinds mark name).bind ?_
  rintro e (rfl | ⟨x, own, rfl⟩)
  · exact Finds.pure (by decide)
  · exact Finds.pure own

theorem newStoreFinds :
    Finds (fun s : Store => Layout.Plain s.object ∧ Layout.Plain s.key) newStore :=
  (temporaryPlain .value).bind fun _ object => (temporaryPlain .value).bind fun _ key => Finds.pure ⟨object, key⟩

end Expressions

/-! The parts of statements -/

/-- The statements that a step adds use names as code has to. -/
def Keeps {α : Type} (kept : List String) (act : Lowering α) : Prop :=
  Makes (fun _ xs => usesIn Layout.Plain (· ∉ kept) xs) act

theorem usesAppend {P G : String → Prop} {xs ys : List Target.Stmt} (first : usesIn P G xs) (rest : usesIn P G ys) :
    usesIn P G (xs ++ ys) := by
  induction xs with
  | nil => exact rest
  | cons s xs ih => exact ⟨first.1, ih first.2⟩

section Statements

variable {α β : Type} {kept : List String} {Q : α → Prop}

theorem Keeps.bind {m : Lowering α} {k : α → Lowering β} (first : Keeps kept m) (rest : ∀ a, Keeps kept (k a)) :
    Keeps kept (m >>= k) :=
  Makes.bind first fun a _ made => Makes.weaken (rest a) fun _ _ later => usesAppend made later

theorem Keeps.pure (a : α) : Keeps kept (pure a) := Makes.pure trivial

theorem Finds.keeps {m : Lowering α} (h : Finds Q m) : Keeps kept m := by
  refine Makes.weaken h ?_
  rintro a _ ⟨rfl, _⟩
  trivial

theorem pushKeeps {s : Target.Stmt} (h : s.Uses Layout.Plain (· ∉ kept)) : Keeps kept (push s) := by
  refine (pushMakes s).weaken ?_
  rintro _ _ rfl
  exact ⟨h, trivial⟩

theorem declaredSymbolFinds (mark : Source.Mark) : Finds (fun _ => True) (declaredSymbol? mark) :=
  getFinds.bind fun _ _ => Finds.pure trivial

theorem variableNameFinds (mark : Source.Mark) (name : String) : Finds (fun _ => True) (variableName mark name) := by
  refine (declaredSymbolFinds mark).bind fun found _ => ?_
  split
  · exact Finds.pure trivial
  · exact refuseMakes _

theorem parametersFinds (params : List Source.Param) :
    Finds (fun r => ∀ p ∈ r.1, startsWithUnderscores p.name = false) (parameters params) := by
  unfold parameters
  refine Finds.bind (mapFinds (Q := fun r => startsWithUnderscores r.1.name = false) (fun p => ?_) params) ?_
  · refine (declaredSymbolFinds p.mark).bind fun found _ => ?_
    split
    · exact refuseMakes _
    · exact (nameOfFinds _).bind fun _ own => Finds.pure own
  · refine fun made own => Finds.pure ?_
    intro p hp
    obtain ⟨r, hr, rfl⟩ := List.mem_map.mp hp
    exact own r hr

theorem bindingLinesMakes (assigned : List Source.Mark) (own : List Typing.SymbolId) :
    Makes (fun _ xs => ∃ globals nonlocals, xs = borrowLines globals nonlocals ∧
      ∀ x ∈ globals, startsWithUnderscores x = false) (bindingLines assigned own) := by
  simp only [bindingLines]
  refine (filterMapFinds (fun _ => askFinds _) _).bind fun symbols _ => Makes.known ?_ fun c calm => ?_
  · intro c kind calm
    simp [calm.declares, Context.libraryName?]
  · have named (x : Typing.SymbolId) : Finds (fun r : Bool × String => startsWithUnderscores r.2 = false)
        (do return ((c.libraryName? x).isSome || (c.moduleSymbols.contains x && c.kind = .script), ← nameOf x)) :=
      (nameOfFinds x).bind fun _ own => Finds.pure own
    refine (mapFinds named _).bind fun names own => ?_
    have mine : ∀ x ∈ (names.filter (·.1)).map (·.2), startsWithUnderscores x = false := by
      intro x hx
      obtain ⟨r, hr, rfl⟩ := List.mem_map.mp hx
      exact own r (List.mem_filter.mp hr).1
    generalize (names.filter (·.1)).map (·.2) = globals at mine ⊢
    generalize (names.filter (!·.1)).map (·.2) = nonlocals
    have last : Makes (fun _ xs => xs = borrowLines [] nonlocals)
        (if nonlocals.isEmpty then pure () else push (.nonlocals (sortedNames nonlocals))) := by
      split
      case isTrue none => exact Makes.pure (by simp [borrowLines, none])
      case isFalse some => exact (pushMakes _).weaken (by simp [borrowLines, some])
    split
    case isTrue none => exact last.weaken fun _ xs made => ⟨globals, nonlocals, by simp_all [borrowLines], mine⟩
    case isFalse some =>
      refine (pushMakes _).bind ?_
      rintro _ _ rfl
      exact last.weaken fun _ xs made => ⟨globals, nonlocals, by simp_all [borrowLines], mine⟩

theorem bindingLinesKeeps (reserved : ∀ x ∈ kept, startsWithUnderscores x = true) (assigned : List Source.Mark)
    (own : List Typing.SymbolId) : Keeps kept (bindingLines assigned own) := by
  refine (bindingLinesMakes assigned own).weaken ?_
  rintro _ _ ⟨globals, nonlocals, rfl, own⟩
  refine usesAppend ?_ ?_
  · split
    · trivial
    · refine ⟨fun x hx => ?_, trivial⟩
      have := own x (List.mem_mergeSort.mp hx)
      intro member
      simp [reserved x member] at this
  · split <;> trivial

theorem hoistLinesKeeps (marks : List Source.Mark) : Keeps kept (hoistLines marks) := by
  have lines (names : List String) (own : ∀ x ∈ names, startsWithUnderscores x = false) :
      Keeps kept (forIn names PUnit.unit fun name _ => do
        push (.assign name .none)
        pure (ForInStep.yield PUnit.unit)) := by
    induction names with
    | nil => exact Keeps.pure _
    | cons name rest ih =>
      simp only [List.forIn_cons, bind_assoc, pure_bind]
      have line : Keeps kept (push (.assign name .none)) := pushKeeps ⟨ownPlain (own name (by simp)), trivial⟩
      refine line.bind fun _ => ?_
      exact ih fun x hx => own x (by simp [hx])
  simp only [hoistLines]
  refine (filterMapFinds declaredSymbolFinds _).bind fun symbols _ => (mapFinds nameOfFinds _).bind fun names own => ?_
  exact (lines _ fun x hx => own x (List.mem_eraseDups.mp hx)).bind fun _ => Keeps.pure _

theorem collectLineKeeps {params : List Target.Param} (own : ∀ p ∈ params, startsWithUnderscores p.name = false) :
    Keeps kept (collectLine params) := by
  unfold collectLine
  split
  case h_1 p found =>
    have member := (List.mem_filter.mp (List.mem_of_getLast? found)).1
    exact pushKeeps (ownPlain (own p member))
  case h_2 => exact Keeps.pure _

theorem enumLineKeeps (mark : Source.Mark) : Keeps kept (enumLine mark) := by
  simp only [enumLine]
  refine (declaredSymbolFinds mark).bind fun found _ => ?_
  split
  · exact Keeps.pure _
  · refine (askFinds _).bind fun t _ => getFinds.bind fun p _ => ?_
    have entry (m : Typing.Symbol) : Finds (fun r : String × Target.Expr => Fit kept [] r.2)
        (do return (m.name, ← numberExpr (m.enumValue.getD (.int 0)))) :=
      (numberFinds _).bind fun _ fit => Finds.pure fit
    refine (mapFinds entry _).bind fun entries fit => (nameOfFinds _).bind fun name own => ?_
    exact pushKeeps ⟨ownPlain own, (entriesFit fit).uses⟩

theorem blockStartKeeps (reserved : ∀ x ∈ kept, startsWithUnderscores x = true) {params : List Target.Param}
    (named : ∀ p ∈ params, startsWithUnderscores p.name = false) (own : List Typing.SymbolId) (ss : List Source.Stmt) :
    Keeps kept (blockStart params own ss) :=
  (filterMapFinds declaredSymbolFinds _).bind fun _ _ => (bindingLinesKeeps reserved _ _).bind fun _ =>
    (collectLineKeeps named).bind fun _ => hoistLinesKeeps _

theorem functionStartFinds (mark : Source.Mark) (name : String) (params : List Source.Param) :
    Finds (fun r => startsWithUnderscores r.1 = false ∧ ∀ p ∈ r.2.1, startsWithUnderscores p.name = false)
      (functionStart mark name params) := by
  refine (declaredSymbolFinds mark).bind fun found _ => ?_
  split
  · exact refuseMakes _
  · exact (nameOfFinds _).bind fun name own => (parametersFinds params).bind fun r named => Finds.pure ⟨own, named⟩

theorem functionBodyFinds {act : Lowering Unit} (h : Keeps kept act) (isAsync : Bool) :
    Finds (usesIn Layout.Plain (· ∉ kept)) (functionBody isAsync act) :=
  asyncMakes (suiteFinds h ⟨trivial, trivial⟩) isAsync

end Statements

/-! Expressions and statements -/

/-- A step that adds definitions of functions only. Its result satisfies a condition that may depend on
the names of these functions. -/
def Yields {α : Type} (kept : List String) (good : List String → α → Prop) (act : Lowering α) : Prop :=
  Makes (fun a xs => (∀ s ∈ xs, s.defined?.isSome ∧ s.Uses Layout.Plain (· ∉ kept)) ∧ good (definedIn xs) a) act

section Yields

variable {α β : Type} {kept : List String} {good : List String → α → Prop} {m : Lowering α} {k : α → Lowering β}

theorem Yields.bind {next : List String → β → Prop} (first : Yields kept good m)
    (rest : ∀ D a, good D a → Yields kept (fun E b => next (D ++ E) b) (k a)) : Yields kept next (m >>= k) := by
  refine Makes.bind first fun a xs made => Makes.weaken (rest _ a made.2) fun b ys later => ⟨?_, ?_⟩
  · intro s hs
    rcases List.mem_append.mp hs with hs | hs
    · exact made.1 s hs
    · exact later.1 s hs
  · simpa [definedIn] using later.2

theorem Finds.yields (h : Finds (good []) m) : Yields kept good m := by
  refine Makes.weaken h ?_
  rintro a _ ⟨rfl, holds⟩
  exact ⟨by simp, holds⟩

/-- A step that adds nothing, before others. -/
theorem Finds.before {Q : α → Prop} {next : List String → β → Prop} (first : Finds Q m)
    (rest : ∀ a, Q a → Yields kept next (k a)) : Yields kept next (m >>= k) := Finds.bind first rest

theorem Yields.pure {a : α} (h : good [] a) : Yields kept good (pure a) := (Finds.pure h).yields

theorem defineYields {name : String} {isAsync : Bool} {params : List Target.Param} {body : List Target.Stmt}
    (plain : Layout.Plain name) (code : usesIn Layout.Plain (· ∉ kept) body) :
    Yields kept (fun D _ => name ∈ D) (push (.define name isAsync params body)) := by
  refine (pushMakes _).weaken ?_
  rintro _ _ rfl
  refine ⟨?_, by simp [definedIn, Target.Stmt.defined?]⟩
  simpa using ⟨rfl, plain, code⟩

theorem definitionsUse {P G : String → Prop} {xs : List Target.Stmt} (h : ∀ s ∈ xs, s.defined?.isSome ∧ s.Uses P G) :
    usesIn P G xs := by
  induction xs with
  | nil => trivial
  | cons s xs ih => exact ⟨(h s (by simp)).2, ih fun t ht => h t (by simp [ht])⟩

theorem Yields.keeps (first : Yields kept good m) (rest : ∀ D a, good D a → Keeps kept (k a)) :
    Keeps kept (m >>= k) :=
  Makes.bind first fun a _ made => Makes.weaken (rest _ a made.2) fun _ _ later => usesAppend (definitionsUse made.1) later

end Yields

section Lower

variable {kept : List String}

/-- A store to a property, with or without an operator. -/
theorem storedYields (op : Source.AssignOp) (target value : Source.Expr) {D : List String} {o k : Target.Expr}
    (fit : Fit kept D o) (keyFit : Fit kept D k) (assigned : Yields kept (Fit kept) (lowerExpr value))
    {good : List String → Target.Expr → Prop} (enough : ∀ E e, Fit kept (D ++ E) e → good E e) :
    Yields kept good (match op with
      | none => do return storeExpr o k (← lowerExpr value)
      | some _ => do
        let store ← newStore
        let assigned ← lowerExpr value
        let result ← combined op store.current target value assigned
        return storeExpr (.bind store.object o) (.bind store.key k) result) := by
  cases op with
  | none =>
    refine assigned.bind fun E v valueFit => Yields.pure (enough _ _ (Fit.helper _ ?_))
    simpa using ⟨fit.more (by simp), keyFit.more (by simp), valueFit.more (by simp)⟩
  | some op =>
    refine newStoreFinds.before fun store plain => assigned.bind fun E v valueFit => ?_
    have current : Fit kept (store.key :: store.object :: (D ++ E)) store.current :=
      Fit.helper _ (by simpa using ⟨Fit.settled plain.1 (by simp), Fit.settled plain.2 (by simp)⟩)
    have later : Fit kept (store.key :: store.object :: (D ++ E)) v :=
      valueFit.more fun x hx => by simp [hx]
    refine (combinedFinds (some op) target value (fun _ => current) later).before fun result resultFit => ?_
    refine Yields.pure (enough _ _ (Fit.stored plain (fit.more (by simp)) (keyFit.more (by simp)) ?_))
    simpa using resultFit

/-- A statement that is an expression. An assignment of a variable has no value there. -/
theorem exprStmtKeeps (reserved : ∀ x ∈ kept, startsWithUnderscores x = true) (place : Place) (m : Source.Mark)
    {e : Source.Expr} (whole : Yields kept (Fit kept) (lowerExpr e))
    (part : ∀ m op mark name value, e = .assign m op (.ident mark name) value →
      Yields kept (Fit kept) (lowerExpr value)) : Keeps kept (lowerStmt place (.expr m e)) := by
  have plain : Layout.Plain Target.completionName := Target.completionPlain
  obtain ⟨-, _, op, mark, name, value, rfl, lowered⟩ | lowered := exprStmtLowered place m e <;> rw [lowered]
  · refine (targetNameFinds mark name).bind fun x own => (part _ _ _ _ _ rfl).keeps fun D v fit => ?_
    refine (combinedFinds op _ value (fun _ => Fit.name reserved own) fit).bind fun e fit => ?_
    exact pushKeeps ⟨ownPlain own, fit.uses⟩
  · refine whole.keeps fun D v fit => ?_
    split
    · exact pushKeeps ⟨plain, fit.uses⟩
    · exact pushKeeps fit.uses

mutual

theorem lowerExprYields (reserved : ∀ x ∈ kept, startsWithUnderscores x = true) :
    (e : Source.Expr) → Yields kept (Fit kept) (lowerExpr e)
  | .number _ value _ => by
    simp only [lowerExpr]
    exact Finds.yields (numberFinds value)
  | .string _ value => by
    simp only [lowerExpr]
    exact Yields.pure (Fit.text value)
  | .boolean _ value => by
    simp only [lowerExpr]
    exact Yields.pure (Fit.bool value)
  | .ident mark name => by
    simp only [lowerExpr]
    refine Finds.yields ((nameExprFinds mark name).weaken ?_)
    rintro _ (rfl | ⟨x, own, rfl⟩)
    · exact Fit.none
    · exact Fit.name reserved own
  | .object _ properties => by
    simp only [lowerExpr]
    exact (lowerPropertiesYields reserved properties).bind fun D ps fit => Yields.pure (by simpa using entriesFit fit)
  | .array _ elements => by
    simp only [lowerExpr]
    exact (lowerExprsYields reserved elements).bind fun D es fit => Yields.pure (by simpa using Fit.list fit)
  | .member mark target name => by
    simp only [lowerExpr]
    refine getFinds.before fun p _ => ?_
    split
    · exact Finds.yields (numberFinds _)
    · refine (lowerExprYields reserved target).bind fun D t fit => ?_
      exact Finds.yields (memberFinds mark target name (by simpa using fit))
  | .element mark target index => by
    simp only [lowerExpr]
    refine getFinds.before fun p _ => ?_
    split
    · exact Finds.yields (numberFinds _)
    · refine (lowerExprYields reserved target).bind fun D t fit => (lowerExprYields reserved index).bind fun E i indexFit => ?_
      exact Finds.yields (elementFinds mark target index (fit.more (by simp)) (indexFit.more (by simp)))
  | .call _ callee args => by
    simp only [lowerExpr]
    refine (lowerExprsYields reserved args).bind fun D es fit => (lowerExprYields reserved callee).bind fun E c calleeFit => ?_
    exact Yields.pure (Fit.call (calleeFit.more (by simp)) fun e he => (fit e he).more (by simp))
  | .unary _ op operand => by
    simp only [lowerExpr]
    exact (lowerExprYields reserved operand).bind fun D e fit => Finds.yields (unaryFinds op operand (by simpa using fit))
  | .await _ operand => by
    simp only [lowerExpr]
    exact (lowerExprYields reserved operand).bind fun D e fit => Yields.pure (by simpa using fit.await)
  | .binary _ op left right => by
    simp only [lowerExpr]
    refine (lowerExprYields reserved left).bind fun D l fit => (askFinds _).before fun t _ => ?_
    refine (lowerExprYields reserved right).bind fun E r rightFit => ?_
    have left : Fit kept (D ++ (E ++ [])) l := fit.more (by simp)
    have right : Fit kept (D ++ (E ++ [])) r := rightFit.more (by simp)
    split
    · exact Finds.yields (logicalFinds true t left right)
    · exact Finds.yields (logicalFinds false t left right)
    · exact (askFinds _).before fun u _ => Finds.yields (operatorFinds _ t u left right)
  | .conditional _ test yes no => by
    simp only [lowerExpr]
    refine (lowerExprYields reserved test).bind fun D t fit => (conditionFinds test fit).before fun t fit => ?_
    refine (lowerExprYields reserved yes).bind fun E y yesFit => (lowerExprYields reserved no).bind fun F n noFit => ?_
    exact Yields.pure (Fit.cond (fit.more (by simp)) (yesFit.more (by simp)) (noFit.more (by simp)))
  | .assign _ op (.ident mark name) value => by
    simp only [lowerExpr]
    refine (targetNameFinds mark name).before fun x own => (lowerExprYields reserved value).bind fun D v fit => ?_
    refine (combinedFinds op _ value (fun _ => Fit.name reserved own) fit).before fun e fit => ?_
    exact Yields.pure (by simpa using fit.bind (ownPlain own))
  | .assign _ op (.member mark object name) value => by
    simp only [lowerExpr]
    refine (lowerExprYields reserved object).bind fun D o fit => ?_
    exact storedYields op _ value fit (Fit.text name) (lowerExprYields reserved value) fun _ _ fit => fit
  | .assign _ op (.element mark object index) value => by
    simp only [lowerExpr]
    refine (lowerExprYields reserved object).bind fun D o fit => (lowerExprYields reserved index).bind fun E k keyFit => ?_
    refine storedYields op _ value (fit.more (List.subset_append_left D E)) (keyFit.more (List.subset_append_right D E))
      (lowerExprYields reserved value) fun F e fit => ?_
    simpa using fit
  | .assign _ _ (.number ..) _ | .assign _ _ (.string ..) _ | .assign _ _ (.boolean ..) _ | .assign _ _ (.object ..) _
  | .assign _ _ (.array ..) _ | .assign _ _ (.call ..) _ | .assign _ _ (.unary ..) _ | .assign _ _ (.await ..) _
  | .assign _ _ (.binary ..) _ | .assign _ _ (.conditional ..) _ | .assign _ _ (.assign ..) _
  | .assign _ _ (.cast ..) _ | .assign _ _ (.arrow ..) _ => by
    simp only [lowerExpr]
    exact refuseMakes _
  | .cast _ e _ => by
    simp only [lowerExpr]
    exact lowerExprYields reserved e
  | .arrow _ params body _ isAsync => by
    simp only [lowerExpr]
    refine (temporaryPlain .function).before fun name plain => (parametersFinds params).before fun ⟨made, own⟩ named => ?_
    refine (functionBodyFinds (lowerBodyKeeps reserved named own body) isAsync).before fun inside code => ?_
    exact (defineYields plain code).bind fun D _ member => Yields.pure (Fit.settled plain (by simpa using member))

theorem lowerExprsYields (reserved : ∀ x ∈ kept, startsWithUnderscores x = true) :
    (es : List Source.Expr) →
    Yields kept (fun D made => ∀ e ∈ made, Fit kept D e) (lowerExprs es)
  | [] => by
    simp only [lowerExprs]
    exact Yields.pure (by simp)
  | e :: es => by
    simp only [lowerExprs]
    refine (lowerExprYields reserved e).bind fun D first fit => (lowerExprsYields reserved es).bind fun E rest fits => Yields.pure ?_
    simpa using ⟨fit.more (by simp), fun e he => (fits e he).more (by simp)⟩

theorem lowerPropertiesYields (reserved : ∀ x ∈ kept, startsWithUnderscores x = true) :
    (ps : List Source.Property) →
    Yields kept (fun D made => ∀ p ∈ made, Fit kept D p.2) (lowerProperties ps)
  | [] => by
    simp only [lowerProperties]
    exact Yields.pure (by simp)
  | .mk _ name value _ :: ps => by
    simp only [lowerProperties]
    refine (lowerExprYields reserved value).bind fun D first fit => (lowerPropertiesYields reserved ps).bind fun E rest fits => Yields.pure ?_
    simpa using ⟨fit.more (by simp), fun n e he => (fits (n, e) he).more (by simp)⟩

theorem lowerBodyKeeps (reserved : ∀ x ∈ kept, startsWithUnderscores x = true) {params : List Target.Param}
    (named : ∀ p ∈ params, startsWithUnderscores p.name = false) (own : List Typing.SymbolId) : (body : Source.Body) → Keeps kept (lowerBody params own body)
  | .block (.mk _ ss) => by
    simp only [lowerBody]
    exact (blockStartKeeps reserved named own ss).bind fun _ => (lowerDeclarationsKeeps reserved ss).bind fun _ => lowerStmtsKeeps reserved .block ss
  | .expr e => by
    simp only [lowerBody]
    refine (bindingLinesKeeps reserved _ own).bind fun _ => (collectLineKeeps named).bind fun _ => ?_
    refine (lowerExprYields reserved e).keeps fun D v fit => (returnFinds e fit).bind fun v fit => ?_
    exact pushKeeps fit.uses

theorem lowerDeclarationsKeeps (reserved : ∀ x ∈ kept, startsWithUnderscores x = true) :
    (ss : List Source.Stmt) → Keeps kept (lowerDeclarations ss)
  | [] => by
    simp only [lowerDeclarations]
    exact Keeps.pure _
  | .function mark name params _ (some (.mk _ ss)) isAsync _ :: rest => by
    unfold lowerDeclarations
    dsimp only
    refine (functionStartFinds mark name params).bind fun ⟨name, made, own⟩ ⟨mine, named⟩ => ?_
    have inside := (blockStartKeeps reserved named own ss).bind fun _ =>
      (lowerDeclarationsKeeps reserved ss).bind fun _ => lowerStmtsKeeps reserved .block ss
    refine (functionBodyFinds inside isAsync).bind fun body code => ?_
    exact Keeps.bind (pushKeeps ⟨ownPlain mine, code⟩) fun _ => lowerDeclarationsKeeps reserved rest
  | .function _ _ _ _ none _ _ :: rest | .expr .. :: rest | .var .. :: rest | .ret .. :: rest | .brk .. :: rest
  | .cont .. :: rest | .empty .. :: rest | .block .. :: rest | .cond .. :: rest | .loop .. :: rest
  | .typeAlias .. :: rest | .interface .. :: rest | .enum .. :: rest | .classDecl .. :: rest
  | .importDecl .. :: rest => by
    simp only [lowerDeclarations]
    exact lowerDeclarationsKeeps reserved rest

theorem lowerStmtsKeeps (reserved : ∀ x ∈ kept, startsWithUnderscores x = true) (place : Place) :
    (ss : List Source.Stmt) → Keeps kept (lowerStmts place ss)
  | [] => by
    simp only [lowerStmts]
    exact Keeps.pure _
  | s :: ss => by
    simp only [lowerStmts]
    exact (lowerStmtKeeps reserved place s).bind fun _ => lowerStmtsKeeps reserved place ss

theorem lowerDeclaratorsKeeps (reserved : ∀ x ∈ kept, startsWithUnderscores x = true) (isVar : Bool) :
    (ds : List Source.VarDeclarator) → Keeps kept (lowerDeclarators isVar ds)
  | [] => by
    simp only [lowerDeclarators]
    exact Keeps.pure _
  | .mk mark name _ (some e) :: ds => by
    simp only [lowerDeclarators]
    refine (variableNameFinds mark name).bind fun x _ => (lowerExprYields reserved e).keeps fun D v fit => ?_
    refine (nameOfFinds x).bind fun name own => ?_
    exact Keeps.bind (pushKeeps ⟨ownPlain own, fit.uses⟩) fun _ => lowerDeclaratorsKeeps reserved isVar ds
  | .mk mark name _ none :: ds => by
    simp only [lowerDeclarators]
    refine (variableNameFinds mark name).bind fun x _ => ?_
    split
    · exact lowerDeclaratorsKeeps reserved isVar ds
    · refine (nameOfFinds x).bind fun name own => ?_
      exact Keeps.bind (pushKeeps ⟨ownPlain own, trivial⟩) fun _ => lowerDeclaratorsKeeps reserved isVar ds

theorem lowerStmtKeeps (reserved : ∀ x ∈ kept, startsWithUnderscores x = true) (place : Place) :
    (s : Source.Stmt) → Keeps kept (lowerStmt place s)
  | .expr m e => exprStmtKeeps reserved place m (lowerExprYields reserved e) fun _ _ _ _ _ same => assignedYields reserved e same
  | .var _ kind declarations ambient => by
    simp only [lowerStmt]
    split
    · exact Keeps.pure _
    · exact lowerDeclaratorsKeeps reserved _ declarations
  | .ret _ (some e) => by
    unfold lowerStmt
    dsimp only
    refine (lowerExprYields reserved e).keeps fun D v fit => (returnFinds e fit).bind fun v fit => ?_
    exact pushKeeps fit.uses
  | .ret _ none => by
    unfold lowerStmt
    dsimp only
    exact pushKeeps trivial
  | .block (.mk _ ss) => by
    simp only [lowerStmt]
    exact (lowerDeclarationsKeeps reserved ss).bind fun _ => lowerStmtsKeeps reserved .block ss
  | .cond _ test yes (some no) => by
    unfold lowerStmt
    dsimp only
    refine (lowerExprYields reserved test).keeps fun D t fit => (conditionFinds test fit).bind fun t fit => ?_
    refine (suiteFinds (lowerStmtKeeps reserved .branch yes) ⟨trivial, trivial⟩).bind fun y yesCode => ?_
    refine (suiteFinds (lowerStmtKeeps reserved .branch no) ⟨trivial, trivial⟩).bind fun n noCode => ?_
    exact pushKeeps ⟨fit.uses, yesCode, noCode⟩
  | .cond _ test yes none => by
    simp only [lowerStmt]
    refine (lowerExprYields reserved test).keeps fun D t fit => (conditionFinds test fit).bind fun t fit => ?_
    refine (suiteFinds (lowerStmtKeeps reserved .branch yes) ⟨trivial, trivial⟩).bind fun y yesCode => ?_
    exact pushKeeps ⟨fit.uses, yesCode, trivial⟩
  | .loop _ test body => by
    simp only [lowerStmt]
    refine (lowerExprYields reserved test).keeps fun D t fit => (conditionFinds test fit).bind fun t fit => ?_
    refine (suiteFinds (lowerStmtKeeps reserved .branch body) ⟨trivial, trivial⟩).bind fun b code => ?_
    exact pushKeeps ⟨fit.uses, code⟩
  | .brk _ | .cont _ => by
    simp only [lowerStmt]
    exact pushKeeps trivial
  | .function mark name params _ (some (.mk _ ss)) isAsync _ => by
    simp only [lowerStmt]
    split
    · refine (functionStartFinds mark name params).bind fun ⟨name, made, own⟩ ⟨mine, named⟩ => ?_
      have inside := (blockStartKeeps reserved named own ss).bind fun _ =>
        (lowerDeclarationsKeeps reserved ss).bind fun _ => lowerStmtsKeeps reserved .block ss
      refine (functionBodyFinds inside isAsync).bind fun body code => ?_
      exact pushKeeps ⟨ownPlain mine, code⟩
    · exact Keeps.pure _
  | .enum mark _ _ isConst ambient => by
    simp only [lowerStmt]
    split
    · exact Keeps.pure _
    · exact enumLineKeeps mark
  | .empty .. | .function _ _ _ _ none _ _ | .typeAlias .. | .interface .. | .classDecl .. | .importDecl .. => by
    simp only [lowerStmt]
    exact Keeps.pure _

/-- The value of an assignment. -/
theorem assignedYields (reserved : ∀ x ∈ kept, startsWithUnderscores x = true) : (e : Source.Expr) →
    {m mark : Source.Mark} → {op : Source.AssignOp} → {name : String} → {value : Source.Expr} →
    e = .assign m op (.ident mark name) value → Yields kept (Fit kept) (lowerExpr value)
  | .assign _ _ _ v, _, _, _, _, _, same => by
    cases same
    exact lowerExprYields reserved v
  | .number .., _, _, _, _, _, same | .string .., _, _, _, _, _, same | .boolean .., _, _, _, _, _, same
  | .ident .., _, _, _, _, _, same | .object .., _, _, _, _, _, same | .array .., _, _, _, _, _, same
  | .member .., _, _, _, _, _, same | .element .., _, _, _, _, _, same | .call .., _, _, _, _, _, same
  | .unary .., _, _, _, _, _, same | .await .., _, _, _, _, _, same | .binary .., _, _, _, _, _, same
  | .conditional .., _, _, _, _, _, same | .cast .., _, _, _, _, _, same | .arrow .., _, _, _, _, _, same => by
    cases same

end

end Lower

end Fragment.Emit
