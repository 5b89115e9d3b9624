import Fragment.Proofs.CodeLines
import Fragment.Proofs.ExprsKept
import Fragment.Proofs.NameSupply

/-! Code is made of words.
A symbol gets a name that is made of the letters of its own, and only what the checker tells of names and of
declarations is given a name. So as long as accesses and names are told apart, all names in the code that is
made are words; and branches and bodies come from steps that put something into them. -/
namespace Fragment.Emit

open Source (Mark Expr Property Param Body Block Stmt VarDeclarator AssignOp IsWord LabelledExprs LabelledProperties
  LabelledStmts LabelledDeclarators)
open Typing (SymbolId TypeId TypeFlags State Named Check)
open Target (WordedAll WordedEntries WordedStmts)
open Lowering

/-! Names -/

theorem wordAppend {a b : String} (first : IsWord a) (rest : ∀ c ∈ b.toList, Source.isNamePart c) : IsWord (a ++ b) := by
  refine ⟨by simp [first.1], fun c member => ?_⟩
  rw [String.toList_append] at member
  exact (List.mem_append.mp member).elim (first.2 c) (rest c)

theorem numberParts (k : Nat) : ∀ c ∈ (toString k).toList, Source.isNamePart c := by
  have shown : (toString k).toList = Nat.toDigits 10 k := by simp
  intro c member
  have digit := Nat.isDigit_of_mem_toDigits (b := 10) (by decide) (by decide) (shown ▸ member)
  simp [Source.isNamePart, Char.isAlphanum, digit]

theorem plainNameWord {name : String} (word : IsWord name) : IsWord (plainName name) := by
  have dollar : ∀ c ∈ "_dollar_".toList, Source.isNamePart c := by decide
  have filled (c : Char) : (if c = '$' then "_dollar_".toList else [c]) ≠ [] := by
    split
    · decide
    · exact List.cons_ne_nil _ _
  unfold plainName
  refine ⟨?_, fun c member => ?_⟩
  · rw [String.toList_ofList]
    cases letters : name.toList with
    | nil => exact absurd letters word.1
    | cons c rest => exact List.append_ne_nil_of_left_ne_nil (filled c) _
  · rw [String.toList_ofList] at member
    obtain ⟨d, among, inside⟩ := List.mem_flatMap.mp member
    split at inside
    · exact dollar c inside
    · exact List.mem_singleton.mp inside ▸ word.2 d among

theorem baseNameWord {name : String} (word : IsWord name) : IsWord (baseName name) := by
  have plain := plainNameWord word
  obtain ⟨-, base⟩ | ⟨-, base⟩ := baseNameCases name
  · exact base ▸ wordAppend (by decide) plain.2
  · exact base ▸ plain

theorem candidateWord {base : String} (word : IsWord base) (k : Nat) : IsWord (candidate base k) := by
  unfold candidate
  split
  · exact word
  · exact wordAppend (wordAppend word (by decide)) (numberParts k)

theorem forSymbolWords {n names : Names} {x : Nat} {first name : String} (words : ∀ given ∈ n.symbols, IsWord given.2)
    (word : IsWord first) (given : n.forSymbol x first = some (name, names)) :
    IsWord name ∧ ∀ given ∈ names.symbols, IsWord given.2 := by
  unfold Names.forSymbol at given
  split at given
  next known found =>
    cases given
    obtain ⟨_, _, same, -⟩ := List.lookup_eq_some_iff.mp found
    exact ⟨words (x, name) (by simp [same]), words⟩
  next =>
    obtain ⟨free, found, same⟩ := Option.map_eq_some_iff.mp given
    cases same
    obtain ⟨j, -, -, rfl⟩ := Names.freeFromSomeIff.mp found
    have fresh := candidateWord (baseNameWord word) (0 + j)
    exact ⟨fresh, List.forall_mem_cons.mpr ⟨fresh, words⟩⟩

/-! Steps -/

/-- Libraries declare words. -/
def Context.Worded (c : Context) : Prop := ∀ entry ∈ c.librarySymbols, IsWord entry.1

/-- What is known tells accesses from names, and names given and statements made are worded. -/
structure Progress.Worded (A : Nat → Prop) (K : SymbolId → Prop) (p : Progress) : Prop where
  typing : p.typing.Labelled IsWord A K
  names : ∀ given ∈ p.names.symbols, IsWord given.2
  made : ∀ s ∈ p.made, s.Worded

/-- A step after which all is still worded, and whose result satisfies a condition. -/
def Words (A : Nat → Prop) (K : SymbolId → Prop) {α : Type} (P : α → Prop) (act : Lowering α) : Prop :=
  ∀ c p a q, c.Worded → p.Worded A K → act c p = .ok (a, q) → q.Worded A K ∧ P a

section Rules

variable {A : Nat → Prop} {K : SymbolId → Prop} {α β γ : Type} {P : α → Prop} {R : β → Prop} {m : Lowering α}
  {k : α → Lowering β}

theorem Words.bind (first : Words A K P m) (rest : ∀ a, P a → Words A K R (k a)) : Words A K R (m >>= k) := by
  intro c p b r libraries worded run
  rw [bindRun] at run
  cases step : m c p with
  | error f => simp [step] at run
  | ok s =>
    obtain ⟨a, q⟩ := s
    simp only [step] at run
    obtain ⟨after, holds⟩ := first c p a q libraries worded step
    exact rest a holds c q b r libraries after run

theorem Words.pure {a : α} (holds : P a) : Words A K P (pure a) := by
  intro c p b q _ worded run
  cases run
  exact ⟨worded, holds⟩

theorem Words.throw (f : Failure) : Words A K P (throw f) := by
  intro c p b q _ _ run
  cases run

theorem Words.refuse (message : String) : Words A K P (refuse message : Lowering α) := .throw _

theorem Words.weaken (words : Words A K P m) {P' : α → Prop} (implies : ∀ a, P a → P' a) : Words A K P' m :=
  fun c p a q libraries worded run => (words c p a q libraries worded run).imp_right (implies a)

/-- What follows may read the context. -/
theorem Words.read {k : Context → Lowering β} (rest : ∀ c, c.Worded → Words A K R (k c)) : Words A K R (read >>= k) :=
  fun c p b q libraries worded run => rest c libraries c p b q libraries worded run

/-- What follows may look at what is known. -/
theorem Words.get {k : Progress → Lowering β} (rest : ∀ p, p.Worded A K → Words A K R (k p)) : Words A K R (get >>= k) :=
  fun c p b q libraries worded run => rest p worded c p b q libraries worded run

theorem askRun (question : Check α) (c : Context) (p : Progress) :
    ask question c p = match question.run p.typing with
      | .ok (a, typing) => .ok (a, { p with typing })
      | .error f => .error (.fault f) := by
  simp only [ask, bindRun, getRun]
  cases question.run p.typing <;> rfl

theorem Words.ask (question : Check α) [keeps : Typing.Keeps (State.Labelled IsWord A K) question] :
    Words A K (fun _ => True) (ask question) := by
  intro c p a q _ worded run
  rw [askRun] at run
  split at run
  next b typing asked =>
    cases run
    exact ⟨⟨keeps.keeps _ _ _ worded.typing asked, worded.names, worded.made⟩, trivial⟩
  next => cases run

/-- Once a step has told symbols of which the checker knows the names, what follows may count on them. -/
theorem Words.telling {T : α → SymbolId → Prop} {v : State → α} (run : ∀ c p, m c p = .ok (v p.typing, p))
    (told : ∀ s, s.Labelled IsWord A K → ∀ x, T (v s) x → Named IsWord s.symbols x)
    (rest : ∀ a, Words A (fun x => T a x ∨ K x) R (k a)) : Words A K R (m >>= k) := by
  intro c p b q libraries worded after
  rw [bindRun, run] at after
  have more : p.Worded A fun x => T (v p.typing) x ∨ K x :=
    ⟨worded.typing.told fun x known => known.elim (told _ worded.typing x) (worded.typing.kept x), worded.names, worded.made⟩
  obtain ⟨ends, holds⟩ := rest _ c p b q libraries more after
  exact ⟨⟨ends.typing.told fun x known => ends.typing.kept x (.inr known), ends.names, ends.made⟩, holds⟩

theorem Words.push {s : Target.Stmt} (worded : s.Worded) : Words A K (fun _ => True) (push s) := by
  intro c p a q _ before run
  cases run
  refine ⟨⟨before.typing, before.names, fun t member => ?_⟩, trivial⟩
  rcases Array.mem_push.mp member with old | rfl
  · exact before.made t old
  · exact worded

theorem Words.mapM {f : γ → Lowering α} {items : List γ} (each : ∀ c ∈ items, Words A K P (f c)) :
    Words A K (fun as => ∀ a ∈ as, P a) (items.mapM f) := by
  induction items with
  | nil => exact .pure nofun
  | cons c rest ih =>
    rw [List.mapM_cons]
    refine (each c List.mem_cons_self).bind fun a holds => ?_
    refine (ih fun d member => each d (List.mem_cons_of_mem c member)).bind fun as all => .pure ?_
    exact List.forall_mem_cons.mpr ⟨holds, all⟩

theorem wordedStmtsIff (ss : List Target.Stmt) : WordedStmts ss ↔ ∀ s ∈ ss, s.Worded := by
  induction ss with
  | nil => simp [WordedStmts]
  | cons s ss ih => simp [WordedStmts, ih]

theorem Words.collected {act : Lowering Unit} (words : Words A K (fun _ => True) act) :
    Words A K WordedStmts (collected act) := by
  intro c p a q libraries worded run
  rw [collectedRun] at run
  split at run
  next r ended =>
    cases run
    have apart : ({ p with made := #[] } : Progress).Worded A K := ⟨worded.typing, worded.names, by simp⟩
    obtain ⟨after, -⟩ := words c _ _ _ libraries apart ended
    exact ⟨⟨after.typing, after.names, worded.made⟩, (wordedStmtsIff _).mpr (by simpa using after.made)⟩
  next => cases run

theorem Words.suite {act : Lowering Unit} (words : Words A K (fun _ => True) act) :
    Words A K (fun ss => ss ≠ [] ∧ WordedStmts ss) (suite act) := by
  refine words.collected.bind fun body worded => ?_
  split
  · exact .pure ⟨List.cons_ne_nil _ _, trivial, trivial⟩
  next some => exact .pure ⟨some, worded⟩

theorem Words.functionBody {act : Lowering Unit} (words : Words A K (fun _ => True) act) (isAsync : Bool) :
    Words A K (fun ss => ss ≠ [] ∧ WordedStmts ss) (functionBody isAsync act) :=
  fun c p a q libraries worded run => words.suite { c with isAsync } p a q libraries worded run

/-! Names -/

theorem nameOfWords {x : SymbolId} (known : K x) : Words A K IsWord (nameOf x) := by
  intro c p a q libraries worded run
  cases library : c.libraryName? x with
  | some name =>
    rw [libraryNameRun library] at run
    cases run
    obtain ⟨entry, found, rfl⟩ := Option.map_eq_some_iff.mp library
    exact ⟨worded, libraries entry (List.mem_of_find?_eq_some found)⟩
  | none =>
    obtain ⟨symbol, found, word⟩ := worded.typing.kept x known
    have named : (p.typing.symbol x).name = symbol.name := by simp [State.symbol, found]
    have asked : Lowering.ask (Check.symbol x) c p = .ok (p.typing.symbol x, p) := rfl
    simp only [nameOf, bindRun, readRun, library, asked, getRun, named] at run
    cases given : p.names.forSymbol x symbol.name with
    | none =>
      rw [given] at run
      cases run
    | some chosen =>
      rw [given] at run
      cases run
      obtain ⟨fresh, all⟩ := forSymbolWords worded.names word given
      exact ⟨⟨worded.typing, all, worded.made⟩, fresh⟩

theorem temporaryWords (kind : Temporary) : Words A K IsWord (temporary kind) := by
  intro c p a q _ worded run
  cases run
  refine ⟨⟨worded.typing, ?_, worded.made⟩, ?_⟩
  · exact worded.names
  · refine wordAppend ?_ (numberParts _)
    cases kind <;> decide

theorem declaredTells {mark : Mark} {k : Option SymbolId → Lowering β}
    (rest : ∀ found, Words A (fun x => found = some x ∨ K x) R (k found)) : Words A K R (declaredSymbol? mark >>= k) :=
  .telling (v := fun s => s.symbolOf[mark.id]?) (fun _ _ => rfl) (fun _ l x found => l.declared mark.id x found) rest

theorem declaredAllTells {marks : List Mark} {k : List SymbolId → Lowering β}
    (rest : ∀ found, Words A (fun x => x ∈ found ∨ K x) R (k found)) : Words A K R (declaredSymbols marks >>= k) := by
  refine .telling (v := fun s => marks.filterMap fun m => s.symbolOf[m.id]?) (declaredSymbolsRun marks) (fun s l x member => ?_) rest
  obtain ⟨m, -, found⟩ := List.mem_filterMap.mp member
  exact l.declared m.id x found

/-- The symbol that the node of a name means or declares has a name. -/
theorem symbolAtNamed {s : State} (l : s.Labelled IsWord A K) {mark : Mark} (name : ¬A mark.id) {x : SymbolId}
    (found : symbolAt s mark = some x) : Named IsWord s.symbols x := by
  unfold symbolAt at found
  cases resolved : s.resolvedSymbols[mark.id]? with
  | none => exact l.declared mark.id x (by simpa [resolved] using found)
  | some y =>
    obtain rfl : y = x := by simpa [resolved] using found
    exact (l.resolved mark.id y resolved).resolve_left name

theorem symbolAtTells {mark : Mark} (name : ¬A mark.id) {k : Option SymbolId → Lowering β}
    (rest : ∀ found, Words A (fun x => found = some x ∨ K x) R (k found)) :
    Words A K R (Lowering.ask (Check.symbolAt? mark) >>= k) :=
  .telling (v := fun s => symbolAt s mark) (fun _ _ => rfl) (fun _ l _ found => symbolAtNamed l name found) rest

theorem symbolsAtTells {marks : List Mark} (names : ∀ m ∈ marks, ¬A m.id) {k : List SymbolId → Lowering β}
    (rest : ∀ found, Words A (fun x => x ∈ found ∨ K x) R (k found)) :
    Words A K R ((marks.filterMapM fun m => Lowering.ask (Check.symbolAt? m)) >>= k) := by
  refine .telling (v := fun s => marks.filterMap (symbolAt s)) (symbolsAtRun marks) (fun s l x member => ?_) rest
  obtain ⟨m, among, found⟩ := List.mem_filterMap.mp member
  exact symbolAtNamed l (names m among) found

end Rules

/-! The parts of expressions -/

section Expressions

variable {A : Nat → Prop} {K : SymbolId → Prop} {a b : Target.Expr}

theorem typeOfWords {e : Expr} (labelled : e.Labelled IsWord A) : Words A K (fun _ => True) (typeOf e) :=
  have := Typing.Level.typeOfExpr (I := State.Labelled IsWord A K) (q := Typing.answers) e labelled none
  Words.ask (Typing.answers.typeOfExpr e none)

theorem allPartsWords (t : TypeId) (mask : TypeFlags) : Words A K (fun _ => True) (allParts t mask) := .ask _

theorem conditionWords {e : Expr} (labelled : e.Labelled IsWord A) (worded : a.Worded) :
    Words A K Target.Expr.Worded (condition e a) := by
  refine (typeOfWords labelled).bind fun t _ => (allPartsWords t _).bind fun isBool _ => ?_
  split
  · exact .pure worded
  · exact .pure ⟨worded, trivial⟩

theorem isArrayWords (t : TypeId) : Words A K (fun _ => True) (isArray t) := by
  refine (Words.ask _).bind fun form _ => ?_
  split <;> exact .pure trivial

theorem isPlainObjectWords (t : TypeId) : Words A K (fun _ => True) (isPlainObject t) := .get fun _ _ => .pure trivial

instance symbolAtKeeps (mark : Mark) : Typing.Keeps (State.Labelled IsWord A K) (Check.symbolAt? mark) := by
  unfold Check.symbolAt?
  infer_instance

theorem readsRequiredWords (mark : Mark) : Words A K (fun _ => True) (readsRequired mark) := by
  refine (Words.ask _).bind fun found _ => ?_
  split
  · exact (Words.ask _).bind fun _ _ => .pure trivial
  · exact .pure trivial

theorem memberWords (mark : Mark) {source : Expr} (labelled : source.Labelled IsWord A) (name : String)
    (worded : a.Worded) : Words A K Target.Expr.Worded (memberExpr mark source name a) := by
  unfold memberExpr
  refine (typeOfWords labelled).bind fun t _ => (allPartsWords t _).bind fun isText _ =>
    (isArrayWords t).bind fun isArray _ => ?_
  dsimp only
  split
  · exact .pure ⟨worded, trivial⟩
  · refine (readsRequiredWords mark).bind fun required _ => (isPlainObjectWords t).bind fun isPlain _ => ?_
    split
    · exact .pure worded
    · exact .pure ⟨worded, trivial, trivial⟩

theorem elementWords (mark : Mark) {source : Expr} (labelled : source.Labelled IsWord A) (index : Expr)
    (object : a.Worded) (key : b.Worded) : Words A K Target.Expr.Worded (elementExpr mark source index a b) := by
  have indexed : (Target.Expr.helper .index [a, b]).Worded := ⟨object, key, trivial⟩
  unfold elementExpr
  split
  · refine (readsRequiredWords mark).bind fun required _ => ?_
    split
    · refine (typeOfWords labelled).bind fun t _ => (isPlainObjectWords t).bind fun isPlain _ => ?_
      split
      · exact .pure object
      · exact .pure indexed
    · exact .pure indexed
  · exact .pure indexed

theorem unaryWords (op : Source.UnaryOp) {source : Expr} (labelled : source.Labelled IsWord A) (worded : a.Worded) :
    Words A K Target.Expr.Worded (unaryExpr op source a) := by
  have converted (h : Target.Helper) : (Target.Expr.helper h [a]).Worded := ⟨worded, trivial⟩
  unfold unaryExpr
  refine (typeOfWords labelled).bind fun t _ => ?_
  split
  · refine (allPartsWords t _).bind fun isBool _ => ?_
    split
    · exact .pure worded
    · exact .pure (converted .truthy)
  · exact .pure (converted .typeOf)
  · refine (allPartsWords t _).bind fun isNumber _ => ?_
    have number : (if isNumber = true then a else .helper .toNumber [a]).Worded := by
      split
      · exact worded
      · exact converted .toNumber
    refine .pure ?_
    split <;> exact number

theorem logicalWords (isAnd : Bool) (t : TypeId) (left : a.Worded) (right : b.Worded) :
    Words A K Target.Expr.Worded (logicalExpr isAnd t a b) := by
  unfold logicalExpr
  refine (allPartsWords t _).bind fun isBool _ => ?_
  split
  · refine .pure ?_
    split <;> exact ⟨left, right⟩
  · refine (temporaryWords .value).bind fun temp word => .pure ?_
    split
    · exact ⟨⟨word, left⟩, right, word⟩
    · exact ⟨⟨word, left⟩, word, right⟩

theorem bothAreWords (s t : TypeId) (mask : TypeFlags) : Words A K (fun _ => True) (bothAre s t mask) :=
  (allPartsWords s mask).bind fun _ _ => (allPartsWords t mask).bind fun _ _ => .pure trivial

theorem operatorWords (op : Source.BinaryOp) (s t : TypeId) (left : a.Worded) (right : b.Worded) :
    Words A K Target.Expr.Worded (operator op a s b t) := by
  have helped (h : Target.Helper) : (Target.Expr.helper h [a, b]).Worded := ⟨left, right, trivial⟩
  have summed : Words A K Target.Expr.Worded (sum a b s t) := by
    refine (bothAreWords s t _).bind fun numbers _ => ?_
    split
    · exact .pure ⟨left, right⟩
    · refine (allPartsWords s _).bind fun leftText _ => (allPartsWords t _).bind fun rightText _ => ?_
      split <;> exact .pure (helped _)
  have onNumbers (op : Target.Operator) : Words A K Target.Expr.Worded (onNumbers op a b s t) := by
    refine (bothAreWords s t _).bind fun numbers _ => ?_
    split
    · exact .pure ⟨left, right⟩
    · exact .pure ⟨⟨left, trivial⟩, right, trivial⟩
  have strict (negated : Bool) : Words A K Target.Expr.Worded (strictEquality negated a b s t) := by
    refine (bothAreWords s t _).bind fun numbers _ => (bothAreWords s t _).bind fun texts _ =>
      (bothAreWords s t _).bind fun bools _ => ?_
    dsimp only
    split
    · exact .pure ⟨left, right⟩
    · refine .pure ?_
      split <;> exact helped .strictEquals
  cases op with
  | add => exact summed
  | sub | mul => exact onNumbers _
  | div | rem | pow | looseEqual => exact .pure (helped _)
  | looseNotEqual => exact .pure (helped .looseEquals)
  | less | greater | lessEqual | greaterEqual => exact .pure ⟨left, right⟩
  | strictEqual | strictNotEqual => exact strict _
  | and | or => exact .refuse _

theorem combinedWords (op : AssignOp) {target value : Expr} (targetLabelled : target.Labelled IsWord A)
    (valueLabelled : value.Labelled IsWord A) (current : a.Worded) (assigned : b.Worded) :
    Words A K Target.Expr.Worded (combined op a target value b) := by
  cases op with
  | none => exact .pure assigned
  | some op =>
    exact (typeOfWords targetLabelled).bind fun s _ => (typeOfWords valueLabelled).bind fun t _ =>
      operatorWords op s t current assigned

theorem returnWords {source : Expr} (labelled : source.Labelled IsWord A) (worded : a.Worded) :
    Words A K Target.Expr.Worded (returnExpr source a) := by
  refine .read fun c _ => ?_
  split
  · exact .pure worded
  · refine (typeOfWords labelled).bind fun t _ => (Words.ask _).bind fun isAny _ => ?_
    split
    · exact .pure worded
    · refine (Words.ask _).bind fun promised _ => ?_
      split <;> exact .pure worded

theorem numberWords (n : Number) : Words A K Target.Expr.Worded (numberExpr n) := by
  unfold numberExpr
  split
  · exact .pure trivial
  · exact .throw _

/-- The code of a name is `None` or a word. -/
theorem nameExprWords {mark : Mark} (plain : ¬A mark.id) (name : String) :
    Words A K (fun e => e = .none ∨ ∃ x, IsWord x ∧ e = .name x) (nameExpr mark name) := by
  refine symbolAtTells plain fun found => ?_
  split
  · exact .refuse _
  next x =>
    split
    · exact .pure (.inl rfl)
    · exact (nameOfWords (.inl rfl)).bind fun x word => .pure (.inr ⟨x, word, rfl⟩)

theorem targetNameWords {mark : Mark} (plain : ¬A mark.id) (name : String) : Words A K IsWord (targetName mark name) := by
  refine (nameExprWords plain name).bind ?_
  rintro e (rfl | ⟨x, word, rfl⟩)
  · exact .pure (by decide)
  · exact .pure word

theorem newStoreWords : Words A K (fun s : Store => IsWord s.object ∧ IsWord s.key) newStore :=
  (temporaryWords .value).bind fun _ object => (temporaryWords .value).bind fun _ key => .pure ⟨object, key⟩

end Expressions

/-! Names that are assigned -/

section Assigned

variable {Q : String → Prop} {A : Nat → Prop}

mutual

theorem assignedInNames : (e : Expr) → e.Labelled Q A → ∀ m ∈ assignedIn e, ¬A m.id
  | .object _ properties, labelled => assignedInPropertiesNames properties labelled
  | .array _ elements, labelled => assignedInExprsNames elements labelled
  | .member _ target _, labelled => assignedInNames target labelled.2
  | .element _ target index, labelled => fun m member =>
    (List.mem_append.mp member).elim (assignedInNames target labelled.2.1 m) (assignedInNames index labelled.2.2 m)
  | .call _ callee args, labelled => fun m member =>
    (List.mem_append.mp member).elim (assignedInNames callee labelled.1 m) (assignedInExprsNames args labelled.2 m)
  | .unary _ _ operand, labelled => assignedInNames operand labelled
  | .await _ operand, labelled => assignedInNames operand labelled
  | .binary _ _ left right, labelled => fun m member =>
    (List.mem_append.mp member).elim (assignedInNames left labelled.1 m) (assignedInNames right labelled.2 m)
  | .conditional _ test yes no, labelled => fun m member => by
    rcases List.mem_append.mp member with member | member
    · rcases List.mem_append.mp member with member | member
      · exact assignedInNames test labelled.1 m member
      · exact assignedInNames yes labelled.2.1 m member
    · exact assignedInNames no labelled.2.2 m member
  | .assign _ _ target value, labelled => fun m member => by
    rcases List.mem_append.mp member with member | member
    · rcases List.mem_append.mp member with own | member
      · split at own
        next name _ => exact List.mem_singleton.mp own ▸ labelled.1
        next => cases own
      · exact assignedInNames target labelled.1 m member
    · exact assignedInNames value labelled.2 m member
  | .cast _ e _, labelled => assignedInNames e labelled
  | .number .., _ | .string .., _ | .boolean .., _ | .ident .., _ | .arrow .., _ => nofun

theorem assignedInExprsNames : (es : List Expr) → LabelledExprs Q A es → ∀ m ∈ assignedInExprs es, ¬A m.id
  | [], _ => nofun
  | e :: es, labelled => fun m member =>
    (List.mem_append.mp member).elim (assignedInNames e labelled.1 m) (assignedInExprsNames es labelled.2 m)

theorem assignedInPropertiesNames : (ps : List Property) → LabelledProperties Q A ps → ∀ m ∈ assignedInProperties ps, ¬A m.id
  | [], _ => nofun
  | .mk _ _ value _ :: ps, labelled => fun m member =>
    (List.mem_append.mp member).elim (assignedInNames value labelled.1 m) (assignedInPropertiesNames ps labelled.2 m)

end

theorem assignedInDeclaratorsNames : (ds : List VarDeclarator) → LabelledDeclarators Q A ds →
    ∀ m ∈ assignedInDeclarators ds, ¬A m.id
  | [], _ => nofun
  | .mk _ _ _ (some e) :: ds, labelled => fun m member =>
    (List.mem_append.mp member).elim (assignedInNames e labelled.2.1 m) (assignedInDeclaratorsNames ds labelled.2.2 m)
  | .mk _ _ _ none :: ds, labelled => assignedInDeclaratorsNames ds labelled.2.2

mutual

theorem assignedInStmtNames : (s : Stmt) → s.Labelled Q A → ∀ m ∈ assignedInStmt s, ¬A m.id
  | .expr _ e, labelled => assignedInNames e labelled
  | .var _ _ declarations _, labelled => assignedInDeclaratorsNames declarations labelled
  | .ret _ (some e), labelled => assignedInNames e labelled
  | .block (.mk _ ss), labelled => assignedInStmtsNames ss labelled
  | .cond _ test yes (some no), labelled => fun m member => by
    rcases List.mem_append.mp member with member | member
    · rcases List.mem_append.mp member with member | member
      · exact assignedInNames test labelled.1 m member
      · exact assignedInStmtNames yes labelled.2.1 m member
    · exact assignedInStmtNames no labelled.2.2 m member
  | .cond _ test yes none, labelled => fun m member => by
    rcases List.mem_append.mp member with member | member
    · rcases List.mem_append.mp member with member | member
      · exact assignedInNames test labelled.1 m member
      · exact assignedInStmtNames yes labelled.2.1 m member
    · cases member
  | .loop _ test body, labelled => fun m member =>
    (List.mem_append.mp member).elim (assignedInNames test labelled.1 m) (assignedInStmtNames body labelled.2 m)
  | .ret _ none, _ | .brk _, _ | .cont _, _ | .empty _, _ | .function .., _ | .typeAlias .., _ | .interface .., _
  | .enum .., _ | .classDecl .., _ | .importDecl .., _ => nofun

theorem assignedInStmtsNames : (ss : List Stmt) → LabelledStmts Q A ss → ∀ m ∈ assignedInStmts ss, ¬A m.id
  | [], _ => nofun
  | s :: ss, labelled => fun m member =>
    (List.mem_append.mp member).elim (assignedInStmtNames s labelled.1 m) (assignedInStmtsNames ss labelled.2 m)

end

end Assigned

/-! The parts of statements -/

section Statements

variable {A : Nat → Prop} {K : SymbolId → Prop}

theorem variableTells {β : Type} {R : β → Prop} {mark : Mark} {name : String} {k : SymbolId → Lowering β}
    (rest : ∀ x, Words A (fun y => some x = some y ∨ K y) R (k x)) : Words A K R (variableName mark name >>= k) := by
  unfold variableName
  rw [bind_assoc]
  refine declaredTells fun found => ?_
  cases found with
  | none => exact (Words.refuse (P := fun _ => False) _).bind fun _ never => never.elim
  | some x => simpa only [pure_bind] using rest x

theorem parametersWords (params : List Param) :
    Words A K (fun r => ∀ p ∈ r.1, IsWord p.name) (parameters params) := by
  refine (Words.mapM (P := fun r => IsWord r.1.name) fun p _ => ?_).bind fun made words => .pure ?_
  · refine declaredTells fun found => ?_
    split
    · exact .refuse _
    · exact (nameOfWords (.inl rfl)).bind fun name word => .pure word
  · intro p member
    obtain ⟨r, inside, rfl⟩ := List.mem_map.mp member
    exact words r inside

theorem bindingLinesWords {assigned : List Mark} (names : ∀ m ∈ assigned, ¬A m.id) (own : List SymbolId) :
    Words A K (fun _ => True) (bindingLines assigned own) := by
  refine symbolsAtTells names fun found => .read fun c _ => ?_
  dsimp only
  refine (Words.mapM (P := fun r => IsWord r.2) fun x member => ?_).bind fun named words => ?_
  · have told : x ∈ found := List.mem_eraseDups.mp (List.mem_filter.mp member).1
    exact (nameOfWords (.inl told)).bind fun name word => .pure word
  · have chosen (p : Bool × String → Bool) : ∀ x ∈ sortedNames ((named.filter p).map (·.2)), IsWord x := by
      intro x member
      obtain ⟨r, inside, rfl⟩ := List.mem_map.mp (List.mem_mergeSort.mp member)
      exact words r (List.mem_filter.mp inside).1
    have last : Words A (fun x => x ∈ found ∨ K x) (fun _ => True)
        (if ((named.filter (!·.1)).map (·.2)).isEmpty then pure ()
          else push (.nonlocals (sortedNames ((named.filter (!·.1)).map (·.2))))) := by
      split
      · exact .pure trivial
      · exact .push (chosen _)
    split
    · exact last
    · exact (Words.push (s := .globals _) (chosen _)).bind fun _ _ => last

theorem hoistLinesWords (marks : List Mark) : Words A K (fun _ => True) (hoistLines marks) := by
  have lines {K : SymbolId → Prop} (names : List String) (words : ∀ x ∈ names, IsWord x) :
      Words A K (fun _ => True) (forIn names PUnit.unit fun name _ => do
        push (.assign name .none)
        pure (ForInStep.yield PUnit.unit)) := by
    induction names with
    | nil => exact .pure trivial
    | cons name rest ih =>
      simp only [List.forIn_cons, bind_assoc, pure_bind]
      have line : (Target.Stmt.assign name .none).Worded := ⟨words name List.mem_cons_self, trivial⟩
      exact (Words.push line).bind fun _ _ => ih fun x member => words x (List.mem_cons_of_mem name member)
  refine declaredAllTells fun found => (Words.mapM fun x member => nameOfWords (.inl member)).bind fun names words => ?_
  exact (lines _ fun x member => words x (List.mem_eraseDups.mp member)).bind fun _ _ => .pure trivial

theorem collectLineWords {params : List Target.Param} (words : ∀ p ∈ params, IsWord p.name) :
    Words A K (fun _ => True) (collectLine params) := by
  unfold collectLine
  split
  next p found => exact .push (words p (List.mem_filter.mp (List.mem_of_getLast? found)).1)
  next => exact .pure trivial

theorem wordedEntriesIff (entries : List (String × Target.Expr)) : WordedEntries entries ↔ ∀ r ∈ entries, r.2.Worded := by
  induction entries with
  | nil => simp [WordedEntries]
  | cons r rest ih => simp [WordedEntries, ih]

theorem enumLineWords (mark : Mark) : Words A K (fun _ => True) (enumLine mark) := by
  unfold enumLine
  refine declaredTells fun found => ?_
  split
  · exact .pure trivial
  · refine (Words.ask _).bind fun t _ => .get fun p _ => ?_
    refine (Words.mapM (P := fun r => r.2.Worded) fun m _ => ?_).bind fun entries worded => ?_
    · exact (numberWords _).bind fun n worded => .pure worded
    · exact (nameOfWords (.inl rfl)).bind fun name word => .push ⟨word, (wordedEntriesIff entries).mpr worded⟩

theorem blockStartWords {params : List Target.Param} (words : ∀ p ∈ params, IsWord p.name) (own : List SymbolId)
    {ss : List Stmt} (labelled : LabelledStmts IsWord A ss) : Words A K (fun _ => True) (blockStart params own ss) :=
  declaredAllTells fun _ => .bind (bindingLinesWords (assignedInStmtsNames ss labelled) _) fun _ _ =>
    .bind (collectLineWords words) fun _ _ => hoistLinesWords _

theorem functionStartWords (mark : Mark) (name : String) (params : List Param) :
    Words A K (fun r => IsWord r.1 ∧ ∀ p ∈ r.2.1, IsWord p.name) (functionStart mark name params) := by
  refine declaredTells fun found => ?_
  split
  · exact .refuse _
  · exact (nameOfWords (.inl rfl)).bind fun name word => (parametersWords params).bind fun r words => .pure ⟨word, words⟩

end Statements

/-! Expressions and statements -/

section Lower

variable {A : Nat → Prop}

/-- A store to a property, with or without an operator. -/
theorem storedWords {K : SymbolId → Prop} (op : AssignOp) {target value : Expr} (targetLabelled : target.Labelled IsWord A)
    (valueLabelled : value.Labelled IsWord A) {o k : Target.Expr} (object : o.Worded) (key : k.Worded)
    (assigned : Words A K Target.Expr.Worded (lowerExpr value)) : Words A K Target.Expr.Worded (match op with
      | none => do return storeExpr o k (← lowerExpr value)
      | some _ => do
        let store ← newStore
        let assigned ← lowerExpr value
        let result ← combined op store.current target value assigned
        return storeExpr (.bind store.object o) (.bind store.key k) result) := by
  cases op with
  | none => exact assigned.bind fun v worded => .pure ⟨object, key, worded, trivial⟩
  | some op =>
    refine newStoreWords.bind fun store words => assigned.bind fun v worded => ?_
    have current : store.current.Worded := ⟨words.1, words.2, trivial⟩
    refine (combinedWords (some op) targetLabelled valueLabelled current worded).bind fun result resultWorded => ?_
    exact .pure ⟨⟨words.1, object⟩, ⟨words.2, key⟩, resultWorded, trivial⟩

/-- A statement that is an expression. An assignment of a variable has no value there. -/
theorem exprStmtWords (place : Place) (m : Mark) {e : Expr} (labelled : e.Labelled IsWord A) {K : SymbolId → Prop}
    (whole : Words A K Target.Expr.Worded (lowerExpr e))
    (part : ∀ m op mark name value, e = .assign m op (.ident mark name) value →
      Words A K Target.Expr.Worded (lowerExpr value)) : Words A K (fun _ => True) (lowerStmt place (.expr m e)) := by
  have completion : IsWord Target.completionName := by decide
  obtain ⟨-, _, op, mark, name, value, rfl, lowered⟩ | lowered := exprStmtLowered place m e <;> rw [lowered]
  · refine (targetNameWords labelled.1 name).bind fun x word => (part _ _ _ _ _ rfl).bind fun v worded => ?_
    have named : (Target.Expr.name x).Worded := word
    exact (combinedWords op labelled.1 labelled.2 named worded).bind fun e stored => .push ⟨word, stored⟩
  · refine whole.bind fun v worded => .push ?_
    split
    · exact ⟨completion, worded⟩
    · exact worded

mutual

theorem lowerExprWords : (e : Expr) → e.Labelled IsWord A → ∀ K, Words A K Target.Expr.Worded (lowerExpr e)
  | .number _ value _, _, K => by
    unfold lowerExpr
    exact numberWords value
  | .string _ value, _, K | .boolean _ value, _, K => by
    unfold lowerExpr
    exact .pure trivial
  | .ident mark name, plain, K => by
    unfold lowerExpr
    refine (nameExprWords plain name).weaken ?_
    rintro _ (rfl | ⟨x, word, rfl⟩)
    · exact trivial
    · exact word
  | .object _ properties, labelled, K => by
    unfold lowerExpr
    exact (lowerPropertiesWords properties labelled K).bind fun ps worded => .pure worded
  | .array _ elements, labelled, K => by
    unfold lowerExpr
    exact (lowerExprsWords elements labelled K).bind fun es worded => .pure worded
  | .member mark target name, labelled, K => by
    unfold lowerExpr
    refine .get fun p _ => ?_
    split
    · exact numberWords _
    · exact (lowerExprWords target labelled.2 K).bind fun t worded => memberWords mark labelled.2 name worded
  | .element mark target index, labelled, K => by
    unfold lowerExpr
    refine .get fun p _ => ?_
    split
    · exact numberWords _
    · exact (lowerExprWords target labelled.2.1 K).bind fun t worded => (lowerExprWords index labelled.2.2 K).bind fun i key =>
        elementWords mark labelled.2.1 index worded key
  | .call _ callee args, labelled, K => by
    unfold lowerExpr
    exact (lowerExprsWords args labelled.2 K).bind fun es args => (lowerExprWords callee labelled.1 K).bind fun c callee =>
      .pure ⟨callee, args⟩
  | .unary _ op operand, labelled, K => by
    unfold lowerExpr
    exact (lowerExprWords operand labelled K).bind fun e worded => unaryWords op labelled worded
  | .await _ operand, labelled, K => by
    unfold lowerExpr
    exact (lowerExprWords operand labelled K).bind fun e worded => .pure worded
  | .binary _ op left right, labelled, K => by
    unfold lowerExpr
    refine (lowerExprWords left labelled.1 K).bind fun l first => (typeOfWords labelled.1).bind fun t _ => ?_
    refine (lowerExprWords right labelled.2 K).bind fun r second => ?_
    split
    · exact logicalWords true t first second
    · exact logicalWords false t first second
    · exact (typeOfWords labelled.2).bind fun u _ => operatorWords _ t u first second
  | .conditional _ test yes no, labelled, K => by
    unfold lowerExpr
    refine (lowerExprWords test labelled.1 K).bind fun t worded => (conditionWords labelled.1 worded).bind fun t tested => ?_
    exact (lowerExprWords yes labelled.2.1 K).bind fun y yes => (lowerExprWords no labelled.2.2 K).bind fun n no =>
      .pure ⟨tested, yes, no⟩
  | .assign _ op (.ident mark name) value, labelled, K => by
    unfold lowerExpr
    refine (targetNameWords labelled.1 name).bind fun x word => (lowerExprWords value labelled.2 K).bind fun v worded => ?_
    have named : (Target.Expr.name x).Worded := word
    exact (combinedWords op labelled.1 labelled.2 named worded).bind fun e stored => .pure ⟨word, stored⟩
  | .assign _ op (.member mark object name) value, labelled, K => by
    unfold lowerExpr
    refine (lowerExprWords object labelled.1.2 K).bind fun o worded => ?_
    exact storedWords op labelled.1 labelled.2 worded trivial (lowerExprWords value labelled.2 K)
  | .assign _ op (.element mark object index) value, labelled, K => by
    unfold lowerExpr
    refine (lowerExprWords object labelled.1.2.1 K).bind fun o worded => ?_
    refine (lowerExprWords index labelled.1.2.2 K).bind fun k key => ?_
    exact storedWords op labelled.1 labelled.2 worded key (lowerExprWords value labelled.2 K)
  | .assign _ _ (.number ..) _, _, K | .assign _ _ (.string ..) _, _, K | .assign _ _ (.boolean ..) _, _, K
  | .assign _ _ (.object ..) _, _, K | .assign _ _ (.array ..) _, _, K | .assign _ _ (.call ..) _, _, K
  | .assign _ _ (.unary ..) _, _, K | .assign _ _ (.await ..) _, _, K | .assign _ _ (.binary ..) _, _, K
  | .assign _ _ (.conditional ..) _, _, K | .assign _ _ (.assign ..) _, _, K | .assign _ _ (.cast ..) _, _, K
  | .assign _ _ (.arrow ..) _, _, K => by
    unfold lowerExpr
    exact .refuse _
  | .cast _ e _, labelled, K => by
    unfold lowerExpr
    exact lowerExprWords e labelled K
  | .arrow _ params body _ isAsync, labelled, K => by
    unfold lowerExpr
    refine (temporaryWords .function).bind fun name word => (parametersWords params).bind fun ⟨made, own⟩ words => ?_
    refine ((lowerBodyWords words own body labelled.2 K).functionBody isAsync).bind fun inside worded => ?_
    exact (Words.push (s := .define name isAsync made inside) ⟨word, words, worded⟩).bind fun _ _ => .pure word

theorem lowerExprsWords : (es : List Expr) → LabelledExprs IsWord A es → ∀ K, Words A K WordedAll (lowerExprs es)
  | [], _, K => by
    unfold lowerExprs
    exact .pure trivial
  | e :: es, labelled, K => by
    unfold lowerExprs
    exact (lowerExprWords e labelled.1 K).bind fun first worded => (lowerExprsWords es labelled.2 K).bind fun rest all =>
      .pure ⟨worded, all⟩

theorem lowerPropertiesWords : (ps : List Property) → LabelledProperties IsWord A ps → ∀ K,
    Words A K WordedEntries (lowerProperties ps)
  | [], _, K => by
    unfold lowerProperties
    exact .pure trivial
  | .mk _ name value _ :: ps, labelled, K => by
    unfold lowerProperties
    exact (lowerExprWords value labelled.1 K).bind fun first worded => (lowerPropertiesWords ps labelled.2 K).bind fun rest all =>
      .pure ⟨worded, all⟩

theorem lowerBodyWords {params : List Target.Param} (words : ∀ p ∈ params, IsWord p.name) (own : List SymbolId) :
    (body : Body) → body.Labelled IsWord A → ∀ K, Words A K (fun _ => True) (lowerBody params own body)
  | .block (.mk _ ss), labelled, K => by
    unfold lowerBody
    exact (blockStartWords words own labelled).bind fun _ _ => (lowerDeclarationsWords ss labelled K).bind fun _ _ =>
      lowerStmtsWords .block ss labelled K
  | .expr e, labelled, K => by
    unfold lowerBody
    refine (bindingLinesWords (assignedInNames e labelled) own).bind fun _ _ => (collectLineWords words).bind fun _ _ => ?_
    exact (lowerExprWords e labelled K).bind fun v worded => (returnWords labelled worded).bind fun v given => .push given

theorem lowerDeclarationsWords : (ss : List Stmt) → LabelledStmts IsWord A ss → ∀ K,
    Words A K (fun _ => True) (lowerDeclarations ss)
  | [], _, K => by
    unfold lowerDeclarations
    exact .pure trivial
  | .function mark name params _ (some (.mk _ ss)) isAsync _ :: rest, labelled, K => by
    unfold lowerDeclarations
    refine (functionStartWords mark name params).bind fun ⟨name, made, own⟩ ⟨word, words⟩ => ?_
    have inside := (blockStartWords (K := K) words own labelled.1.2.2).bind fun _ _ =>
      (lowerDeclarationsWords ss labelled.1.2.2 K).bind fun _ _ => lowerStmtsWords .block ss labelled.1.2.2 K
    refine (inside.functionBody isAsync).bind fun body worded => ?_
    exact (Words.push (s := .define name isAsync made body) ⟨word, words, worded⟩).bind fun _ _ =>
      lowerDeclarationsWords rest labelled.2 K
  | .function _ _ _ _ none _ _ :: rest, labelled, K | .expr .. :: rest, labelled, K | .var .. :: rest, labelled, K
  | .ret .. :: rest, labelled, K | .brk .. :: rest, labelled, K | .cont .. :: rest, labelled, K
  | .empty .. :: rest, labelled, K | .block .. :: rest, labelled, K | .cond .. :: rest, labelled, K
  | .loop .. :: rest, labelled, K | .typeAlias .. :: rest, labelled, K | .interface .. :: rest, labelled, K
  | .enum .. :: rest, labelled, K | .classDecl .. :: rest, labelled, K | .importDecl .. :: rest, labelled, K => by
    unfold lowerDeclarations
    exact lowerDeclarationsWords rest labelled.2 K

theorem lowerStmtsWords (place : Place) : (ss : List Stmt) → LabelledStmts IsWord A ss → ∀ K,
    Words A K (fun _ => True) (lowerStmts place ss)
  | [], _, K => by
    unfold lowerStmts
    exact .pure trivial
  | s :: ss, labelled, K => by
    unfold lowerStmts
    exact (lowerStmtWords place s labelled.1 K).bind fun _ _ => lowerStmtsWords place ss labelled.2 K

theorem lowerDeclaratorsWords (isVar : Bool) : (ds : List VarDeclarator) → LabelledDeclarators IsWord A ds → ∀ K,
    Words A K (fun _ => True) (lowerDeclarators isVar ds)
  | [], _, K => by
    unfold lowerDeclarators
    exact .pure trivial
  | .mk mark name _ (some e) :: ds, labelled, K => by
    unfold lowerDeclarators
    -- The symbol is told before its value is looked at and named after it.
    refine variableTells fun x => (lowerExprWords e labelled.2.1 _).bind fun v worded => ?_
    exact (nameOfWords (.inl rfl)).bind fun name word => (Words.push (s := .assign name v) ⟨word, worded⟩).bind fun _ _ =>
      lowerDeclaratorsWords isVar ds labelled.2.2 _
  | .mk mark name _ none :: ds, labelled, K => by
    unfold lowerDeclarators
    refine variableTells fun x => ?_
    dsimp only
    split
    · exact lowerDeclaratorsWords isVar ds labelled.2.2 _
    · exact (nameOfWords (.inl rfl)).bind fun name word => (Words.push (s := .assign name .none) ⟨word, trivial⟩).bind fun _ _ =>
        lowerDeclaratorsWords isVar ds labelled.2.2 _

theorem lowerStmtWords (place : Place) : (s : Stmt) → s.Labelled IsWord A → ∀ K,
    Words A K (fun _ => True) (lowerStmt place s)
  | .expr m e, labelled, K => exprStmtWords place m labelled (lowerExprWords e labelled K) fun _ _ _ _ _ same =>
    assignedWords e labelled K same
  | .var _ kind declarations ambient, labelled, K => by
    unfold lowerStmt
    split
    · exact .pure trivial
    · exact lowerDeclaratorsWords _ declarations labelled K
  | .ret _ (some e), labelled, K => by
    unfold lowerStmt
    exact (lowerExprWords e labelled K).bind fun v worded => (returnWords labelled worded).bind fun v given => .push given
  | .ret _ none, _, K => by
    unfold lowerStmt
    exact .push trivial
  | .block (.mk _ ss), labelled, K => by
    unfold lowerStmt
    exact (lowerDeclarationsWords ss labelled K).bind fun _ _ => lowerStmtsWords .block ss labelled K
  | .cond _ test yes (some no), labelled, K => by
    unfold lowerStmt
    refine (lowerExprWords test labelled.1 K).bind fun t worded => (conditionWords labelled.1 worded).bind fun t tested => ?_
    exact (lowerStmtWords .branch yes labelled.2.1 K).suite.bind fun y first =>
      (lowerStmtWords .branch no labelled.2.2 K).suite.bind fun n second => .push ⟨tested, first.1, first.2, second⟩
  | .cond _ test yes none, labelled, K => by
    unfold lowerStmt
    refine (lowerExprWords test labelled.1 K).bind fun t worded => (conditionWords labelled.1 worded).bind fun t tested => ?_
    exact (lowerStmtWords .branch yes labelled.2.1 K).suite.bind fun y first => .push ⟨tested, first.1, first.2, trivial⟩
  | .loop _ test body, labelled, K => by
    unfold lowerStmt
    refine (lowerExprWords test labelled.1 K).bind fun t worded => (conditionWords labelled.1 worded).bind fun t tested => ?_
    exact (lowerStmtWords .branch body labelled.2 K).suite.bind fun b inside => .push ⟨tested, inside⟩
  | .brk _, _, K | .cont _, _, K => by
    unfold lowerStmt
    exact .push trivial
  | .function mark name params _ (some (.mk _ ss)) isAsync _, labelled, K => by
    unfold lowerStmt
    split
    · refine (functionStartWords mark name params).bind fun ⟨name, made, own⟩ ⟨word, words⟩ => ?_
      have inside := (blockStartWords (K := K) words own labelled.2.2).bind fun _ _ =>
        (lowerDeclarationsWords ss labelled.2.2 K).bind fun _ _ => lowerStmtsWords .block ss labelled.2.2 K
      exact (inside.functionBody isAsync).bind fun body worded => .push ⟨word, words, worded⟩
    · exact .pure trivial
  | .enum mark _ _ isConst ambient, _, K => by
    unfold lowerStmt
    split
    · exact .pure trivial
    · exact enumLineWords mark
  | .empty .., _, K | .function _ _ _ _ none _ _, _, K | .typeAlias .., _, K | .interface .., _, K | .classDecl .., _, K
  | .importDecl .., _, K => by
    unfold lowerStmt
    exact .pure trivial

/-- The value of an assignment. -/
theorem assignedWords : (e : Expr) → e.Labelled IsWord A → ∀ K, {m mark : Mark} → {op : AssignOp} → {name : String} →
    {value : Expr} → e = .assign m op (.ident mark name) value → Words A K Target.Expr.Worded (lowerExpr value)
  | .assign _ _ _ v, labelled, K, _, _, _, _, _, same => by
    cases same
    exact lowerExprWords v labelled.2 K
  | .number .., _, _, _, _, _, _, _, same | .string .., _, _, _, _, _, _, _, same
  | .boolean .., _, _, _, _, _, _, _, same | .ident .., _, _, _, _, _, _, _, same
  | .object .., _, _, _, _, _, _, _, same | .array .., _, _, _, _, _, _, _, same
  | .member .., _, _, _, _, _, _, _, same | .element .., _, _, _, _, _, _, _, same
  | .call .., _, _, _, _, _, _, _, same | .unary .., _, _, _, _, _, _, _, same
  | .await .., _, _, _, _, _, _, _, same | .binary .., _, _, _, _, _, _, _, same
  | .conditional .., _, _, _, _, _, _, _, same | .cast .., _, _, _, _, _, _, _, same
  | .arrow .., _, _, _, _, _, _, _, same => by
    cases same

end

end Lower

/-! Files -/

section Files

variable {A : Nat → Prop} {K : SymbolId → Prop}

theorem wordedAppend {xs ys : List Target.Stmt} (first : WordedStmts xs) (rest : WordedStmts ys) : WordedStmts (xs ++ ys) := by
  rw [wordedStmtsIff] at *
  exact fun s member => (List.mem_append.mp member).elim (first s) (rest s)

theorem fileStatementsWords {ss : List Stmt} (labelled : LabelledStmts IsWord A ss) :
    Words A K WordedStmts (fileStatements ss) := by
  have first : (Target.Stmt.assign Target.completionName .none).Worded := ⟨by decide, trivial⟩
  exact ((Words.push first).bind fun _ _ => (hoistLinesWords _).bind fun _ _ =>
    (lowerDeclarationsWords ss labelled K).bind fun _ _ => lowerStmtsWords .top ss labelled K).collected

/-- The code of a file names the file, and all of it is worded. -/
theorem lowerFileWords {file : Source.SourceFile} (labelled : LabelledStmts IsWord A file.statements) (kind : ModuleKind) :
    Words A K (fun code => code.source = file.name ∧ WordedStmts code.body) (lowerFile file kind) := by
  cases kind with
  | script => exact (fileStatementsWords labelled).bind fun statements worded => .pure ⟨rfl, worded⟩
  | closure =>
    have moduleWord : IsWord Target.moduleName := by decide
    have completion : IsWord Target.completionName := by decide
    refine declaredAllTells fun own => ?_
    refine (bindingLinesWords (assignedInStmtsNames _ labelled) own).collected.bind fun lines linesWorded => ?_
    refine (fileStatementsWords labelled).bind fun statements worded => .pure ⟨rfl, ?_, ?_, trivial⟩
    · have returned : WordedStmts [.ret (.name Target.completionName)] := ⟨completion, trivial⟩
      exact ⟨moduleWord, nofun, by simp, wordedAppend (wordedAppend linesWorded worded) returned⟩
    · exact ⟨completion, moduleWord, trivial⟩

/-- Libraries declare words. -/
theorem librarySymbolsWords {s : State} (l : s.Labelled IsWord A K) : ∀ entry ∈ librarySymbols s, IsWord entry.1 := by
  intro entry member
  have inside := (List.mem_filter.mp member).1
  cases found : s.scopes[Typing.globalScope]? with
  | none => simp [found] at inside
  | some c =>
    have known : c.names[entry.1]? = some entry.2 := by
      rw [found] at inside
      exact Std.HashMap.mem_toList_iff_getElem?_eq_some.mp inside
    exact (l.scopes c (Array.mem_of_getElem? found) entry.1 entry.2 known).1

theorem emitFileWords {file : Source.SourceFile} (labelled : LabelledStmts IsWord A file.statements) {kind : ModuleKind}
    {s after : State} (l : s.Labelled IsWord A K) {code : Target.Module} (made : emitFile file kind s = .ok (code, after)) :
    after.Labelled IsWord A K ∧ code.source = file.name ∧ WordedStmts code.body := by
  unfold emitFile at made
  cases checked : (Check.checkFile file).run s with
  | error f =>
    rw [checked] at made
    cases made
  | ok r =>
    rw [checked] at made
    have typing := (Typing.checkFileKeeps labelled).keeps _ _ _ l checked
    simp only [Failure.ofFault, Except.mapError, bind, Except.bind] at made
    split at made
    next => cases made
    next lowered run =>
      cases made
      have start : Progress.Worded A K { typing := r.2, names := Names.start ((librarySymbols r.2).map (·.1)) } :=
        ⟨typing, nofun, by simp⟩
      obtain ⟨ends, code⟩ := lowerFileWords labelled kind _ _ _ _ (by exact librarySymbolsWords typing) start run
      exact ⟨ends.typing, code⟩

end Files

end Fragment.Emit
