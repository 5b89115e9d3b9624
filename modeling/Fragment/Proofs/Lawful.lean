import Mathlib.Data.List.Nodup
import Fragment.Proofs.Making
import Fragment.Target.Legality

/-! Code that keeps the rules.
The rules for parameters and for names from functions around are checked line by line. Here code keeps
them wherever it stands, so that code can be put together from parts that do. -/
namespace Fragment.Target

/-- Code that breaks no rule inside functions with some variables. -/
def Lawful (around : List String) (ss : List Stmt) : Prop :=
  ∀ line, paramViolationIn line ss = none ∧ nameViolationIn around line ss = none

/-- Whether a statement says where names come from. -/
def Stmt.isBorrow : Stmt → Bool
  | .globals _ | .nonlocals _ => true
  | _ => false

/-- Code in which no statement says where names come from, functions in it apart. -/
def Quiet (ss : List Stmt) : Prop := ∀ s ∈ ss, s.isBorrow = false

section Lawful

variable {around : List String} {xs ys : List Stmt}

theorem Lawful.nil : Lawful around [] := fun _ => ⟨rfl, rfl⟩

theorem Lawful.single {s : Stmt} (params : ∀ line, s.paramViolation line = none)
    (names : ∀ line, s.nameViolation around line = none) : Lawful around [s] := by
  intro line
  simp [paramViolationIn, nameViolationIn, params line, names line]

theorem paramsAppend {line : Nat} (first : paramViolationIn line xs = none)
    (rest : ∀ line, paramViolationIn line ys = none) :
    paramViolationIn line (xs ++ ys) = none := by
  induction xs generalizing line with
  | nil => exact rest line
  | cons s xs ih =>
    simp only [paramViolationIn, List.cons_append, Option.or_eq_none_iff] at first ⊢
    exact ⟨first.1, ih first.2⟩

theorem namesAppend {line : Nat} (first : nameViolationIn around line xs = none)
    (rest : ∀ line, nameViolationIn around line ys = none) : nameViolationIn around line (xs ++ ys) = none := by
  induction xs generalizing line with
  | nil => exact rest line
  | cons s xs ih =>
    simp only [nameViolationIn, List.cons_append, Option.or_eq_none_iff] at first ⊢
    exact ⟨first.1, ih first.2⟩

theorem Lawful.append (first : Lawful around xs) (rest : Lawful around ys) : Lawful around (xs ++ ys) :=
  fun line => ⟨paramsAppend (first line).1 fun line => (rest line).1, namesAppend (first line).2 fun line => (rest line).2⟩

theorem Lawful.cond (test : Expr) {no : Option (List Stmt)} (yes : Lawful around xs)
    (otherwise : ∀ body ∈ no, Lawful around body) : Lawful around [.cond test xs no] := by
  cases no with
  | none =>
    exact .single (fun line => by simp [Stmt.paramViolation, (yes _).1, paramViolationInOption])
      fun line => by simp [Stmt.nameViolation, (yes _).2, nameViolationInOption]
  | some body =>
    have other := otherwise body rfl
    exact .single (fun line => by simp [Stmt.paramViolation, (yes _).1, paramViolationInOption, (other _).1])
      fun line => by simp [Stmt.nameViolation, (yes _).2, nameViolationInOption, (other _).2]

theorem Lawful.loop (test : Expr) (body : Lawful around xs) : Lawful around [.loop test xs] :=
  .single (fun _ => (body _).1) fun _ => (body _).2

theorem Quiet.append (first : Quiet xs) (rest : Quiet ys) : Quiet (xs ++ ys) := by
  intro s member
  rcases List.mem_append.mp member with member | member
  · exact first s member
  · exact rest s member

theorem startQuiet (quiet : Quiet xs) (line : Nat) : nameViolationAt around line xs = none := by
  cases xs with
  | nil => rfl
  | cons s xs =>
    have plain := quiet s (by simp)
    cases s <;> first | rfl | cases plain

theorem borrowedQuiet (quiet : Quiet xs) : borrowed xs = [] := by
  refine List.flatMap_eq_nil_iff.mpr fun s member => ?_
  have plain := quiet s member
  cases s <;> first | rfl | cases plain

end Lawful

open Emit (borrowLines sortedNames)

theorem borrowedLines (globals nonlocals : List String) {rest : List Stmt} (quiet : Quiet rest) (x : String) :
    x ∈ borrowed (borrowLines globals nonlocals ++ rest) ↔ x ∈ globals ∨ x ∈ nonlocals := by
  have none := borrowedQuiet quiet
  simp only [borrowed] at none ⊢
  rw [List.flatMap_append, none, List.append_nil]
  simp only [borrowLines]
  cases globals <;> cases nonlocals <;> simp [sortedNames, List.mem_mergeSort]

/-- A function keeps the rules if its parameters do, if the names that it takes from functions around are
there, and if its statements do where its own variables are there as well. -/
theorem Lawful.define {around globals nonlocals : List String} {params : List Param} {rest : List Stmt} (name : String)
    (isAsync : Bool) (ordered : paramFault false false params = none) (known : nonlocals ⊆ around) (quiet : Quiet rest)
    (inside : Lawful (localNames params (borrowLines globals nonlocals ++ rest) ++ around) rest) :
    Lawful around [.define name isAsync params (borrowLines globals nonlocals ++ rest)] := by
  have taken {names : List String} (there : nonlocals ⊆ names) (line : Nat) :
      (Stmt.nonlocals (sortedNames nonlocals)).nameViolation names line = none := by
    unfold Stmt.nameViolation
    simp only [Option.map_eq_none_iff, List.find?_eq_none]
    intro x member
    simpa using there (List.mem_mergeSort.mp member)
  have start (line : Nat) : nameViolationAt around line (borrowLines globals nonlocals ++ rest) = none := by
    have quietStart (line : Nat) : nameViolationAt around line rest = none := startQuiet quiet line
    simp only [borrowLines]
    split <;> split <;> simp [nameViolationAt, quietStart, taken known]
  have lines (own : List String) : Lawful (own ++ around) (borrowLines globals nonlocals) := by
    refine .append ?_ ?_
    · split
      · exact .nil
      · exact .single (fun _ => rfl) fun _ => rfl
    · split
      · exact .nil
      · exact .single (fun _ => rfl) (taken fun x member => List.mem_append_right _ (known member))
  have whole := (lines (localNames params (borrowLines globals nonlocals ++ rest))).append inside
  refine .single (fun line => ?_) fun line => ?_
  · unfold Stmt.paramViolation
    simp only [ordered]
    exact (whole _).1
  · unfold Stmt.nameViolation
    simp only [Option.or_eq_none_iff]
    exact ⟨start _, (whole _).2⟩

end Fragment.Target

/-! The names that a function takes from elsewhere.
Each symbol has a name of its own. A function that assigns symbols which it does not declare begins
with their names: in one line those of libraries and, in a script, of the file, in another line those
of functions around it. -/
namespace Fragment.Emit

open Typing (SymbolId)

open Lowering

/-- The name that a symbol has. -/
def Context.named? (c : Context) (n : Names) (x : SymbolId) : Option String :=
  (c.libraryName? x).or (n.symbols.lookup x)

/-- Libraries have different names, and symbols have been given names apart from these and from one another. -/
structure Distinct (c : Context) (n : Names) : Prop where
  libraries : (c.librarySymbols.map (·.1)).Nodup
  taken : ∀ s ∈ c.librarySymbols, s.1 ∈ n.used
  given : ∀ s ∈ n.symbols, s.2 ∈ n.used ∧ ∀ t ∈ c.librarySymbols, t.1 ≠ s.2
  apart : ∀ s ∈ n.symbols, ∀ t ∈ n.symbols, s.2 = t.2 → s.1 = t.1

section Names

variable {c : Context} {n : Names}

theorem libraryNameEntry {x : SymbolId} {a : String} (h : c.libraryName? x = some a) : (a, x) ∈ c.librarySymbols := by
  obtain ⟨s, found, rfl⟩ := Option.map_eq_some_iff.mp h
  have same := List.find?_some found
  simp only [decide_eq_true_eq] at same
  exact same ▸ List.mem_of_find?_eq_some found

theorem lookupEntry {x : SymbolId} {a : String} (h : n.symbols.lookup x = some a) : (x, a) ∈ n.symbols := by
  obtain ⟨_, _, split, _⟩ := List.lookup_eq_some_iff.mp h
  simp [split]

theorem namedInjective (distinct : Distinct c n) {x y : SymbolId} {a : String} (hx : c.named? n x = some a)
    (hy : c.named? n y = some a) : x = y := by
  simp only [Context.named?, Option.or_eq_some_iff] at hx hy
  rcases hx with hx | ⟨_, hx⟩ <;> rcases hy with hy | ⟨_, hy⟩
  · exact congrArg Prod.snd (List.inj_on_of_nodup_map distinct.libraries (libraryNameEntry hx) (libraryNameEntry hy) rfl)
  · exact absurd rfl ((distinct.given _ (lookupEntry hy)).2 _ (libraryNameEntry hx))
  · exact absurd rfl ((distinct.given _ (lookupEntry hx)).2 _ (libraryNameEntry hy))
  · exact distinct.apart _ (lookupEntry hx) _ (lookupEntry hy) rfl

theorem startDistinct (libraries : (c.librarySymbols.map (·.1)).Nodup) :
    Distinct c (Names.start (c.librarySymbols.map (·.1))) where
  libraries := libraries
  taken s hs := List.mem_append_right _ (List.mem_map_of_mem hs)
  given := by simp [Names.start]
  apart := by simp [Names.start]

theorem temporaryDistinct (distinct : Distinct c n) (label : String) : Distinct c (n.temporary label).2 where
  libraries := distinct.libraries
  taken s hs := List.mem_cons_of_mem _ (distinct.taken s hs)
  given s hs := ⟨List.mem_cons_of_mem _ (distinct.given s hs).1, (distinct.given s hs).2⟩
  apart := distinct.apart

/-- A symbol gets a name that nothing has, and the names given before stay. -/
theorem forSymbolDistinct (distinct : Distinct c n) {x : SymbolId} {first name : String} {names : Names}
    (h : n.forSymbol x first = some (name, names)) : Distinct c names ∧ names.symbols.lookup x = some name ∧
      ∀ y b, n.symbols.lookup y = some b → names.symbols.lookup y = some b := by
  simp only [Names.forSymbol] at h
  split at h
  case h_1 known found =>
    cases h
    exact ⟨distinct, found, fun _ _ h => h⟩
  case h_2 unknown =>
    obtain ⟨free, found, same⟩ := Option.map_eq_some_iff.mp h
    cases same
    have unused : name ∉ n.used := by
      have := freeFromFree found
      simp only [Names.isFree, Bool.and_eq_true, Bool.not_eq_true', List.contains_eq_mem, decide_eq_false_iff_not] at this
      exact this.1.1
    have other : ∀ s ∈ n.symbols, s.2 ≠ name := fun s hs same => unused (same ▸ (distinct.given s hs).1)
    refine ⟨⟨distinct.libraries, fun s hs => List.mem_cons_of_mem _ (distinct.taken s hs), ?_, ?_⟩, by simp, ?_⟩
    · intro s hs
      rcases List.mem_cons.mp hs with rfl | old
      · refine ⟨List.mem_cons_self, fun t ht same => unused ?_⟩
        rw [← show t.1 = name from same]
        exact distinct.taken t ht
      · exact ⟨List.mem_cons_of_mem _ (distinct.given s old).1, (distinct.given s old).2⟩
    · intro s hs t ht same
      rcases List.mem_cons.mp hs with rfl | oldS <;> rcases List.mem_cons.mp ht with rfl | oldT
      · rfl
      · exact absurd same.symm (other t oldT)
      · exact absurd same (other s oldS)
      · exact distinct.apart s oldS t oldT same
    · intro y b known
      have differs : y ≠ x := by
        rintro rfl
        simp [unknown] at known
      simpa [List.lookup_cons, beq_eq_false_iff_ne.mpr differs] using known

end Names

/-! Names while code is made -/

/-- What happens to names: they stay distinct and are kept, and neither the checker nor the statements change. -/
structure Continues (c : Context) (p q : Progress) : Prop where
  distinct : Distinct c q.names
  kept : ∀ x a, c.named? p.names x = some a → c.named? q.names x = some a
  typing : q.typing = p.typing
  made : q.made = p.made

section Continues

variable {c : Context} {p q r : Progress}

theorem Continues.refl (distinct : Distinct c p.names) : Continues c p p := ⟨distinct, fun _ _ h => h, rfl, rfl⟩

theorem Continues.trans (first : Continues c p q) (later : Continues c q r) : Continues c p r where
  distinct := later.distinct
  kept x a h := later.kept x a (first.kept x a h)
  typing := later.typing.trans first.typing
  made := later.made.trans first.made

theorem givenNameRun {x : SymbolId} (own : c.libraryName? x = none) (p : Progress) :
    nameOf x c p = match p.names.forSymbol x (p.typing.symbol x).name with
      | some (name, names) => .ok (name, { p with names })
      | none => .error (.fault .exhausted) := by
  have asked : ask (Typing.Check.symbol x) c p = .ok (p.typing.symbol x, p) := rfl
  simp only [nameOf, bindRun, readRun, own, asked, getRun]
  cases p.names.forSymbol x (p.typing.symbol x).name <;> rfl

theorem nameOfContinues (distinct : Distinct c p.names) {x : SymbolId} {a : String} (run : nameOf x c p = .ok (a, q)) :
    Continues c p q ∧ c.named? q.names x = some a := by
  cases isLibrary : c.libraryName? x with
  | some name =>
    rw [libraryNameRun isLibrary] at run
    cases run
    exact ⟨Continues.refl distinct, by simp [Context.named?, isLibrary]⟩
  | none =>
    rw [givenNameRun isLibrary] at run
    split at run
    case h_2 => cases run
    case h_1 name names given =>
      cases run
      obtain ⟨distinct, has, kept⟩ := forSymbolDistinct distinct given
      refine ⟨⟨distinct, fun y b h => ?_, rfl, rfl⟩, by simp [Context.named?, isLibrary, has]⟩
      simp only [Context.named?, Option.or_eq_some_iff] at h ⊢
      exact h.imp id fun ⟨other, known⟩ => ⟨other, kept y b known⟩

theorem placedNamesContinue (foreign : List SymbolId) {p q : Progress} (distinct : Distinct c p.names)
    {named : List (Bool × String)} (run : placedNames c foreign c p = .ok (named, q)) :
    Continues c p q ∧ (∀ x ∈ foreign, ∃ a, c.named? q.names x = some a ∧ (c.isOutermost x, a) ∈ named) ∧
      ∀ r ∈ named, ∃ x ∈ foreign, r.1 = c.isOutermost x ∧ c.named? q.names x = some r.2 := by
  induction foreign generalizing p named with
  | nil =>
    cases run
    exact ⟨Continues.refl distinct, by simp, by simp⟩
  | cons x rest ih =>
    obtain ⟨a, r, names, first, later, rfl⟩ := placedNamesCons run
    obtain ⟨continues, has⟩ := nameOfContinues distinct first
    obtain ⟨more, all, only⟩ := ih continues.distinct later
    have here := more.kept x a has
    refine ⟨continues.trans more, ?_, ?_⟩
    · intro y hy
      rcases List.mem_cons.mp hy with rfl | hy
      · exact ⟨a, here, List.mem_cons_self⟩
      · obtain ⟨b, known, member⟩ := all y hy
        exact ⟨b, known, List.mem_cons_of_mem _ member⟩
    · intro r hr
      rcases List.mem_cons.mp hr with rfl | hr
      · exact ⟨x, List.mem_cons_self, rfl, here⟩
      · obtain ⟨y, member, known⟩ := only r hr
        exact ⟨y, List.mem_cons_of_mem _ member, known⟩

end Continues

def plainMark (id : Nat) : Source.Mark := ⟨id, ⟨⟨1, 1⟩, ⟨1, 1⟩⟩⟩

/-- A library declares `innerWidth`, the file `total`, and a function `count`. -/
def countTyping : Typing.State :=
  let symbol (name : String) : Typing.Symbol := { flags := Typing.SymbolFlags.functionVariable, name }
  { Typing.State.initial with
    symbols := Typing.State.initial.symbols ++ #[symbol "innerWidth", symbol "total", symbol "count"]
    resolvedSymbols := ((({} : Std.HashMap Nat SymbolId).insert 0 1).insert 1 2).insert 2 3 }

def countContext : Context := { kind := .script, librarySymbols := [("innerWidth", 1)], moduleSymbols := [2] }

def countStart : Progress := { typing := countTyping, names := ((Names.start ["innerWidth"]).temporary Temporary.function.label).2 }

theorem countSymbols : ([0, 1, 2].map plainMark).filterMap (symbolAt countTyping) = [1, 2, 3] := by
  simp [symbolAt, countTyping, plainMark, Std.HashMap.getElem_insert]

theorem countForeign : foreignSymbols countTyping ([0, 1, 2].map plainMark) [] = [1, 2, 3] := by
  rw [foreignSymbols, countSymbols]
  decide

theorem countRun : ∃ q, bindingLines ([0, 1, 2].map plainMark) [] countContext countStart = .ok ((), q) := by
  simp only [bindingLines, bindRun, symbolsAtRun]
  rw [show countStart.typing = countTyping from rfl, countSymbols]
  exact ⟨_, rfl⟩

/-- A function outside of all others takes no names from functions around it. -/
theorem legalBorrows {globals nonlocals : List String} {rest : List Target.Stmt} {line : Nat}
    (legal : Target.nameViolationAt [] line (borrowLines globals nonlocals ++ rest) = none) : nonlocals = [] := by
  refine Decidable.byContradiction fun some => ?_
  have line (start : Nat) (h : (Target.Stmt.nonlocals (sortedNames nonlocals)).nameViolation [] start = none) : False := by
    unfold Target.Stmt.nameViolation at h
    simp only [Option.map_eq_none_iff, List.find?_eq_none] at h
    obtain ⟨x, hx⟩ := List.exists_mem_of_ne_nil nonlocals some
    exact h x (List.mem_mergeSort.mpr hx) (by simp)
  have lines : borrowLines globals nonlocals =
      (if globals.isEmpty then [] else [.globals (sortedNames globals)]) ++ [.nonlocals (sortedNames nonlocals)] := by
    simp [borrowLines, some]
  rw [lines] at legal
  split at legal
  · exact line _ legal
  · exact line _ legal

/-! A variable of a library that has the name of an interface of the file -/

/-- A library declares the variable `innerWidth`, and the file an interface of this name. -/
def mergedTyping : Typing.State :=
  { Typing.State.initial with
    symbols := Typing.State.initial.symbols.push
      { flags := Typing.SymbolFlags.functionVariable ||| Typing.SymbolFlags.interface, name := "innerWidth",
        declarations := [.variable (.mk (plainMark 5) "innerWidth" none none), .interface (plainMark 6) [] [] []] }
    scopes := #[{ parent := none, names := ({} : Std.HashMap String SymbolId).insert "innerWidth" 1 }]
    fileOf := (({} : Std.HashMap Nat String).insert 5 (libraryPath "dom")).insert 6 rootPath
    resolvedSymbols := ({} : Std.HashMap Nat SymbolId).insert 0 1 }

theorem mergedLibraries : librarySymbols mergedTyping = [] := by
  have names : (({} : Std.HashMap String SymbolId).insert "innerWidth" 1).toList = [("innerWidth", 1)] := by
    refine List.perm_singleton.mp (Std.HashMap.toList_insert_perm.trans ?_)
    simp
  have root : mergedTyping.fileOf[6]? = some rootPath := by simp [mergedTyping]
  simp only [librarySymbols]
  change List.filter _ (({} : Std.HashMap String SymbolId).insert "innerWidth" 1).toList = _
  rw [names, List.filter_cons, if_neg]
  · rfl
  · change ¬ (_ && _ && _ && (_ && ((mergedTyping.fileOf[6]?).any _ && _))) = true
    rw [root]
    have own : Source.isDeclarationName rootPath = false := by decide +kernel
    simp [own]

/-- What is known in a script without declarations of its own. -/
def mergedContext : Context := { kind := .script, librarySymbols := librarySymbols mergedTyping, moduleSymbols := [] }

def mergedStart : Progress := { typing := mergedTyping, names := Names.start ((librarySymbols mergedTyping).map (·.1)) }

theorem mergedForeign : foreignSymbols mergedTyping [plainMark 0] [] = [1] := by
  have symbol : symbolAt mergedTyping (plainMark 0) = some 1 := by simp [symbolAt, mergedTyping, plainMark]
  simp only [foreignSymbols, List.filterMap_cons, symbol, List.filterMap_nil]
  decide

theorem mergedRun : ∃ q, bindingLines [plainMark 0] [] mergedContext mergedStart = .ok ((), q) := by
  have symbol : symbolAt mergedTyping (plainMark 0) = some 1 := by simp [symbolAt, mergedTyping, plainMark]
  simp only [bindingLines, bindRun, symbolsAtRun, mergedContext, mergedStart, mergedLibraries, List.filterMap_cons, symbol]
  exact ⟨_, rfl⟩

end Fragment.Emit
