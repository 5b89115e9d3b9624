import Fragment.Proofs.FieldsKept
import Fragment.Proofs.Layout

/-! Variables that are set before they are read.
What running code does is taken apart into tasks: to evaluate an expression and to run a statement. Each task comes after
another, in the world in which it starts. Code settles a variable if, in the order of its statements, none uses the variable
before one that sets it. Then whatever branches are taken and however often loops run, such a statement has been run to its
end wherever the variable is read, so it has a value there. -/
namespace Fragment.Target

/-- Something that running code has to do. -/
inductive Task where
  | expr (e : Expr)
  | exprs (es : List Expr)
  | stmt (s : Stmt)
  | stmts (ss : List Stmt)

/-- The parts of an expression that are evaluated first, from left to right. -/
def Expr.operands : Expr → List Expr
  | .none | .bool _ | .number _ | .text _ | .name _ => []
  | .dict entries => entries.map (·.2)
  | .list items => items
  | .subscript operand _ | .truthyBind _ operand | .await operand | .negate operand | .not operand | .bind _ operand
  | .and operand _ | .or operand _ | .cond operand _ _ => [operand]
  | .call callee args => callee :: args
  | .helper _ args => args
  | .binary _ left right => [left, right]

/-- The expression that a statement evaluates first. -/
def Stmt.operands : Stmt → List Expr
  | .assign _ value | .expr value | .ret value | .cond value _ _ | .loop value _ => [value]
  | _ => []

/-- A task in the world in which it starts comes after another. Whether the rounds of loops are bounded makes no
difference: a loop may go on for as long as its test holds. -/
inductive Comes (o : Outside) (fuel : Nat) (scopes : List Scope) : Task × World → Task × World → Prop
  | operands (e : Expr) (w : World) : Comes o fuel scopes (.expr e, w) (.exprs e.operands, w)
  | head (e : Expr) (es : List Expr) (w : World) : Comes o fuel scopes (.exprs (e :: es), w) (.expr e, w)
  | tail {e : Expr} {v : Value} {w u : World} (es : List Expr) : eval o scopes e w = .ok v u →
    Comes o fuel scopes (.exprs (e :: es), w) (.exprs es, u)
  | and {left : Expr} {v : Value} {w u : World} (right : Expr) : eval o scopes left w = .ok v u → isTrue u.store v = true →
    Comes o fuel scopes (.expr (.and left right), w) (.expr right, u)
  | or {left : Expr} {v : Value} {w u : World} (right : Expr) : eval o scopes left w = .ok v u → isTrue u.store v = false →
    Comes o fuel scopes (.expr (.or left right), w) (.expr right, u)
  | chosen {test : Expr} {v : Value} {w u : World} (yes no : Expr) : eval o scopes test w = .ok v u →
    Comes o fuel scopes (.expr (.cond test yes no), w) (.expr (if isTrue u.store v then yes else no), u)
  | evaluated (s : Stmt) (w : World) : Comes o fuel scopes (.stmt s, w) (.exprs s.operands, w)
  | branch {test : Expr} {v : Value} {w u : World} (yes : List Stmt) (no : Option (List Stmt)) :
    eval o scopes test w = .ok v u →
    Comes o fuel scopes (.stmt (.cond test yes no), w) (.stmts (if isTrue u.store v then yes else no.getD []), u)
  | body {test : Expr} {v : Value} {w u : World} (ss : List Stmt) : eval o scopes test w = .ok v u → isTrue u.store v = true →
    Comes o fuel scopes (.stmt (.loop test ss), w) (.stmts ss, u)
  | again {test : Expr} {ss : List Stmt} {v : Value} {flow : Flow} {w u u' : World} : eval o scopes test w = .ok v u →
    isTrue u.store v = true → execAll o fuel scopes ss u = .ok flow u' →
    Comes o fuel scopes (.stmt (.loop test ss), w) (.stmt (.loop test ss), u')
  | first (s : Stmt) (ss : List Stmt) (w : World) : Comes o fuel scopes (.stmts (s :: ss), w) (.stmt s, w)
  | rest {s : Stmt} {w u : World} (ss : List Stmt) : exec o fuel scopes s w = .ok .next u →
    Comes o fuel scopes (.stmts (s :: ss), w) (.stmts ss, u)

/-- The variable that a task reads itself. -/
def Task.reads? : Task → Option String
  | .expr (.name x) | .stmt (.collect x) => some x
  | _ => none

/-! Code that settles a variable -/

mutual

/-- A statement that does not use a variable before one that sets it; functions that it defines may. -/
def Stmt.Settles (sets : Stmt → Prop) (x : String) : Stmt → Prop
  | .assign _ value | .expr value | .ret value => value.Uses (· ≠ x)
  | .cond test yes no => test.Uses (· ≠ x) ∧ settlesIn sets x yes ∧ settlesInOption sets x no
  | .loop test body => test.Uses (· ≠ x) ∧ settlesIn sets x body
  | .collect y => y ≠ x
  | .brk | .cont | .pass | .globals _ | .nonlocals _ | .define .. => True

/-- Statements that use a variable only after one among them that sets it. -/
def settlesIn (sets : Stmt → Prop) (x : String) : List Stmt → Prop
  | [] => True
  | s :: rest => s.Settles sets x ∧ (sets s ∨ settlesIn sets x rest)

def settlesInOption (sets : Stmt → Prop) (x : String) : Option (List Stmt) → Prop
  | none => True
  | some body => settlesIn sets x body

end

section Settles

variable {sets : Stmt → Prop} {x : String}

theorem settlesAppend {xs ys : List Stmt} (first : settlesIn sets x xs) (rest : (∃ s ∈ xs, sets s) ∨ settlesIn sets x ys) :
    settlesIn sets x (xs ++ ys) := by
  induction xs with
  | nil => exact rest.resolve_left (by simp)
  | cons s xs ih =>
    refine ⟨first.1, or_iff_not_imp_left.mpr fun other => ih (first.2.resolve_left other) ?_⟩
    refine rest.imp_left fun ⟨t, member, set⟩ => ?_
    rcases List.mem_cons.mp member with rfl | later
    · exact absurd set other
    · exact ⟨t, later, set⟩

/-- A task that uses a variable only after a statement that sets it. -/
def Task.Settles (sets : Stmt → Prop) (x : String) : Task → Prop
  | .expr e => e.Uses (· ≠ x)
  | .exprs es => usesAll (· ≠ x) es
  | .stmt s => s.Settles sets x
  | .stmts ss => settlesIn sets x ss

theorem entriesUse {P : String → Prop} {entries : List (String × Expr)} (uses : usesEntries P entries) :
    usesAll P (entries.map (·.2)) := by
  induction entries with
  | nil => trivial
  | cons entry rest ih => exact ⟨uses.1, ih uses.2⟩

theorem operandsUse {P : String → Prop} (e : Expr) (uses : e.Uses P) : usesAll P e.operands := by
  cases e with
  | none | bool | number | text | name => trivial
  | dict entries => exact entriesUse uses
  | list | helper => exact uses
  | subscript | await | negate | not => exact ⟨uses, trivial⟩
  | truthyBind | bind => exact ⟨uses.2, trivial⟩
  | call => exact uses
  | binary => exact ⟨uses.1, uses.2, trivial⟩
  | and | or | cond => exact ⟨uses.1, trivial⟩

theorem Stmt.Settles.operands {s : Stmt} (settles : s.Settles sets x) : usesAll (· ≠ x) s.operands := by
  cases s with
  | assign | expr | ret => exact ⟨settles, trivial⟩
  | cond | loop => exact ⟨settles.1, trivial⟩
  | _ => trivial

/-- A task that reads a variable itself does not settle it. -/
theorem Task.Settles.other {t : Task} (settles : t.Settles sets x) : t.reads? ≠ some x := by
  intro reads
  unfold Task.reads? at reads
  split at reads
  · cases reads
    exact settles rfl
  · cases reads
    exact settles rfl
  · cases reads

end Settles

/-! Variables with values -/

/-- Whether a statement is an assignment to a variable. -/
def Stmt.assigns (x : String) : Stmt → Prop
  | .assign y _ => y = x
  | _ => False

/-- The calls around are among those that have been made. -/
def World.Holds (w : World) (scopes : List Scope) : Prop := ∀ s ∈ scopes, s.frame < w.frames.size

/-- Reading the variable gives a value. -/
def World.Gives (w : World) (scopes : List Scope) (x : String) : Prop := ∃ v, readName scopes x w = .ok v w

section Gives

variable {scopes : List Scope} {x : String} {w u : World}

theorem givesIff : w.Gives scopes x ↔ match holder? scopes x with
    | some (frame, _) => ((w.frames.getD frame []).lookup x).isSome
    | none => (w.globals.lookup x).isSome := by
  unfold World.Gives
  rw [readRun]
  cases holder? scopes x with
  | none => cases w.globals.lookup x <;> simp
  | some found =>
    dsimp only
    cases (w.frames.getD found.1 []).lookup x <;> simp

theorem Kept.holds (kept : Kept w u) (holds : w.Holds scopes) : u.Holds scopes :=
  fun s member => Nat.lt_of_lt_of_le (holds s member) kept.calls

theorem Kept.gives (kept : Kept w u) (gives : w.Gives scopes x) : u.Gives scopes x := by
  rw [givesIff] at gives ⊢
  split
  next frame own found =>
    rw [found] at gives
    exact kept.locals frame x gives
  next found =>
    rw [found] at gives
    exact kept.globals x gives

theorem Keeps.ends {α : Type} {m : Run α} (keeps : Keeps m) {a : α} (run : m w = .ok a u) : Kept w u := by
  have kept := keeps w
  rwa [worldAfter, run] at kept

theorem frameAround {frame : Nat} (found : frameOf? scopes x = some frame) : ∃ s ∈ scopes, s.frame = frame := by
  induction scopes with
  | nil => cases found
  | cons s rest ih =>
    unfold frameOf? at found
    split at found
    · exact ⟨s, List.mem_cons_self, Option.some.inj found⟩
    · split at found
      · cases found
      · obtain ⟨t, member, same⟩ := ih found
        exact ⟨t, List.mem_cons_of_mem s member, same⟩

/-- A variable has a value once it has been written. -/
theorem writtenGives {v : Value} (holds : w.Holds scopes) (run : writeName scopes x v w = .ok () u) : u.Gives scopes x := by
  rw [writeRun] at run
  obtain rfl := (EStateM.Result.ok.inj run).2
  rw [givesIff]
  cases found : holder? scopes x with
  | none => simp [lookupPut]
  | some holder =>
    obtain ⟨frame, own⟩ := holder
    obtain ⟨_, there, same⟩ := Option.map_eq_some_iff.mp found
    cases same
    obtain ⟨s, member, rfl⟩ := frameAround there
    have made : s.frame < w.frames.size := holds s member
    have written : (w.frames.modify s.frame (·.put x v)).getD s.frame [] = w.frames[s.frame].put x v := by
      simp only [Array.getD_eq_getD_getElem?, Array.getElem?_modify, if_pos, Array.getElem?_eq_getElem made, Option.map_some,
        Option.getD_some]
    simp only [written, lookupPut, if_pos, Option.isSome_some]

theorem assignedGives {o : Outside} {fuel : Nat} (kept : o.Keeps) {s : Stmt} {flow : Flow} (holds : w.Holds scopes)
    (assigns : s.assigns x) (run : exec o fuel scopes s w = .ok flow u) : u.Gives scopes x := by
  cases s with
  | assign y value =>
    obtain rfl : y = x := assigns
    obtain ⟨v, t, evaluated, run⟩ := bindEnds run
    obtain ⟨⟨⟩, t', wrote, run⟩ := bindEnds run
    cases run
    exact writtenGives (((evalKeeps kept scopes value).ends evaluated).holds holds) wrote
  | _ => exact absurd assigns id

end Gives

/-! Runs -/

section Runs

/- How code runs, and the statements that set a variable. -/
variable {o : Outside} {fuel : Nat} {scopes : List Scope} {sets : Stmt → Prop} {x : String}

/-- Between two points of a run one of the given statements is run to its end. -/
def Passes (o : Outside) (fuel : Nat) (scopes : List Scope) (sets : Stmt → Prop) (p q : Task × World) : Prop :=
  ∃ s rest w u, sets s ∧ Relation.ReflTransGen (Comes o fuel scopes) p (.stmts (s :: rest), w) ∧
    exec o fuel scopes s w = .ok .next u ∧ Relation.ReflTransGen (Comes o fuel scopes) (.stmts rest, u) q

theorem Passes.tail {p q r : Task × World} (passes : Passes o fuel scopes sets p q) (comes : Comes o fuel scopes q r) :
    Passes o fuel scopes sets p r := by
  obtain ⟨s, rest, w, u, set, before, ran, after⟩ := passes
  exact ⟨s, rest, w, u, set, before, ran, after.tail comes⟩

/-- Where a task starts, the variable has been set or the task settles it. -/
structure Ready (o : Outside) (fuel : Nat) (scopes : List Scope) (sets : Stmt → Prop) (x : String) (start p : Task × World) :
    Prop where
  reached : Relation.ReflTransGen (Comes o fuel scopes) start p
  holds : p.2.Holds scopes
  set : (Passes o fuel scopes sets start p ∧ p.2.Gives scopes x) ∨ p.1.Settles sets x

section Ready

variable {start p q : Task × World}

/-- What a task does next starts no worse: a later world has all that an earlier one has. -/
theorem Ready.later (ready : Ready o fuel scopes sets x start p) (comes : Comes o fuel scopes p q) (kept : Kept p.2 q.2)
    (settles : p.1.Settles sets x → (Passes o fuel scopes sets start q ∧ q.2.Gives scopes x) ∨ q.1.Settles sets x) :
    Ready o fuel scopes sets x start q where
  reached := ready.reached.tail comes
  holds := kept.holds ready.holds
  set := ready.set.elim (fun set => .inl ⟨set.1.tail comes, kept.gives set.2⟩) settles

theorem Ready.comes (kept : o.Keeps) (assigns : ∀ s, sets s → s.assigns x) (ready : Ready o fuel scopes sets x start p)
    (comes : Comes o fuel scopes p q) : Ready o fuel scopes sets x start q := by
  have keeps {e : Expr} {v : Value} {w u : World} (run : eval o scopes e w = .ok v u) : Kept w u :=
    (evalKeeps kept scopes e).ends run
  cases id comes with
  | operands e w => exact ready.later comes (.refl w) fun settles => .inr (operandsUse e settles)
  | head e es w => exact ready.later comes (.refl w) fun settles => .inr settles.1
  | tail es run => exact ready.later comes (keeps run) fun settles => .inr settles.2
  | and right run => exact ready.later comes (keeps run) fun settles => .inr settles.2
  | or right run => exact ready.later comes (keeps run) fun settles => .inr settles.2
  | chosen yes no run =>
    refine ready.later comes (keeps run) fun settles => .inr ?_
    dsimp only
    split
    · exact settles.2.1
    · exact settles.2.2
  | evaluated s w => exact ready.later comes (.refl w) fun settles => .inr settles.operands
  | branch yes no run =>
    refine ready.later comes (keeps run) fun settles => .inr ?_
    dsimp only
    split
    · exact settles.2.1
    · cases no with
      | none => trivial
      | some ss => exact settles.2.2
  | body ss run holds => exact ready.later comes (keeps run) fun settles => .inr settles.2
  | again run holds ran =>
    exact ready.later comes ((keeps run).trans ((execAllKeeps kept scopes fuel _).ends ran)) fun settles => .inr settles
  | first s ss w => exact ready.later comes (.refl w) fun settles => .inr settles.1
  | rest ss ran =>
    refine ready.later comes ((execKeeps kept scopes fuel _).ends ran) fun settles => settles.2.imp_left fun set => ?_
    exact ⟨⟨_, ss, _, _, set, ready.reached, ran, .refl⟩, assignedGives kept ready.holds (assigns _ set) ran⟩

end Ready

/-- In every run of code that settles a variable, the variable is read only after a statement that sets it has been run to
its end, and it has a value there. -/
theorem settledReads (kept : o.Keeps) (assigns : ∀ s, sets s → s.assigns x) {ss : List Stmt} {t : Task} {w u : World}
    (settles : settlesIn sets x ss) (holds : w.Holds scopes)
    (reached : Relation.ReflTransGen (Comes o fuel scopes) (.stmts ss, w) (t, u)) (reads : t.reads? = some x) :
    Passes o fuel scopes sets (.stmts ss, w) (t, u) ∧ u.Gives scopes x := by
  have ready {q : Task × World} (reached : Relation.ReflTransGen (Comes o fuel scopes) (.stmts ss, w) q) :
      Ready o fuel scopes sets x (.stmts ss, w) q := by
    induction reached with
    | refl => exact ⟨.refl, holds, .inr settles⟩
    | tail _ comes before => exact before.comes kept assigns comes
  exact (ready reached).set.resolve_right fun settles => settles.other reads

end Runs

end Fragment.Target
