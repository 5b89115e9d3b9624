import Fragment.Target.Machine

/-! How code runs, step by step: what a step that ends has been through, and what variables hold. -/
namespace Fragment.Target

section Ends

variable {α β : Type} {m : Run α} {k : α → Run β} {w u : World}

theorem bindEnds {b : β} (run : (m >>= k) w = .ok b u) : ∃ a v, m w = .ok a v ∧ k a v = .ok b u := by
  simp only [bind, EStateM.bind] at run
  cases ended : m w with
  | error f v => simp [ended] at run
  | ok a v => exact ⟨a, v, rfl, by simpa [ended] using run⟩

theorem bindRuns {a : α} (ended : m w = .ok a u) : (m >>= k) w = k a u := by
  simp only [bind, EStateM.bind, ended]

end Ends

/-! Variables -/

theorem lookupCons (f : Frame) (x y : String) (v : Value) :
    List.lookup y ((x, v) :: f) = if y = x then some v else f.lookup y := by
  by_cases e : y = x
  · simp [e]
  · have differ : (y == x) = false := beq_false_of_ne e
    simp [List.lookup_cons, differ, e]

theorem lookupPut (f : Frame) (x y : String) (v : Value) :
    (f.put x v).lookup y = if y = x then some v else f.lookup y := by
  induction f with
  | nil =>
    unfold Frame.put
    simp [lookupCons]
  | cons g rest ih =>
    obtain ⟨z, u⟩ := g
    simp only [Frame.put, beq_iff_eq]
    split
    case isTrue same =>
      subst same
      simp only [lookupCons]
      split <;> rfl
    case isFalse other =>
      simp only [lookupCons, ih]
      by_cases e : y = z
      · subst e; simp [other]
      · simp [e]

theorem readRun (ss : List Scope) (x : String) (w : World) :
    readName ss x w = match holder? ss x with
      | some (f, own) => match (w.frames.getD f []).lookup x with
        | some v => .ok v w
        | none => .error (if own then .unboundLocal else .name) w
      | none => match w.globals.lookup x with
        | some v => .ok v w
        | none => .error .name w := by
  unfold readName
  rw [bindRuns (show (get : Run World) w = .ok w w from rfl)]
  cases holder? ss x with
  | none => cases w.globals.lookup x <;> rfl
  | some found =>
    obtain ⟨f, own⟩ := found
    dsimp only
    cases (w.frames.getD f []).lookup x <;> rfl

theorem writeRun (ss : List Scope) (x : String) (v : Value) (w : World) :
    writeName ss x v w = .ok () (match holder? ss x with
      | some (f, _) => { w with frames := w.frames.modify f (Frame.put · x v) }
      | none => { w with globals := w.globals.put x v }) := rfl

/-- A variable that has just been written gives its value. -/
theorem readWritten {ss : List Scope} {x : String} {v r : Value} {w u u' : World}
    (wrote : writeName ss x v w = .ok () u) (read : readName ss x u = .ok r u') : r = v := by
  rw [writeRun] at wrote
  obtain rfl := (EStateM.Result.ok.inj wrote).2
  rw [readRun] at read
  split at read
  case h_1 f own _ =>
    simp only [Array.getD_eq_getD_getElem?, Array.getElem?_modify, if_true] at read
    cases stored : w.frames[f]? with
    | none => simp [stored] at read
    | some frame =>
      simp only [stored, Option.map_some, Option.getD_some, lookupPut, if_true] at read
      exact (EStateM.Result.ok.inj read).1.symm
  case h_2 =>
    simp only [lookupPut, if_true] at read
    exact (EStateM.Result.ok.inj read).1.symm

end Fragment.Target

/-! Code that only reads.
Evaluating it leaves the world as it was. Reading a property is not among it: a member function that is found
becomes a function of its own. -/
namespace Fragment.Target

def Helper.onlyReads : Helper → Bool
  | .getMember | .index | .setMember => false
  | _ => true

mutual

def Expr.onlyReads : Expr → Bool
  | .none | .bool _ | .number _ | .text _ | .name _ => true
  | .helper h args => h.onlyReads && allOnlyRead args
  | .subscript target _ => target.onlyReads
  | .negate operand | .not operand => operand.onlyReads
  | .binary op left right => op ≠ .add && op ≠ .mul && left.onlyReads && right.onlyReads
  | .and left right | .or left right => left.onlyReads && right.onlyReads
  | .cond test yes no => test.onlyReads && yes.onlyReads && no.onlyReads
  | .dict _ | .list _ | .call .. | .truthyBind .. | .await _ | .bind .. => false

def allOnlyRead : List Expr → Bool
  | [] => true
  | e :: rest => e.onlyReads && allOnlyRead rest

end

/-- A step that leaves the world as it is, if it ends. -/
def Still {α : Type} (m : Run α) : Prop := ∀ w a u, m w = .ok a u → u = w

section Still

variable {α β : Type} {m : Run α} {k : α → Run β}

theorem Still.pure (a : α) : Still (pure a) := by
  intro w b u run
  cases run
  rfl

theorem Still.throw (f : Fault) : Still (throw f : Run α) := by
  intro w b u run
  cases run

theorem Still.bind (first : Still m) (rest : ∀ a, Still (k a)) : Still (m >>= k) := by
  intro w b u run
  obtain ⟨a, v, ended, later⟩ := bindEnds run
  rw [rest a v b u later, first w a v ended]

theorem Still.lift (r : Except Fault α) : Still (Run.lift r) := by
  cases r with
  | ok a => exact .pure a
  | error f => exact .throw f

theorem storeStill : Still Run.store := by
  intro w s u run
  cases run
  rfl

theorem readNameStill (scopes : List Scope) (x : String) : Still (readName scopes x) := by
  intro w v u run
  rw [readRun] at run
  repeat' split at run
  all_goals first
    | exact ((EStateM.Result.ok.inj run).2).symm
    | contradiction

theorem produceStill {r : Except Fault Value} : Still (Run.produce (r.map .value)) := by
  cases r with
  | ok v => exact .pure v
  | error f => exact .throw f

theorem applyStill {op : Operator} (kind : op ≠ .add ∧ op ≠ .mul) (s : Store) (a b : Value) :
    Still (Run.produce (op.apply s a b)) := by
  have test (r : Except Fault Bool) : Still (Run.produce (r.map fun b => .value (.bool b))) := by
    cases r with
    | ok b => exact .pure _
    | error f => exact .throw f
  cases op with
  | add => exact absurd rfl kind.1
  | mul => exact absurd rfl kind.2
  | sub =>
    simp only [Operator.apply]
    split
    · exact produceStill
    · exact .throw _
  | less | greater | lessEqual | greaterEqual | equal | notEqual => exact test _

theorem helperStill {h : Helper} (reads : h.onlyReads = true) (args : List Value) : Still (callHelper h args) := by
  refine storeStill.bind fun s => ?_
  split
  all_goals first
    | exact Still.lift _
    | exact Still.pure _
    | exact Still.throw _
    | exact (Still.lift _).bind fun _ => .pure _
    | simp [Helper.onlyReads] at reads

mutual

theorem evalStill (o : Outside) (scopes : List Scope) : (e : Expr) → e.onlyReads = true → Still (eval o scopes e)
  | .none, _ | .bool _, _ | .number _, _ | .text _, _ => Still.pure _
  | .name x, _ => readNameStill scopes x
  | .helper h args, reads => by
    simp only [Expr.onlyReads, Bool.and_eq_true] at reads
    exact (evalAllStill o scopes args reads.2).bind fun vs => helperStill reads.1 vs
  | .subscript target key, reads =>
    (evalStill o scopes target reads).bind fun v => storeStill.bind fun s => .lift _
  | .negate operand, reads => (evalStill o scopes operand reads).bind fun v => .lift _
  | .not operand, reads => (evalStill o scopes operand reads).bind fun v => storeStill.bind fun s => .pure _
  | .binary op left right, reads => by
    simp only [Expr.onlyReads, Bool.and_eq_true, decide_eq_true_eq] at reads
    refine (evalStill o scopes left reads.1.2).bind fun a => (evalStill o scopes right reads.2).bind fun b => ?_
    exact storeStill.bind fun s => applyStill reads.1.1 s a b
  | .and left right, reads => by
    simp only [Expr.onlyReads, Bool.and_eq_true] at reads
    refine (evalStill o scopes left reads.1).bind fun a => storeStill.bind fun s => ?_
    split
    · exact evalStill o scopes right reads.2
    · exact .pure a
  | .or left right, reads => by
    simp only [Expr.onlyReads, Bool.and_eq_true] at reads
    refine (evalStill o scopes left reads.1).bind fun a => storeStill.bind fun s => ?_
    split
    · exact .pure a
    · exact evalStill o scopes right reads.2
  | .cond test yes no, reads => by
    simp only [Expr.onlyReads, Bool.and_eq_true] at reads
    refine (evalStill o scopes test reads.1.1).bind fun v => storeStill.bind fun s => ?_
    split
    · exact evalStill o scopes yes reads.1.2
    · exact evalStill o scopes no reads.2
  | .dict _, reads | .list _, reads | .call .., reads | .truthyBind .., reads | .await _, reads | .bind .., reads => by
    simp [Expr.onlyReads] at reads

theorem evalAllStill (o : Outside) (scopes : List Scope) : (es : List Expr) → allOnlyRead es = true →
    Still (evalAll o scopes es)
  | [], _ => Still.pure _
  | e :: rest, reads => by
    simp only [allOnlyRead, Bool.and_eq_true] at reads
    exact (evalStill o scopes e reads.1).bind fun v => (evalAllStill o scopes rest reads.2).bind fun vs => .pure _

end

end Still

end Fragment.Target
