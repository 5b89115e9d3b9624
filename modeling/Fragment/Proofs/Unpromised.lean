import Fragment.Proofs.Running

/-! Code that gives no promise.
The form of an expression may tell that its value is none. A body whose returned expressions are all of such a
form ends without one, whatever it calls and in whatever world it runs: what awaiting gives is never a promise. -/
namespace Fragment

def Value.isPromise : Value → Bool
  | .promise _ => true
  | _ => false

namespace Target

def Expr.isName (x : Option String) : Expr → Bool
  | .name y => x == some y
  | _ => false

mutual

/-- Whether the form of an expression tells that its value is no promise. -/
def Expr.settled : Expr → Bool
  | .name _ | .subscript .. | .call .. => false
  | .helper h args => match h with
    | .getMember | .index => false
    | .setMember => lastSettled args
    | _ => true
  | .and left right | .or left right => left.settled && right.settled
  | .cond test yes no => (yes.settled || yes.isName test.settledName) && (no.settled || no.isName test.settledName)
  | .bind _ value => value.settled
  | _ => true

/-- The variable into which a test puts a value that is no promise. -/
def Expr.settledName : Expr → Option String
  | .truthyBind x value => if value.settled then some x else none
  | _ => none

def lastSettled : List Expr → Bool
  | [] => true
  | e :: rest => if rest.isEmpty then e.settled else lastSettled rest

end

mutual

/-- The expressions that a statement returns, those in functions defined in it apart. -/
def Stmt.returned : Stmt → List Expr
  | .ret value => [value]
  | .cond _ yes no => returnedIn yes ++ returnedInOption no
  | .loop _ body => returnedIn body
  | _ => []

def returnedIn : List Stmt → List Expr
  | [] => []
  | s :: rest => s.returned ++ returnedIn rest

def returnedInOption : Option (List Stmt) → List Expr
  | none => []
  | some body => returnedIn body

end

/-- If a step ends, its result satisfies a condition. -/
def Gives {α : Type} (Q : α → Prop) (m : Run α) : Prop := ∀ w a u, m w = .ok a u → Q a

section Gives

variable {α β : Type} {Q : α → Prop} {R : β → Prop} {m : Run α} {k : α → Run β}

theorem Gives.pure {a : α} (h : Q a) : Gives Q (pure a) := by
  intro w b u run
  cases run
  exact h

theorem Gives.throw (f : Fault) : Gives Q (throw f : Run α) := by
  intro w b u run
  cases run

theorem Gives.bind (first : Gives Q m) (rest : ∀ a, Q a → Gives R (k a)) : Gives R (m >>= k) := by
  intro w b u run
  obtain ⟨a, v, ended, later⟩ := bindEnds run
  exact rest a (first w a v ended) v b u later

theorem Gives.last (rest : ∀ a, Gives R (k a)) : Gives R (m >>= k) :=
  Gives.bind (Q := fun _ => True) (fun _ _ _ _ => trivial) fun a _ => rest a

theorem Gives.lift {r : Except Fault α} (h : ∀ a, r = .ok a → Q a) : Gives Q (Run.lift r) := by
  cases r with
  | ok a => exact .pure (h a rfl)
  | error f => exact .throw f

end Gives

/-- A step that gives no promise. -/
abbrev Settles (m : Run Value) : Prop := Gives (fun v => v.isPromise = false) m

theorem addSettles (s : Store) (a b : Value) : Settles (Run.lift (Value.add s a b)) := by
  refine .lift fun v added => ?_
  simp only [Value.add, bind, Except.bind, pure, Except.pure] at added
  repeat' split at added
  all_goals first
    | contradiction
    | obtain rfl := Except.ok.inj added; rfl

/-- What an operation produces is no promise. -/
def Unpromised (r : Except Fault Produced) : Prop := ∀ v, r = .ok (.value v) → v.isPromise = false

theorem mapUnpromised {α : Type} {r : Except Fault α} {f : α → Value} (h : ∀ a, r = .ok a → (f a).isPromise = false) :
    Unpromised (r.map fun a => .value (f a)) := by
  intro v applied
  cases r with
  | error => cases applied
  | ok a =>
    cases applied
    exact h a rfl

theorem applyUnpromised (op : Operator) (s : Store) (a b : Value) : Unpromised (op.apply s a b) := by
  have items {α : Type} (r : Except Fault α) (f : α → Array Value) : Unpromised (r.map fun a => .array (f a)) := by
    intro v applied
    cases r <;> cases applied
  have number (r : Except Fault Number) : Unpromised ((r.map Value.number).map Produced.value) := by
    refine mapUnpromised fun v done => ?_
    cases r <;> cases done
    rfl
  have text (t : String) (n : Int) : Unpromised ((repeatText t n).map .value) := by
    refine mapUnpromised fun v done => ?_
    simp only [repeatText, bind, Except.bind] at done
    split at done <;> cases done
    rfl
  have failed (e : Fault) : Unpromised (.error e) := by
    intro v applied
    cases applied
  cases op with
  | add =>
    simp only [Operator.apply]
    split
    · rintro v ⟨⟩
      rfl
    · rintro v ⟨⟩
    · split
      · exact number _
      · exact failed _
  | sub =>
    simp only [Operator.apply]
    split
    · exact number _
    · exact failed _
  | mul =>
    simp only [Operator.apply]
    split
    all_goals
      split
      · first
        | exact number _
        | exact text _ _
        | exact items _ _
      · exact failed _
  | less | greater | lessEqual | greaterEqual | equal | notEqual => exact mapUnpromised fun _ _ => rfl

theorem produceSettles {r : Except Fault Produced} (h : Unpromised r) : Settles (Run.produce r) := by
  refine (Gives.lift fun produced done => done).bind fun produced done => ?_
  cases produced with
  | value v => exact .pure (h v done)
  | array items =>
    intro w v u run
    cases run
    rfl

/-- A helper other than those that read a property gives a promise only if it stores one. -/
theorem helperSettles {h : Helper} {args : List Value} (reads : h ≠ .getMember ∧ h ≠ .index)
    (stores : h = .setMember → ∀ v, args.getLast? = some v → v.isPromise = false) : Settles (callHelper h args) := by
  refine Gives.last fun s => ?_
  split
  all_goals first
    | exact addSettles s _ _
    | exact Gives.throw _
    | exact Gives.last fun _ => .pure rfl
    | exact Gives.pure rfl
    | exact absurd rfl reads.1
    | exact absurd rfl reads.2
    | exact Gives.last fun _ => .pure (stores rfl _ rfl)

/-- The value that a test keeps is no promise, and neither is a branch that reads it. -/
theorem readSettles {scopes : List Scope} {x : String} {v : Value} {e : Expr} {o : Outside} (named : e.isName (some x) = true)
    (plain : v.isPromise = false) {w u u' : World} {r : Value} (wrote : writeName scopes x v w = .ok () u)
    (run : eval o scopes e u = .ok r u') : r.isPromise = false := by
  cases e with
  | name y =>
    obtain rfl : x = y := by simpa [Expr.isName] using named
    rw [readWritten wrote run]
    exact plain
  | _ => simp [Expr.isName] at named

structure Outside.Settles (o : Outside) : Prop where
  await : ∀ v, Target.Settles (o.await v)

section Code

variable {o : Outside}

mutual

theorem evalSettles (awaits : o.Settles) (scopes : List Scope) : (e : Expr) → e.settled = true → Settles (eval o scopes e)
  | .none, _ | .bool _, _ | .number _, _ | .text _, _ => Gives.pure rfl
  | .dict entries, _ => Gives.last fun fields => by
    intro w v u run
    cases run
    rfl
  | .list items, _ => Gives.last fun vs => by
    intro w v u run
    cases run
    rfl
  | .helper h args, settled => by
    have reads : h ≠ .getMember ∧ h ≠ .index := by
      unfold Expr.settled at settled
      constructor <;> rintro rfl <;> simp at settled
    refine (evalAllSettles awaits scopes args).bind fun vs last => helperSettles reads ?_
    rintro rfl
    exact last (by simpa [Expr.settled] using settled)
  | .truthyBind x value, _ => Gives.last fun _ => Gives.last fun _ => Gives.last fun _ => .pure rfl
  | .await value, _ => Gives.last fun v => awaits.await v
  | .negate operand, _ => Gives.last fun v => .lift fun r negated => by
    simp only [negate] at negated
    split at negated <;> cases negated
    rfl
  | .not operand, _ => Gives.last fun _ => Gives.last fun _ => .pure rfl
  | .binary op left right, _ => Gives.last fun a => Gives.last fun b => Gives.last fun s =>
    produceSettles (applyUnpromised op s a b)
  | .and left right, settled => by
    simp only [Expr.settled, Bool.and_eq_true] at settled
    refine (evalSettles awaits scopes left settled.1).bind fun a plain => Gives.last fun s => ?_
    split
    · exact evalSettles awaits scopes right settled.2
    · exact .pure plain
  | .or left right, settled => by
    simp only [Expr.settled, Bool.and_eq_true] at settled
    refine (evalSettles awaits scopes left settled.1).bind fun a plain => Gives.last fun s => ?_
    split
    · exact .pure plain
    · exact evalSettles awaits scopes right settled.2
  | .cond test yes no, settled => by
    simp only [Expr.settled, Bool.and_eq_true, Bool.or_eq_true] at settled
    intro w v u run
    obtain ⟨t, w', tested, run⟩ := bindEnds run
    -- A branch may read what the test has kept, so the world after the test matters.
    have branch (e : Expr) (sound : e.settled = true → Settles (eval o scopes e))
        (kind : e.settled = true ∨ e.isName test.settledName = true) (run : eval o scopes e w' = .ok v u) :
        v.isPromise = false := by
      rcases kind with plain | named
      · exact sound plain w' v u run
      · exact keptSettles awaits scopes test tested named run
    obtain ⟨s, w'', stored, run⟩ := bindEnds run
    cases stored
    split at run
    · exact branch yes (evalSettles awaits scopes yes) settled.1 run
    · exact branch no (evalSettles awaits scopes no) settled.2 run
  | .bind x value, settled =>
    (evalSettles awaits scopes value (by simpa [Expr.settled] using settled)).bind fun v plain =>
      Gives.last fun _ => .pure plain
  | .name _, settled | .subscript .., settled | .call .., settled => by simp [Expr.settled] at settled

theorem keptSettles (awaits : o.Settles) (scopes : List Scope) (test : Expr) {e : Expr} {w u u' : World} {t r : Value}
    (tested : eval o scopes test w = .ok t u) (named : e.isName test.settledName = true)
    (run : eval o scopes e u = .ok r u') : r.isPromise = false := by
  cases test with
  | truthyBind x value =>
    simp only [Expr.settledName] at named
    split at named
    case isTrue settled =>
      obtain ⟨v, _, valued, tested⟩ := bindEnds tested
      obtain ⟨⟨⟩, written, wrote, tested⟩ := bindEnds tested
      obtain ⟨b, _, decided, tested⟩ := bindEnds tested
      cases tested
      have still : written = u := by
        cases done : Value.truthy v <;> simp only [done, Run.lift] at decided <;> cases decided
        rfl
      subst still
      exact readSettles named (evalSettles awaits scopes value settled _ _ _ valued) wrote run
    case isFalse => cases e <;> simp [Expr.isName] at named
  | _ =>
    unfold Expr.settledName at named
    cases e <;> simp [Expr.isName] at named

theorem evalAllSettles (awaits : o.Settles) (scopes : List Scope) : (es : List Expr) →
    Gives (fun vs => lastSettled es = true → ∀ v, vs.getLast? = some v → v.isPromise = false) (evalAll o scopes es)
  | [] => .pure (by simp)
  | [e] => by
    intro w vs u run
    obtain ⟨v, w', valued, run⟩ := bindEnds run
    cases run
    intro settled r last
    obtain rfl : v = r := by simpa using last
    exact evalSettles awaits scopes e (by simpa [lastSettled] using settled) _ _ _ valued
  | _ :: e :: rest => by
    intro w vs u run
    obtain ⟨v, w', -, run⟩ := bindEnds run
    obtain ⟨others, w'', ran, run⟩ := bindEnds run
    cases run
    intro settled r last
    refine evalAllSettles awaits scopes (e :: rest) _ _ _ ran (by simpa [lastSettled] using settled) r ?_
    obtain ⟨first, _, -, ran⟩ := bindEnds ran
    obtain ⟨more, _, -, ran⟩ := bindEnds ran
    cases ran
    simpa using last

end

/-- If a statement returns a value, the value satisfies a condition. -/
def Returns (P : Value → Prop) (m : Run Flow) : Prop := Gives (fun flow => ∀ v, flow = .ret v → P v) m

theorem repeatReturns {P : Value → Prop} {test : Run Bool} {body : Run Flow} (returns : Returns P body) (fuel : Nat) :
    Returns P (repeatWhile test body fuel) := by
  induction fuel with
  | zero => exact .throw _
  | succ fuel ih =>
    refine Gives.last fun b => ?_
    split
    · refine Gives.bind returns fun flow given => ?_
      split
      · exact .pure nofun
      · exact .pure given
      · exact ih
    · exact .pure nofun

mutual

theorem execReturns {P : Value → Prop} (o : Outside) (scopes : List Scope) (fuel : Nat) :
    (s : Stmt) → (∀ e ∈ s.returned, Gives P (eval o scopes e)) → Returns P (exec o fuel scopes s)
  | .ret value, given => by
    refine Gives.bind (given value (by simp [Stmt.returned])) fun v holds => .pure ?_
    rintro _ ⟨⟩
    exact holds
  | .cond test yes no, given => by
    unfold Stmt.returned at given
    simp only [List.mem_append, or_imp, forall_and] at given
    refine Gives.last fun v => Gives.last fun s => ?_
    split
    · exact execAllReturns o scopes fuel yes given.1
    · exact execElseReturns o scopes fuel no given.2
  | .loop test body, given =>
    repeatReturns (execAllReturns o scopes fuel body (by simpa [Stmt.returned] using given)) fuel
  | .assign .., _ | .define .., _ => Gives.last fun _ => Gives.last fun _ => .pure nofun
  | .expr _, _ => Gives.last fun _ => .pure nofun
  | .brk, _ | .cont, _ | .pass, _ | .globals _, _ | .nonlocals _, _ => Gives.pure nofun
  | .collect _, _ => Gives.last fun v => by
    split
    · exact Gives.last fun _ => Gives.last fun _ => Gives.last fun _ => .pure nofun
    · exact Gives.last fun _ => .pure nofun

theorem execAllReturns {P : Value → Prop} (o : Outside) (scopes : List Scope) (fuel : Nat) :
    (body : List Stmt) → (∀ e ∈ returnedIn body, Gives P (eval o scopes e)) → Returns P (execAll o fuel scopes body)
  | [], _ => Gives.pure nofun
  | s :: rest, given => by
    unfold returnedIn at given
    simp only [List.mem_append, or_imp, forall_and] at given
    refine Gives.bind (execReturns o scopes fuel s given.1) fun flow returned => ?_
    split
    · exact execAllReturns o scopes fuel rest given.2
    · exact .pure returned

theorem execElseReturns {P : Value → Prop} (o : Outside) (scopes : List Scope) (fuel : Nat) :
    (body : Option (List Stmt)) → (∀ e ∈ returnedInOption body, Gives P (eval o scopes e)) →
      Returns P (execElse o fuel scopes body)
  | none, _ => Gives.pure nofun
  | some body, given => execAllReturns o scopes fuel body (by simpa [returnedInOption] using given)

end

theorem runBodyGives {P : Value → Prop} {scopes : List Scope} {body : List Stmt} (undefined : P .undefined)
    (given : ∀ e ∈ returnedIn body, Gives P (eval o scopes e)) (fuel : Nat) : Gives P (runBody o fuel body scopes) := by
  refine Gives.last fun w => ?_
  dsimp only
  split
  case' isTrue => refine Gives.last fun _ => ?_
  all_goals
    refine Gives.last fun _ => Gives.bind (execAllReturns o scopes fuel body given) fun flow returned => ?_
    refine Gives.last fun _ => ?_
    split
    · exact .pure (returned _ rfl)
    · exact .pure undefined

end Code

/-- What awaiting gives is no promise. -/
theorem outsideSettles (fuel : Nat) : (outside fuel).Settles := by
  induction fuel with
  | zero => exact ⟨fun v => .throw _⟩
  | succ fuel ih =>
    refine ⟨fun v => ?_⟩
    cases v with
    | promise ref => exact Gives.last fun taken => Gives.last fun v => ih.await v
    | _ => exact Gives.pure rfl

section Bodies

variable {body : List Stmt} {v : Value} {w u : World}

theorem settledBody (settled : ∀ e ∈ returnedIn body, e.settled = true) (fuel bound : Nat) (scopes : List Scope) :
    Settles (runBody (outside fuel) bound body scopes) :=
  runBodyGives (P := fun v => v.isPromise = false) rfl
    (fun e member => evalSettles (outsideSettles fuel) scopes e (settled e member)) bound

/-- A promise of a body that returns settled expressions resolves to no promise. -/
theorem settledPromise (settled : ∀ e ∈ returnedIn body, e.settled = true) {scopes : List Scope} {ref : Nat}
    (waiting : w.promises[ref]? = some (.ready body scopes)) (run : awaitOnce (.promise ref) w = .ok v u) :
    v.isPromise = false := by
  obtain ⟨⟨taken, around⟩, _, took, run⟩ := bindEnds run
  have same : taken = body := by
    obtain ⟨_, _, got, took⟩ := bindEnds took
    cases got
    simp only [waiting] at took
    obtain ⟨_, _, -, took⟩ := bindEnds took
    cases took
    rfl
  subst same
  exact settledBody settled _ _ around _ _ _ run

/-- A call of an async function gives a promise of its body. -/
theorem asyncCallWaits {fuel ref : Nat} {args : List Value} {params : List Param} {names : List String}
    {around : List Scope} (known : w.functions[ref]? = some (.closure true params names body around))
    (run : call fuel (.function ref) args w = .ok v u) :
    ∃ promise scopes, v = .promise promise ∧ u.promises[promise]? = some (.ready body scopes) := by
  cases fuel with
  | zero => cases run
  | succ fuel =>
    obtain ⟨_, _, got, run⟩ := bindEnds run
    cases got
    simp only [known] at run
    obtain ⟨frame, _, -, run⟩ := bindEnds run
    obtain ⟨place, _, -, run⟩ := bindEnds run
    cases run
    exact ⟨_, _, rfl, Array.getElem?_push_size⟩

end Bodies

end Target

end Fragment
