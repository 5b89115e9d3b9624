import Fragment.Proofs.LayoutRun
import Fragment.Proofs.LayoutStart

/-! The two shapes of a module that gives the value of one expression.
As a script its statements run at the outermost level, as a closure in a function that is called once.
If the names that the code keeps for itself are used for nothing else, both shapes reply alike: to
their evaluation, and to every call of what they gave. -/
namespace Fragment.Target

open Emit (startsWithUnderscores)

/-- The parts of a module that gives the value of one expression. -/
structure Parts where
  /-- Names of the outermost level that the expression assigns. -/
  globals : List String
  /-- The definitions of the functions in the expression. -/
  functions : List Stmt
  value : Expr

namespace Parts

variable (p : Parts)

def statements : List Stmt :=
  .assign completionName .none :: (p.functions ++ [.assign completionName p.value])

/-- The body of the function around the statements. -/
def inside : List Stmt :=
  (if p.globals.isEmpty then [] else [.globals p.globals]) ++ p.statements ++ [.ret (.name completionName)]

def closure : List Stmt :=
  [.define moduleName false [] p.inside, .assign completionName (.call (.name moduleName) [])]

/-- The variables of the function around the statements. -/
def names : List String := localNames [] p.inside

/-- The function around the statements, where so many functions come before it. -/
def layout (first : Nat) : Layout := ⟨first, p.names, globalNames p.inside⟩

end Parts

/-- A definition of a function. -/
def Stmt.defined? : Stmt → Option String
  | .define name .. => some name
  | _ => none

/-- The names that the code keeps for itself are used for nothing else, and the expression reads them
only once they have values. -/
structure Parts.Apart (p : Parts) : Prop where
  reserved : ∀ x ∈ p.names, startsWithUnderscores x = true
  globals : completionName ∉ p.globals
  functions : ∀ s ∈ p.functions, s.defined?.isSome ∧ s.Uses Layout.Plain (· ∉ p.names)
  value : p.value.Uses Layout.Plain
  settles : (p.value.settles p.names (p.functions.filterMap Stmt.defined? ++ [completionName])).isSome

/-! Evaluation of the statements -/

section Statements

variable {L : Layout} {gap : Nat} {o o' : Outside} {fuel : Nat}

/-- Both statements leave to the next one. -/
def Onward (f f' : Flow) : Prop := f = .next ∧ f' = .next

theorem outerGuarded : L.Guarded [] := by simp [Layout.Guarded]

theorem assignAgrees (ho : o.Agree L gap o') {B C : List String} {x : String} {e : Expr} (uses : e.Uses Layout.Plain)
    (settled : e.settles L.names B = some C) :
    Agree L gap B (x :: C) Onward (exec o (fuel + gap) [] (.assign x e)) (exec o' fuel (L.scopes []) (.assign x e)) := by
  simp only [exec]
  refine (evalAgrees ho outerGuarded e uses (by simpa [Settled] using settled)).bind ?_
  rintro v _ rfl
  exact (writeAgrees outerGuarded v).bind fun _ _ _ => Agree.pure ⟨rfl, rfl⟩

theorem defineAgrees {B : List String} {name : String} {isAsync : Bool} {params : List Param} {body : List Stmt}
    (code : L.Code body) :
    Agree L gap B (name :: B) Onward (exec o (fuel + gap) [] (.define name isAsync params body))
      (exec o' fuel (L.scopes []) (.define name isAsync params body)) := by
  simp only [exec]
  refine (newFunctionAgrees (f := .closure isAsync params _ body []) ⟨code, outerGuarded⟩).bind ?_
  rintro v _ rfl
  exact (writeAgrees outerGuarded v).bind fun _ _ _ => Agree.pure ⟨rfl, rfl⟩

theorem thenAgrees {α β : Type} {B C D : List String} {s : Stmt} {rest rest' : List Stmt} {post : α → β → Prop}
    {k : Flow → Run α} {k' : Flow → Run β}
    (first : Agree L gap B C Onward (exec o (fuel + gap) [] s) (exec o' fuel (L.scopes []) s))
    (later : Agree L gap C D post (execAll o (fuel + gap) [] rest >>= k) (execAll o' fuel (L.scopes []) rest' >>= k')) :
    Agree L gap B D post (execAll o (fuel + gap) [] (s :: rest) >>= k)
      (execAll o' fuel (L.scopes []) (s :: rest') >>= k') := by
  simp only [execAll, bind_assoc]
  refine first.bind ?_
  rintro _ _ ⟨rfl, rfl⟩
  exact later

theorem functionsAgree {α β : Type} {D : List String} {rest rest' : List Stmt} {post : α → β → Prop}
    {k : Flow → Run α} {k' : Flow → Run β} (functions : List Stmt)
    (sound : ∀ s ∈ functions, s.defined?.isSome ∧ s.Uses Layout.Plain (· ∉ L.names)) {B : List String}
    (later : ∀ C, (∀ x ∈ functions.filterMap Stmt.defined? ++ B, x ∈ C) →
      Agree L gap C D post (execAll o (fuel + gap) [] rest >>= k) (execAll o' fuel (L.scopes []) rest' >>= k')) :
    Agree L gap B D post (execAll o (fuel + gap) [] (functions ++ rest) >>= k)
      (execAll o' fuel (L.scopes []) (functions ++ rest') >>= k') := by
  induction functions generalizing B with
  | nil => exact later B (by simp)
  | cons s functions ih =>
    obtain ⟨isDefinition, uses⟩ := sound s (by simp)
    cases s with
    | define name isAsync params body =>
      refine thenAgrees (defineAgrees uses.2) (ih (fun t ht => sound t (by simp [ht])) fun C more => later C ?_)
      intro x hx
      apply more x
      unfold Stmt.defined? at hx ⊢
      simp at hx ⊢
      grind
    | _ =>
      unfold Stmt.defined? at isDefinition
      simp at isDefinition

theorem insideSkips (o : Outside) (fuel : Nat) (ss : List Scope) (p : Parts) :
    execAll o fuel ss p.inside = execAll o fuel ss (p.statements ++ [.ret (.name completionName)]) := by
  unfold Parts.inside
  split
  · rfl
  · simp [execAll, exec]

theorem completionPlain : completionName ≠ moduleName := by decide

/-- The completion value of the statements, at the outermost level and in a function. -/
theorem statementsAgree (ho : o.Agree L gap o') {p : Parts} (apart : p.Apart) (names : L.names = p.names) (fuel : Nat) :
    Agree L gap [] [] (fun v f => f = .ret (L.value v))
      (do let _ ← execAll o (fuel + gap) [] p.statements; readName [] completionName)
      (execAll o' fuel (L.scopes []) p.inside) := by
  obtain ⟨C, settled⟩ := Option.isSome_iff_exists.mp apart.settles
  rw [insideSkips, ← bind_pure (execAll o' fuel (L.scopes []) _)]
  simp only [Parts.statements, List.cons_append, List.append_assoc]
  refine thenAgrees (assignAgrees ho trivial rfl) ?_
  refine functionsAgree p.functions (names ▸ apart.functions) fun D more => ?_
  refine thenAgrees ((assignAgrees ho apart.value (names ▸ settled)).weaken more fun _ hx => hx) ?_
  have read : Agree L gap (completionName :: C) [] (fun v v' => v' = L.value v) _ _ :=
    (readAgrees outerGuarded completionPlain (by simp)).weaken (fun _ hx => hx) (by simp)
  rw [← bind_pure (readName [] completionName)]
  simp only [List.nil_append, execAll, exec, eval, pure_bind, bind_assoc]
  refine read.bind ?_
  rintro v _ rfl
  exact Agree.pure rfl

end Statements

/-- The world once the function around the statements has been defined and called. -/
def Parts.entered (p : Parts) (w : World) : World :=
  { w with
    functions := w.functions.push (.closure false [] p.names p.inside [])
    frames := w.frames.push []
    globals := w.globals.put moduleName (.function w.functions.size)
    callDepth := w.callDepth + 1 }

theorem foreignShifted {functions : Array Callable} (foreign : ∀ f ∈ functions, f.isForeign) (L : Layout)
    (first : L.first = functions.size) (f : Callable) : Shifted L.first L.callable functions (functions.push f) where
  start := Nat.le_of_eq first
  size := by simp
  placed place := by
    rw [first, shift, Array.getElem?_push]
    by_cases old : place < functions.size
    · have other : place ≠ functions.size := by omega
      have same : L.callable functions[place] = functions[place] := by
        have := foreign functions[place] (Array.getElem_mem old)
        cases h : functions[place] <;> simp_all [Callable.isForeign, Layout.callable]
      simp [old, other, same]
    · have none : ¬ place + 1 = functions.size := by omega
      have gone : functions.size ≤ place + 1 := by omega
      simp [old, none, gone]

theorem Fresh.mirrors {w : World} (h : Fresh w) {p : Parts} (apart : p.Apart) :
    Mirrors (p.layout w.functions.size) 1 [] w (p.entered w) where
  store := h.storeRenumber.symm
  functions := foreignShifted h.functions _ rfl _
  promises := by simp [Parts.entered, h.promises]
  frames := by
    simp only [Parts.entered, h.frames]
    exact ⟨by simp, by simp, by simp [shift]⟩
  names := by
    intro x plain
    simp only [Parts.entered, h.frames, lookupPut, if_neg plain]
    split
    case isTrue member =>
      cases found : w.globals.lookup x with
      | none => rfl
      | some v =>
        have clash := (h.lookup found).2
        rw [apart.reserved x member] at clash
        contradiction
    case isFalse =>
      cases found : w.globals.lookup x with
      | none => rfl
      | some v => exact congrArg some (belowRenumber (h.lookup found).1).symm
  printed := rfl
  depth := rfl
  values := by simp
  sound := by
    intro f hf
    have := h.functions f hf
    unfold Layout.Sound
    cases f <;> simp_all [Callable.isForeign]
  waiting := by simp [h.promises]

/-! Replies -/

/-- What can be seen after a module was evaluated or its value was called: the value or the fault, the
arrays and objects, and what has been printed. -/
structure Reply where
  outcome : Except Fault Value
  store : Store
  output : String

def Reply.renumber (ρ : Nat → Nat) (r : Reply) : Reply :=
  ⟨Value.renumber ρ <$> r.outcome, r.store.renumber ρ, r.output⟩

/-- An argument of a call: plain data, a function of the caller, or a value that a module gave before. -/
inductive Argument where
  | undefined
  | bool (b : Bool)
  | number (n : Number)
  | text (t : String)
  | list (items : List Argument)
  | record (fields : List (String × Argument))
  | callback
  | earlier (i : Nat)

mutual

/-- Makes an argument, given the values that a module gave before. -/
def Argument.make (given : List Value) : Argument → Run Value
  | .undefined => return .undefined
  | .bool b => return .bool b
  | .number n => return .number n
  | .text t => return .text t
  | .list items => do Run.newArray (← makeAll given items).toArray
  | .record fields => do Run.newObject (← makeFields given fields)
  | .callback => return .function 0
  | .earlier i => return (given[i]?).getD .undefined

def makeAll (given : List Value) : List Argument → Run (List Value)
  | [] => return []
  | a :: rest => do
    let v ← a.make given
    return v :: (← makeAll given rest)

def makeFields (given : List Value) : List (String × Argument) → Run Fields
  | [] => return []
  | (key, a) :: rest => do
    let v ← a.make given
    return (key, v) :: (← makeFields given rest)

end

/-- The replies to some calls of a value. -/
def replies (f : Value) (given : List Value) : List (List Argument) → World → List Reply
  | [], _ => []
  | args :: calls, w =>
    match (do callFromOutside f (← makeAll given args) : Run Value) { w with callDepth := 0 } with
    | .ok v u => ⟨.ok v, u.store, u.output⟩ :: replies f (given ++ [v]) calls u
    | .error fault u => ⟨.error fault, u.store, u.output⟩ :: replies f given calls u

def repliesAfter (calls : List (List Argument)) : EStateM.Result Fault World Value → List Reply
  | .ok v w => ⟨.ok v, w.store, w.output⟩ :: replies v [v] calls w
  | .error fault w => [⟨.error fault, w.store, w.output⟩]

/-- The replies of a module to its evaluation and to calls of what it gave. -/
def Module.replies (m : Module) (libraries : List String) (calls : List (List Argument)) : List Reply :=
  repliesAfter calls (m.run libraries callerWorld)

section Replies

variable {L : Layout}

theorem Mirrors.output {gap : Nat} {B : List String} {w w' : World} (h : Mirrors L gap B w w') : w'.output = w.output := by
  simp [World.output, h.printed]

mutual

theorem makeAgrees {gap : Nat} {B : List String} (caller : 0 < L.first) (given : List Value) : (a : Argument) →
    Agree L gap B B (fun v v' => v' = L.value v) (a.make given) (a.make (given.map L.value))
  | .undefined | .bool _ | .number _ | .text _ => Agree.pure rfl
  | .list items => by
    simp only [Argument.make]
    refine (makeAllAgrees caller given items).bind ?_
    rintro vs _ rfl
    simpa using newArrayAgrees vs.toArray
  | .record fields => by
    simp only [Argument.make]
    refine (makeFieldsAgrees caller given fields).bind ?_
    rintro fs _ rfl
    exact newObjectAgrees fs
  | .callback => Agree.pure (by simp [Layout.value, Layout.number, shift, caller])
  | .earlier i => Agree.pure (by rw [List.getElem?_map]; exact Value.getDRenumber ..)

theorem makeAllAgrees {gap : Nat} {B : List String} (caller : 0 < L.first) (given : List Value) :
    (items : List Argument) →
    Agree L gap B B (fun vs vs' => vs' = vs.map L.value) (makeAll given items) (makeAll (given.map L.value) items)
  | [] => Agree.pure rfl
  | a :: rest => by
    simp only [makeAll]
    refine (makeAgrees caller given a).bind ?_
    rintro v _ rfl
    refine (makeAllAgrees caller given rest).bind ?_
    rintro vs _ rfl
    exact Agree.pure rfl

theorem makeFieldsAgrees {gap : Nat} {B : List String} (caller : 0 < L.first) (given : List Value) :
    (fields : List (String × Argument)) →
    Agree L gap B B (fun fs fs' => fs' = fs.renumber L.number) (makeFields given fields)
      (makeFields (given.map L.value) fields)
  | [] => Agree.pure rfl
  | (key, a) :: rest => by
    simp only [makeFields]
    refine (makeAgrees caller given a).bind ?_
    rintro v _ rfl
    refine (makeFieldsAgrees caller given rest).bind ?_
    rintro fs _ rfl
    exact Agree.pure rfl

end

theorem callFromOutsideAgrees (f : Value) (args : List Value) :
    Agree L 0 [] [] (fun v v' => v' = L.value v) (callFromOutside f args)
      (callFromOutside (L.value f) (args.map L.value)) := by
  have machine := outsideAgrees L 0 runFuel
  refine (Agree.modify fun _ _ h => h.atDepth 0 0).bind fun _ _ _ => ?_
  refine (machine.call [] f args).bind ?_
  rintro v _ rfl
  cases v with
  | promise ref =>
    refine (takePromiseAgrees ref).bind ?_
    rintro ⟨body, scopes⟩ _ ⟨rfl, waiting⟩
    exact runBodyAgrees machine runFuel waiting
  | _ => exact Agree.pure rfl

theorem repliesAgree (caller : 0 < L.first) (f : Value) (calls : List (List Argument)) (given : List Value)
    {w w' : World} (h : Mirrors L 0 [] { w with callDepth := 0 } { w' with callDepth := 0 }) :
    replies (L.value f) (given.map L.value) calls w' = (replies f given calls w).map (Reply.renumber L.number) := by
  induction calls generalizing given w w' with
  | nil => rfl
  | cons args calls ih =>
    have called : Agree L 0 [] [] (fun v v' => v' = L.value v)
        (do callFromOutside f (← makeAll given args))
        (do callFromOutside (L.value f) (← makeAll (given.map L.value) args)) := by
      refine (makeAllAgrees caller given args).bind ?_
      rintro vs _ rfl
      exact callFromOutsideAgrees f vs
    have ended := called _ _ h
    simp only [replies]
    generalize (do callFromOutside f (← makeAll given args) : Run Value) _ = r at ended ⊢
    generalize (do callFromOutside (L.value f) (← makeAll (given.map L.value) args) : Run Value) _ = r' at ended ⊢
    cases ended with
    | @ok v _ u u' same mirrored =>
      subst same
      have next := ih (given ++ [v]) (mirrored.atDepth 0 0)
      simp only [List.map_append, List.map_cons, List.map_nil] at next
      simp only [List.map_cons, next, Reply.renumber, mirrored.store, mirrored.output]
      rfl
    | error mirrored =>
      have next := ih given (mirrored.atDepth 0 0)
      simp only [List.map_cons, next, Reply.renumber, mirrored.store, mirrored.output]
      rfl
    | limit deeper => exact absurd rfl deeper

theorem closureRun (p : Parts) (fuel : Nat) {w : World} (frames : w.frames = #[]) (room : w.callDepth < callLimit) :
    (do let _ ← execAll (outside (fuel + 1)) (fuel + 1) [] p.closure; readName [] completionName : Run Value) w =
      match execAll (outside fuel) fuel ((p.layout w.functions.size).scopes []) p.inside (p.entered w) with
      | .ok flow u =>
        .ok flow.result { u with callDepth := w.callDepth, globals := u.globals.put completionName flow.result }
      | .error f u => .error f u := by
  have called : (outside (fuel + 1)).call (.function w.functions.size) []
      { w with functions := w.functions.push (.closure false [] (localNames [] p.inside) p.inside []),
               globals := w.globals.put moduleName (.function w.functions.size) } =
      match execAll (outside fuel) fuel ((p.layout w.functions.size).scopes []) p.inside (p.entered w) with
      | .ok flow u => .ok flow.result { u with callDepth := w.callDepth }
      | .error f u => .error f u := by
    simp only [outside, bind, EStateM.bind, get, getThe, MonadStateOf.get, EStateM.get, Array.getElem?_push_size]
    unfold callFunction bindParams
    simp only [List.isEmpty_nil, if_true]
    change runBody (outside fuel) fuel p.inside [⟨w.frames.size, p.names, globalNames p.inside⟩] _ = _
    rw [show w.frames.size = 0 by simp [frames], runBodyRun, if_neg (Nat.not_le.mpr room)]
    rfl
  simp only [Parts.closure, execAll, exec, eval, evalAll, bind_assoc, pure_bind]
  simp only [bind, EStateM.bind, Run.newFunction, modifyGet, MonadStateOf.modifyGet, EStateM.modifyGet,
    writeRun, readRun, holder?, frameOf?, Option.map_none, lookupPut, if_true]
  rw [called]
  cases execAll (outside fuel) fuel ((p.layout w.functions.size).scopes []) p.inside (p.entered w) <;> rfl

end Replies

/-! Both shapes -/

theorem boundAppend (a b : List Stmt) : boundIn (a ++ b) = boundIn a ++ boundIn b := by
  induction a with
  | nil => rfl
  | cons s rest ih => simp [boundIn, ih]

theorem definitionsBorrow {functions : List Stmt} (definitions : ∀ s ∈ functions, s.defined?.isSome) :
    borrowed functions = [] := by
  refine List.flatMap_eq_nil_iff.mpr fun s hs => ?_
  have defined := definitions s hs
  cases s with
  | define => rfl
  | _ => cases defined

theorem Parts.Apart.completion {p : Parts} (apart : p.Apart) : completionName ∈ p.names := by
  have definitions := definitionsBorrow fun s hs => (apart.functions s hs).1
  have borrows : borrowed p.inside = p.globals := by
    simp only [borrowed] at definitions
    simp only [Parts.inside, Parts.statements, borrowed, List.flatMap_append, List.flatMap_cons, List.flatMap_nil, definitions]
    split <;> simp_all
  have bound : completionName ∈ boundIn p.inside := by
    simp [Parts.inside, Parts.statements, boundAppend, boundIn, Stmt.bound]
  simp [Parts.names, localNames, borrows, bound, apart.globals]

theorem Mirrors.putHidden {L : Layout} {gap : Nat} {B : List String} {w w' : World} (h : Mirrors L gap B w w') {x : String}
    (member : x ∈ L.names) (v : Value) : Mirrors L gap B w { w' with globals := w'.globals.put x v } :=
  { h with
    names := by
      intro y plain
      have mirrored := h.names y plain
      split at mirrored
      · simp_all
      · have other : y ≠ x := by rintro rfl; contradiction
        simp_all [lookupPut] }

/-- A run that came to a limit before it gave a value. -/
def stopped : List Reply → Bool
  | [⟨.error f, _, _⟩] => isLimit f
  | _ => false

/-- The evaluation of statements at the outermost level. -/
def evaluation (body : List Stmt) : Run Value := do
  let _ ← execAll (outside runFuel) runFuel [] body
  readName [] completionName

theorem moduleRun (m : Module) (libraries : List String) (w : World) :
    m.run libraries w = match bindLibraries libraries w with
      | .ok _ u => evaluation m.body u
      | .error f u => .error f u := by
  simp only [Module.run, Bind.bind, EStateM.bind]
  cases bindLibraries libraries w <;> rfl

/-- A module with a function of its own replies like one without, up to the numbers of functions, unless
its evaluation comes to the limit of nested calls. -/
theorem closureReplies {p : Parts} (apart : p.Apart) (source : String) (libraries : List String)
    (calls : List (List Argument)) :
    stopped ((⟨source, p.closure⟩ : Module).replies libraries calls) = true ∨
      ∃ first, (⟨source, p.closure⟩ : Module).replies libraries calls =
        ((⟨source, p.statements⟩ : Module).replies libraries calls).map (Reply.renumber (shift first)) := by
  have bound := bindLibrariesBrings (n := 1) libraries callerWorld callerFresh (by simp [callerWorld])
  simp only [Module.replies, moduleRun]
  cases ended : bindLibraries libraries callerWorld with
  | error f w =>
    rw [ended] at bound
    refine .inr ⟨w.functions.size, ?_⟩
    unfold repliesAfter
    simp only [List.map_cons, List.map_nil, Reply.renumber, Fresh.storeRenumber bound]
    rfl
  | ok _ w =>
    rw [ended] at bound
    obtain ⟨fresh, caller, -⟩ := bound
    obtain ⟨fuel, enough⟩ : ∃ fuel, runFuel = fuel + 1 :=
      Nat.exists_eq_add_one.mpr (Nat.pow_pos (by decide))
    have room : w.callDepth < callLimit := by rw [fresh.depth]; decide
    have both := statementsAgree (outsideAgrees _ 1 fuel) apart rfl fuel w _ (fresh.mirrors apart)
    simp only [evaluation, enough, closureRun p fuel fresh.frames room]
    generalize execAll (outside fuel) fuel _ p.inside _ = r' at both ⊢
    generalize (do let _ ← execAll (outside (fuel + 1)) (fuel + 1) [] p.statements
                   readName [] completionName : Run Value) w = r at both ⊢
    cases both with
    | @ok v _ u u' same mirrored =>
      subst same
      refine .inr ⟨w.functions.size, ?_⟩
      let L := p.layout w.functions.size
      let final : World :=
        { u' with callDepth := w.callDepth, globals := u'.globals.put completionName (L.value v) }
      have after : Mirrors L 0 [] { u with callDepth := 0 } { final with callDepth := 0 } :=
        (mirrored.atDepth 0 0).putHidden apart.completion (L.value v)
      have next : replies (L.value v) [L.value v] calls final = (replies v [v] calls u).map (Reply.renumber L.number) := by
        have one : 0 < L.first := caller
        exact repliesAgree one v calls [v] after
      change ⟨.ok (L.value v), u'.store, u'.output⟩ :: replies (L.value v) [L.value v] calls final = _
      rw [next, mirrored.store, mirrored.output]
      rfl
    | error mirrored =>
      refine .inr ⟨w.functions.size, ?_⟩
      unfold repliesAfter
      simp only [List.map_cons, List.map_nil, Reply.renumber, mirrored.store, mirrored.output]
      rfl
    | limit _ limited => exact .inl limited

end Fragment.Target
