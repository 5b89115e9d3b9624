import Fragment.Proofs.LayoutRun

/-! A variable that code does not use.
Two worlds that differ in no more than what is held under one name are the same to code that does not use this name,
in itself or in the functions it calls: it ends alike in both, and the worlds still differ in no more than that. -/
namespace Fragment.Target

/-- Statements that do not use a name. -/
def Spares (x : String) (body : List Stmt) : Prop := usesIn (· ≠ x) (fun _ => True) body

def Callable.Spares (x : String) : Callable → Prop
  | .closure _ _ _ body _ => Target.Spares x body
  | _ => True

def Promise.Spares (x : String) : Promise → Prop
  | .ready body _ => Target.Spares x body
  | .spent => True

/-- Functions and promises that do not use a name. -/
structure World.Spares (x : String) (w : World) : Prop where
  functions : ∀ f ∈ w.functions, f.Spares x
  promises : ∀ p ∈ w.promises, p.Spares x

/-- Worlds that differ in no more than what is held under a name, which none of their functions uses. -/
structure Besides (x : String) (w u : World) : Prop where
  store : u.store = w.store
  functions : u.functions = w.functions
  promises : u.promises = w.promises
  printed : u.printed = w.printed
  depth : u.callDepth = w.callDepth
  size : u.frames.size = w.frames.size
  locals : ∀ i y, y ≠ x → (u.frames.getD i []).lookup y = (w.frames.getD i []).lookup y
  globals : ∀ y, y ≠ x → u.globals.lookup y = w.globals.lookup y
  spares : w.Spares x

/-- Two runs that end alike, in worlds that differ in no more than what is held under a name. There are no fewer
frames than `calls` once they end. -/
inductive Alike {α : Type} (x : String) (calls : Nat) (post : α → Prop) :
    EStateM.Result Fault World α → EStateM.Result Fault World α → Prop
  | ok {a : α} {w u : World} : post a → calls ≤ w.frames.size → Besides x w u → Alike x calls post (.ok a w) (.ok a u)
  | error {f : Fault} {w u : World} : Besides x w u → Alike x calls post (.error f w) (.error f u)

/-- A step that does not see what is held under a name, and keeps the frames that there are. -/
def Blind {α : Type} (x : String) (post : α → Prop) (m : Run α) : Prop :=
  ∀ w u, Besides x w u → Alike x w.frames.size post (m w) (m u)

section Blind

variable {x : String} {α β : Type} {post : α → Prop} {next : β → Prop} {m : Run α} {k : α → Run β}

theorem Alike.fewer {most calls : Nat} {r r' : EStateM.Result Fault World α} (alike : Alike x most post r r')
    (fewer : calls ≤ most) : Alike x calls post r r' := by
  cases alike with
  | ok holds enough kept => exact .ok holds (fewer.trans enough) kept
  | error kept => exact .error kept

theorem Blind.pure {a : α} (h : post a) : Blind x post (pure a) := fun _ _ same => .ok h le_rfl same

theorem Blind.throw (f : Fault) : Blind x post (throw f) := fun _ _ same => .error same

theorem Blind.bind (first : Blind x post m) (rest : ∀ a, post a → Blind x next (k a)) : Blind x next (m >>= k) := by
  intro w u same
  have ended := first w u same
  simp only [Bind.bind, EStateM.bind]
  generalize m w = r at ended ⊢
  generalize m u = r' at ended ⊢
  cases ended with
  | ok holds most kept => exact (rest _ holds _ _ kept).fewer most
  | error kept => exact .error kept

/-- The result of the first step does not matter to the second. -/
theorem Blind.andThen (first : Blind x (fun _ => True) m) (rest : ∀ a, Blind x next (k a)) : Blind x next (m >>= k) :=
  first.bind fun a _ => rest a

theorem Blind.lift (r : Except Fault α) : Blind x (fun _ => True) (Run.lift r) := by
  cases r with
  | ok a => exact .pure trivial
  | error f => exact .throw f

/-- A change that looks at nothing but the store. -/
theorem Blind.stored (f : Store → α × Store) :
    Blind x (fun _ => True) (modifyGet fun w => ((f w.store).1, { w with store := (f w.store).2 }) : Run α) := by
  intro w u same
  have there : u.store = w.store := same.store
  change Alike x _ _ (.ok (f w.store).1 _) (.ok (f u.store).1 _)
  rw [there]
  exact .ok trivial le_rfl { same with store := rfl, spares := ⟨same.spares.functions, same.spares.promises⟩ }

theorem storeBlind : Blind x (fun _ => True) Run.store := by
  intro w u same
  change Alike x _ _ (.ok w.store w) (.ok u.store u)
  rw [same.store]
  exact .ok trivial le_rfl same

theorem newArrayBlind (items : Array Value) : Blind x (fun _ => True) (Run.newArray items) :=
  .stored fun s => s.newArray items

theorem newObjectBlind (fields : Fields) : Blind x (fun _ => True) (Run.newObject fields) :=
  .stored fun s => s.newObject fields

theorem setMemberBlind (target key v : Value) : Blind x (fun _ => True) (Run.setMember target key v) :=
  (Blind.stored fun s => Value.setMember s target key v).andThen fun _ => .lift _

theorem newFunctionBlind {f : Callable} (spares : f.Spares x) : Blind x (fun _ => True) (Run.newFunction f) := by
  intro w u same
  change Alike x _ _ (.ok (Value.function w.functions.size) _) (.ok (Value.function u.functions.size) _)
  rw [same.functions]
  refine .ok trivial le_rfl { same with functions := rfl, spares := ⟨fun g member => ?_, same.spares.promises⟩ }
  rcases Array.mem_push.mp member with old | rfl
  · exact same.spares.functions g old
  · exact spares

theorem newPromiseBlind {p : Promise} (spares : p.Spares x) : Blind x (fun _ => True) (Run.newPromise p) := by
  intro w u same
  change Alike x _ _ (.ok (Value.promise w.promises.size) _) (.ok (Value.promise u.promises.size) _)
  rw [same.promises]
  refine .ok trivial le_rfl { same with promises := rfl, spares := ⟨same.spares.functions, fun q member => ?_⟩ }
  rcases Array.mem_push.mp member with old | rfl
  · exact same.spares.promises q old
  · exact spares

theorem newFrameBlind (f : Frame) : Blind x (fun _ => True) (Run.newFrame f) := by
  intro w u same
  change Alike x _ _ (.ok w.frames.size _) (.ok u.frames.size _)
  rw [same.size]
  refine .ok trivial (by simp) { same with size := by simp [same.size], locals := fun i y other => ?_,
                                           spares := ⟨same.spares.functions, same.spares.promises⟩ }
  have before := same.locals i y other
  simp only [Array.getD_eq_getD_getElem?, Array.getElem?_push, same.size] at before ⊢
  split
  · rfl
  · exact before

theorem produceBlind (r : Except Fault Produced) : Blind x (fun _ => True) (Run.produce r) := by
  refine (Blind.lift r).andThen fun produced => ?_
  cases produced with
  | value v => exact .pure trivial
  | array items => exact newArrayBlind items

theorem foundBlind (receiver : Value) (r : Except Fault Value.Found) : Blind x (fun _ => True) (Run.found receiver r) := by
  refine (Blind.lift r).andThen fun found => ?_
  cases found with
  | value v => exact .pure trivial
  | member m => exact newFunctionBlind trivial

theorem callHelperBlind (h : Helper) (args : List Value) : Blind x (fun _ => True) (callHelper h args) := by
  refine storeBlind.andThen fun s => ?_
  split
  all_goals
    repeat' first
      | with_reducible exact foundBlind _ _
      | with_reducible exact setMemberBlind _ _ _
      | with_reducible exact .lift _
      | with_reducible exact .pure trivial
      | with_reducible exact .throw _
      | with_reducible refine Blind.andThen (?_ : Blind x (fun _ => True) _) fun _ => ?_

theorem bindParamsBlind (params : List Param) (args : List Value) : Blind x (fun _ => True) (bindParams args params) := by
  induction params generalizing args with
  | nil =>
    unfold bindParams
    split
    · exact .pure trivial
    · exact .throw _
  | cons p params ih =>
    unfold bindParams
    split
    · exact (ih _).andThen fun _ => .pure trivial
    · exact .throw _
    · exact (ih _).andThen fun _ => .pure trivial
    · exact (ih _).andThen fun _ => .pure trivial
    · exact (newArrayBlind _).andThen fun _ => (ih _).andThen fun _ => .pure trivial

theorem readNameBlind (scopes : List Scope) {y : String} (other : y ≠ x) : Blind x (fun _ => True) (readName scopes y) := by
  intro w u same
  rw [readRun, readRun]
  split
  case h_1 frame own _ =>
    rw [same.locals frame y other]
    split
    · exact .ok trivial le_rfl same
    · exact .error same
  case h_2 =>
    rw [same.globals y other]
    split
    · exact .ok trivial le_rfl same
    · exact .error same

theorem putLocals {w u : World} (same : Besides x w u) (frame : Nat) (y : String) (v : Value) :
    Besides x { w with frames := w.frames.modify frame (Frame.put · y v) }
      { u with frames := u.frames.modify frame (Frame.put · y v) } := by
  refine { same with size := by simp [same.size], locals := fun i z other => ?_,
                     spares := ⟨same.spares.functions, same.spares.promises⟩ }
  have before := same.locals i z other
  have sizes := same.size
  simp only [Array.getD_eq_getD_getElem?, Array.getElem?_modify] at before ⊢
  split
  case isTrue here =>
    subst here
    by_cases inside : frame < w.frames.size
    · rw [Array.getElem?_eq_getElem inside, Array.getElem?_eq_getElem (sizes ▸ inside)] at before ⊢
      simp only [Option.map_some, Option.getD_some, lookupPut] at before ⊢
      rw [before]
    · rw [Array.getElem?_eq_none (by omega), Array.getElem?_eq_none (by omega)]
  case isFalse => exact before

theorem writeNameBlind (scopes : List Scope) (y : String) (v : Value) : Blind x (fun _ => True) (writeName scopes y v) := by
  intro w u same
  rw [writeRun, writeRun]
  split
  case h_1 frame own _ => exact .ok trivial (by simp) (putLocals same frame y v)
  case h_2 =>
    refine .ok trivial le_rfl { same with globals := fun z other => ?_, spares := ⟨same.spares.functions, same.spares.promises⟩ }
    rw [lookupPut, lookupPut, same.globals z other]

theorem takePromiseBlind (ref : Nat) : Blind x (fun p => Spares x p.1) (takePromise ref) := by
  intro w u same
  rw [takePromiseRun, takePromiseRun, same.promises]
  split
  case h_1 body scopes found =>
    refine .ok (same.spares.promises _ (Array.mem_of_getElem? found)) le_rfl
      { same with promises := rfl, spares := ⟨same.spares.functions, fun q member => ?_⟩ }
    rcases Array.mem_or_eq_of_mem_setIfInBounds member with old | rfl
    · exact same.spares.promises q old
    · trivial
  case h_2 => exact .error same

end Blind

/-! Expressions and statements -/

/-- A machine whose calls and promises do not see what is held under a name. -/
structure Outside.Blind (x : String) (o : Outside) : Prop where
  call : ∀ f args, Target.Blind x (fun _ => True) (o.call f args)
  await : ∀ v, Target.Blind x (fun _ => True) (o.await v)

section Code

variable {x : String} {o : Outside} {α : Type}

/-- A condition on a value. -/
theorem branchBlind {post : α → Prop} {test : Run Value} {yes no : Value → Run α}
    (tested : Blind x (fun _ => True) test) (whenTrue : ∀ v, Blind x post (yes v)) (whenFalse : ∀ v, Blind x post (no v)) :
    Blind x post (do let v ← test; if isTrue (← Run.store) v then yes v else no v) := by
  refine tested.andThen fun v => storeBlind.andThen fun s => ?_
  split
  · exact whenTrue v
  · exact whenFalse v

mutual

theorem evalBlind (ho : o.Blind x) (scopes : List Scope) : (e : Expr) → e.Uses (· ≠ x) → Blind x (fun _ => True) (eval o scopes e)
  | .none, _ | .bool _, _ | .number _, _ | .text _, _ => .pure trivial
  | .name _, uses => readNameBlind scopes uses
  | .dict entries, uses => (evalEntriesBlind ho scopes [] entries uses).andThen newObjectBlind
  | .list items, uses => (evalAllBlind ho scopes items uses).andThen fun vs => newArrayBlind vs.toArray
  | .subscript target _, uses =>
    (evalBlind ho scopes target uses).andThen fun _ => storeBlind.andThen fun _ => .lift _
  | .call callee args, uses =>
    (evalBlind ho scopes callee uses.1).andThen fun f => (evalAllBlind ho scopes args uses.2).andThen fun vs => ho.call f vs
  | .helper h args, uses => (evalAllBlind ho scopes args uses).andThen fun vs => callHelperBlind h vs
  | .truthyBind y value, uses =>
    (evalBlind ho scopes value uses.2).andThen fun v => (writeNameBlind scopes y v).andThen fun _ =>
      (Blind.lift _).andThen fun _ => .pure trivial
  | .bind y value, uses =>
    (evalBlind ho scopes value uses.2).andThen fun v => (writeNameBlind scopes y v).andThen fun _ => .pure trivial
  | .await value, uses => (evalBlind ho scopes value uses).andThen ho.await
  | .negate operand, uses => (evalBlind ho scopes operand uses).andThen fun _ => .lift _
  | .not operand, uses => (evalBlind ho scopes operand uses).andThen fun _ => storeBlind.andThen fun _ => .pure trivial
  | .binary _ left right, uses =>
    (evalBlind ho scopes left uses.1).andThen fun _ => (evalBlind ho scopes right uses.2).andThen fun _ =>
      storeBlind.andThen fun _ => produceBlind _
  | .and left right, uses =>
    branchBlind (evalBlind ho scopes left uses.1) (fun _ => evalBlind ho scopes right uses.2) fun _ => .pure trivial
  | .or left right, uses =>
    branchBlind (evalBlind ho scopes left uses.1) (fun _ => .pure trivial) fun _ => evalBlind ho scopes right uses.2
  | .cond test yes no, uses =>
    branchBlind (evalBlind ho scopes test uses.1) (fun _ => evalBlind ho scopes yes uses.2.1)
      fun _ => evalBlind ho scopes no uses.2.2

theorem evalAllBlind (ho : o.Blind x) (scopes : List Scope) :
    (es : List Expr) → usesAll (· ≠ x) es → Blind x (fun _ => True) (evalAll o scopes es)
  | [], _ => .pure trivial
  | e :: rest, uses =>
    (evalBlind ho scopes e uses.1).andThen fun _ => (evalAllBlind ho scopes rest uses.2).andThen fun _ => .pure trivial

theorem evalEntriesBlind (ho : o.Blind x) (scopes : List Scope) (fields : Fields) :
    (es : List (String × Expr)) → usesEntries (· ≠ x) es → Blind x (fun _ => True) (evalEntries o scopes fields es)
  | [], _ => .pure trivial
  | (_, e) :: rest, uses => (evalBlind ho scopes e uses.1).andThen fun _ => evalEntriesBlind ho scopes _ rest uses.2

end

theorem repeatWhileBlind {test : Run Bool} {body : Run Flow} (tested : Blind x (fun _ => True) test)
    (ran : Blind x (fun _ => True) body) (fuel : Nat) : Blind x (fun _ => True) (repeatWhile test body fuel) := by
  induction fuel with
  | zero => exact .throw _
  | succ fuel ih =>
    refine tested.andThen fun b => ?_
    split
    · refine ran.andThen fun flow => ?_
      split
      · exact .pure trivial
      · exact .pure trivial
      · exact ih
    · exact .pure trivial

mutual

theorem execBlind (ho : o.Blind x) (fuel : Nat) (scopes : List Scope) :
    (s : Stmt) → s.Uses (· ≠ x) (fun _ => True) → Blind x (fun _ => True) (exec o fuel scopes s)
  | .assign y value, uses =>
    (evalBlind ho scopes value uses.2).andThen fun v => (writeNameBlind scopes y v).andThen fun _ => .pure trivial
  | .expr value, uses => (evalBlind ho scopes value uses).andThen fun _ => .pure trivial
  | .ret value, uses => (evalBlind ho scopes value uses).andThen fun _ => .pure trivial
  | .cond test yes no, uses =>
    branchBlind (evalBlind ho scopes test uses.1) (fun _ => execAllBlind ho fuel scopes yes uses.2.1)
      fun _ => execElseBlind ho fuel scopes no uses.2.2
  | .loop test body, uses =>
    repeatWhileBlind ((evalBlind ho scopes test uses.1).andThen fun _ => storeBlind.andThen fun _ => .pure trivial)
      (execAllBlind ho fuel scopes body uses.2) fuel
  | .brk, _ | .cont, _ | .pass, _ | .globals _, _ | .nonlocals _, _ => .pure trivial
  | .collect y, uses => by
    simp only [exec]
    refine (readNameBlind scopes uses).andThen fun v => ?_
    cases v with
    | array ref =>
      exact storeBlind.andThen fun s => (newArrayBlind _).andThen fun v => (writeNameBlind scopes y v).andThen fun _ =>
        .pure trivial
    | _ => exact fun _ _ same => .error same
  | .define name isAsync params body, uses =>
    (newFunctionBlind (f := .closure isAsync params _ body scopes) uses.2).andThen fun v => (writeNameBlind scopes name v).andThen fun _ => .pure trivial

theorem execAllBlind (ho : o.Blind x) (fuel : Nat) (scopes : List Scope) :
    (body : List Stmt) → Spares x body → Blind x (fun _ => True) (execAll o fuel scopes body)
  | [], _ => .pure trivial
  | s :: rest, uses => by
    simp only [execAll]
    refine (execBlind ho fuel scopes s uses.1).andThen fun flow => ?_
    split
    · exact execAllBlind ho fuel scopes rest uses.2
    · exact .pure trivial

theorem execElseBlind (ho : o.Blind x) (fuel : Nat) (scopes : List Scope) :
    (body : Option (List Stmt)) → usesInOption (· ≠ x) (fun _ => True) body →
    Blind x (fun _ => True) (execElse o fuel scopes body)
  | none, _ => .pure trivial
  | some body, uses => execAllBlind ho fuel scopes body uses

end

/-! Calls and promises -/

theorem Besides.atDepth {w u : World} (same : Besides x w u) (depth : Nat) :
    Besides x { w with callDepth := depth } { u with callDepth := depth } :=
  { same with depth := rfl, spares := ⟨same.spares.functions, same.spares.promises⟩ }

theorem runBodyBlind (ho : o.Blind x) (fuel : Nat) {body : List Stmt} (spares : Spares x body) (scopes : List Scope) :
    Blind x (fun _ => True) (runBody o fuel body scopes) := by
  intro w u same
  rw [runBodyRun, runBodyRun, same.depth]
  split
  · exact .error same
  have ran := execAllBlind ho fuel scopes body spares _ _ (same.atDepth (w.callDepth + 1))
  change Alike x w.frames.size _ _ _ at ran
  generalize execAll o fuel scopes body _ = r at ran ⊢
  generalize execAll o fuel scopes body _ = r' at ran ⊢
  cases ran with
  | ok _ most kept => exact .ok trivial most (kept.atDepth w.callDepth)
  | error kept => exact .error kept

theorem callFunctionBlind (ho : o.Blind x) (fuel : Nat) {f : Callable} (spares : f.Spares x) (args : List Value) :
    Blind x (fun _ => True) (callFunction o fuel f args) := by
  cases f with
  | closure isAsync params names body around =>
    unfold callFunction
    dsimp only
    refine (bindParamsBlind params args).andThen fun frame => (newFrameBlind frame).andThen fun n => ?_
    split
    · exact newPromiseBlind spares
    · exact runBodyBlind ho fuel spares _
  | library f =>
    unfold callFunction
    dsimp only
    refine storeBlind.andThen fun s => (Blind.lift _).andThen fun r => ?_
    obtain ⟨v, line⟩ := r
    cases line with
    | none => exact .pure trivial
    | some t =>
      intro w u same
      exact .ok trivial le_rfl { same with printed := by simp [same.printed], spares := ⟨same.spares.functions, same.spares.promises⟩ }
  | member m receiver => exact storeBlind.andThen fun s => produceBlind _
  | inert => exact .pure trivial

theorem outsideBlind (x : String) (fuel : Nat) : (outside fuel).Blind x := by
  induction fuel with
  | zero => exact ⟨fun _ _ => .throw _, fun _ => .throw _⟩
  | succ fuel ih =>
    refine ⟨fun f args => ?_, fun v => ?_⟩
    · cases f with
      | function ref =>
        intro w u same
        unfold outside
        simp only [bind, EStateM.bind, get, getThe, MonadStateOf.get, EStateM.get, same.functions]
        cases found : w.functions[ref]? with
        | none => exact .error same
        | some f => exact callFunctionBlind ih fuel (same.spares.functions f (Array.mem_of_getElem? found)) args w u same
      | _ => exact .throw _
    · cases v with
      | promise ref =>
        unfold outside
        dsimp only
        exact (takePromiseBlind ref).bind fun taken spares => (runBodyBlind ih fuel spares _).andThen ih.await
      | _ => exact .pure trivial

/-! Temporaries -/

theorem Besides.refl {w : World} (spares : w.Spares x) : Besides x w w :=
  ⟨rfl, rfl, rfl, rfl, rfl, rfl, fun _ _ _ => rfl, fun _ _ => rfl, spares⟩

theorem writtenBesides {w u : World} (spares : w.Spares x) {scopes : List Scope} {v : Value}
    (wrote : writeName scopes x v w = .ok () u) : Besides x w u := by
  rw [writeRun] at wrote
  obtain rfl := (EStateM.Result.ok.inj wrote).2
  split
  case h_1 frame own _ =>
    refine { Besides.refl spares with size := by simp, locals := fun i y other => ?_ }
    simp only [Array.getD_eq_getD_getElem?, Array.getElem?_modify]
    split
    · cases w.frames[i]? <;> simp [lookupPut, other]
    · rfl
  case h_2 =>
    refine { Besides.refl spares with globals := fun y other => ?_ }
    rw [lookupPut, if_neg other]

theorem frameAmong {scopes : List Scope} {y : String} {f : Nat} (found : frameOf? scopes y = some f) :
    ∃ s ∈ scopes, s.frame = f := by
  induction scopes with
  | nil =>
    unfold frameOf? at found
    simp at found
  | cons s rest ih =>
    simp only [frameOf?] at found
    split at found
    · exact ⟨s, by simp, Option.some.inj found⟩
    · split at found
      · cases found
      · obtain ⟨t, member, same⟩ := ih found
        exact ⟨t, by simp [member], same⟩

/-- Where the frames of all calls around exist, a variable that has just been written is read. -/
theorem readStored {w u : World} {scopes : List Scope} {v : Value} (live : ∀ s ∈ scopes, s.frame < w.frames.size)
    (wrote : writeName scopes x v w = .ok () u) : readName scopes x u = .ok v u := by
  rw [writeRun] at wrote
  obtain rfl := (EStateM.Result.ok.inj wrote).2
  rw [readRun]
  cases found : holder? scopes x with
  | none => simp [lookupPut]
  | some place =>
    obtain ⟨f, own⟩ := place
    obtain ⟨g, among, same⟩ := Option.map_eq_some_iff.mp found
    obtain ⟨rfl, -⟩ := Prod.mk.inj same
    obtain ⟨s, member, rfl⟩ := frameAmong among
    simp [Array.getD_eq_getD_getElem?, Array.getElem?_modify, Array.getElem?_eq_getElem (live s member), lookupPut]

section Logical

variable {scopes : List Scope} {l : Expr} {w u : World} {b : Bool}

theorem andRun (ended : eval o scopes l w = .ok (.bool b) u) (r : Expr) :
    eval o scopes (.and l r) w = if b then eval o scopes r u else .ok (.bool b) u := by
  simp only [eval, bindRuns ended]
  cases b <;> rfl

theorem orRun (ended : eval o scopes l w = .ok (.bool b) u) (r : Expr) :
    eval o scopes (.or l r) w = if b then .ok (.bool b) u else eval o scopes r u := by
  simp only [eval, bindRuns ended]
  cases b <;> rfl

theorem testRun {u' : World} (ended : eval o scopes l w = .ok (.bool b) u)
    (wrote : writeName scopes x (.bool b) u = .ok () u') (yes no : Expr) :
    eval o scopes (.cond (.truthyBind x l) yes no) w = if b then eval o scopes yes u' else eval o scopes no u' := by
  simp only [eval, bind_assoc, bindRuns ended, bindRuns wrote]
  cases b <;> rfl

/-- The same logical operator with its left operand, a truth value, in place and in a temporary that the code does not
use otherwise. -/
theorem logicalAlike (ho : o.Blind x) (spares : w.Spares x) (live : ∀ s ∈ scopes, s.frame < w.frames.size)
    (first : l.Uses (· ≠ x)) {r : Expr} (second : r.Uses (· ≠ x))
    (truth : ∀ v u, eval o scopes l w = .ok v u → ∃ b, v = .bool b) :
    Alike x w.frames.size (fun _ => True) (eval o scopes (.and l r) w)
        (eval o scopes (.cond (.truthyBind x l) r (.name x)) w) ∧
      Alike x w.frames.size (fun _ => True) (eval o scopes (.or l r) w)
        (eval o scopes (.cond (.truthyBind x l) (.name x) r) w) := by
  have ran := evalBlind ho scopes l first w w (.refl spares)
  cases ended : eval o scopes l w with
  | error f u =>
    rw [ended] at ran
    cases ran with
    | error same =>
      simp only [eval, bind, EStateM.bind, ended]
      exact ⟨.error same, .error same⟩
  | ok v u =>
    rw [ended] at ran
    cases ran with
    | ok _ most same =>
      obtain ⟨b, rfl⟩ := truth v u ended
      obtain ⟨u', wrote⟩ : ∃ u', writeName scopes x (.bool b) u = .ok () u' := ⟨_, writeRun ..⟩
      have besides := writtenBesides same.spares wrote
      have right := (evalBlind ho scopes r second u u' besides).fewer most
      have left : Alike x w.frames.size (fun _ => True) (.ok (.bool b) u) (eval o scopes (.name x) u') := by
        rw [eval, readStored (fun s member => (live s member).trans_le most) wrote]
        exact .ok trivial most besides
      rw [andRun ended, orRun ended, testRun ended wrote, testRun ended wrote]
      cases b with
      | true => exact ⟨right, left⟩
      | false => exact ⟨left, right⟩

end Logical

end Code

end Fragment.Target
