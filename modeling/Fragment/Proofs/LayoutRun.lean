import Fragment.Proofs.Layout

/-! Code runs alike in both layouts.
The calls and promises of one layout are those of the other, step by step, with one exception: at the
outermost level code must not read a variable of the module before it has a value. `settles` tells
whether an expression keeps to that. -/
namespace Fragment.Target

mutual

/-- The names that have values after an expression, given some that have before it; none if it may
read one of the names `kept` before that has a value. -/
def Expr.settles (kept : List String) (B : List String) : Expr → Option (List String)
  | .name x => if x ∈ kept ∧ x ∉ B then none else some B
  | .dict entries => settlesEntries kept B entries
  | .list items => settlesAll kept B items
  | .subscript value _ | .await value | .negate value | .not value => value.settles kept B
  | .call callee args => (callee.settles kept B).bind fun C => settlesAll kept C args
  | .helper _ args => settlesAll kept B args
  | .truthyBind x value | .bind x value => (value.settles kept B).map (x :: ·)
  | .binary _ left right => (left.settles kept B).bind fun C => right.settles kept C
  | .and left right | .or left right =>
    (left.settles kept B).bind fun C => (right.settles kept C).map fun _ => C
  | .cond test yes no => (test.settles kept B).bind fun C =>
    ((yes.settles kept C).map fun _ => C).bind fun C => (no.settles kept C).map fun _ => C
  | .none | .bool _ | .number _ | .text _ => some B

def settlesAll (kept : List String) (B : List String) : List Expr → Option (List String)
  | [] => some B
  | e :: rest => (e.settles kept B).bind fun C => settlesAll kept C rest

def settlesEntries (kept : List String) (B : List String) : List (String × Expr) → Option (List String)
  | [] => some B
  | (_, e) :: rest => (e.settles kept B).bind fun C => settlesEntries kept C rest

end

/-- At the outermost level some names come to have values, elsewhere nothing is said. -/
def Settled (ss : List Scope) (settles : List String → Option (List String)) (B C : List String) : Prop :=
  if ss = [] then settles B = some C else C = B

section Settled

variable {ss : List Scope} {B C : List String} {f g : List String → Option (List String)}

theorem Settled.inside (h : ss ≠ []) : Settled ss f B B := by simp [Settled, h]

theorem Settled.split (h : Settled ss (fun B => (f B).bind g) B C) :
    ∃ D, Settled ss f B D ∧ Settled ss g D C := by
  unfold Settled at h ⊢
  split at h
  case isTrue top =>
    obtain ⟨D, first, rest⟩ := Option.bind_eq_some_iff.mp h
    exact ⟨D, by simp [top, first], by simp [top, rest]⟩
  case isFalse inside => exact ⟨B, by simp [inside], by simp [inside, h]⟩

theorem Settled.nothing (h : Settled ss some B C) : C = B := by
  unfold Settled at h
  split at h <;> simp_all

/-- A part that may be left out gives no name a value for sure. -/
theorem Settled.perhaps (h : Settled ss (fun B => (f B).map fun _ => B) B C) : C = B ∧ ∃ D, Settled ss f B D := by
  unfold Settled at h ⊢
  split at h
  case isTrue top =>
    obtain ⟨D, first, same⟩ := Option.map_eq_some_iff.mp h
    exact ⟨same.symm, D, by simp [top, first]⟩
  case isFalse inside => exact ⟨h, B, by simp [inside]⟩

theorem Settled.mapped {k : List String → List String} (h : Settled ss (fun B => (f B).map k) B C) :
    ∃ D, Settled ss f B D ∧ (if ss = [] then k D = C else C = D) := by
  unfold Settled at h ⊢
  split at h
  case isTrue top =>
    obtain ⟨D, first, rest⟩ := Option.map_eq_some_iff.mp h
    exact ⟨D, by simp [top, first], by simp [top, rest]⟩
  case isFalse inside => exact ⟨B, by simp [inside], by simp [inside, h]⟩

end Settled

/-- What two machines do with calls and promises agrees. -/
structure Outside.Agree (L : Layout) (gap : Nat) (o o' : Outside) : Prop where
  call : ∀ B f args, Target.Agree L gap B B (fun v v' => v' = L.value v) (o.call f args)
    (o'.call (L.value f) (args.map L.value))
  await : ∀ B v, Target.Agree L gap B B (fun v v' => v' = L.value v) (o.await v) (o'.await (L.value v))

variable {L : Layout} {gap : Nat} {o o' : Outside} {ss : List Scope}

/-- A condition on a value. -/
theorem branchAgrees {α β : Type} {B C D : List String} {post : α → β → Prop} {test test' : Run Value}
    {yes no : Value → Run α} {yes' no' : Value → Run β}
    (tested : Agree L gap B C (fun v v' => v' = L.value v) test test')
    (whenTrue : ∀ v, Agree L gap C D post (yes v) (yes' (L.value v)))
    (whenFalse : ∀ v, Agree L gap C D post (no v) (no' (L.value v))) :
    Agree L gap B D post
      (do let v ← test; if isTrue (← Run.store) v then yes v else no v)
      (do let v ← test'; if isTrue (← Run.store) v then yes' v else no' v) := by
  refine tested.bind ?_
  rintro v _ rfl
  refine storeAgrees.bind ?_
  rintro s _ rfl
  rw [Layout.value, isTrueRenumber]
  split
  · exact whenTrue v
  · exact whenFalse v

mutual

/-- Names keep their values. -/
theorem settlesMore {kept : List String} : (e : Expr) → {B C : List String} →
    e.settles kept B = some C → ∀ x ∈ B, x ∈ C
  | .name x, B, C, h => by
    simp only [Expr.settles] at h
    split at h <;> simp_all
  | .none, _, _, h | .bool _, _, _, h | .number _, _, _, h | .text _, _, _, h => by
    simp_all [Expr.settles]
  | .dict entries, _, _, h => settlesEntriesMore entries h
  | .list items, _, _, h => settlesAllMore items h
  | .helper _ args, _, _, h => settlesAllMore args h
  | .subscript value _, _, _, h | .await value, _, _, h | .negate value, _, _, h | .not value, _, _, h =>
    settlesMore value h
  | .truthyBind x value, _, _, h | .bind x value, _, _, h => by
    obtain ⟨D, first, rfl⟩ := Option.map_eq_some_iff.mp h
    exact fun y hy => List.mem_cons_of_mem _ (settlesMore value first y hy)
  | .call callee args, _, _, h => by
    obtain ⟨D, first, rest⟩ := Option.bind_eq_some_iff.mp h
    exact fun y hy => settlesAllMore args rest y (settlesMore callee first y hy)
  | .binary _ left right, _, _, h => by
    obtain ⟨D, first, rest⟩ := Option.bind_eq_some_iff.mp h
    exact fun y hy => settlesMore right rest y (settlesMore left first y hy)
  | .and left right, _, _, h | .or left right, _, _, h => by
    obtain ⟨D, first, rest⟩ := Option.bind_eq_some_iff.mp h
    obtain ⟨_, _, rfl⟩ := Option.map_eq_some_iff.mp rest
    exact settlesMore left first
  | .cond test yes no, _, _, h => by
    obtain ⟨D, first, rest⟩ := Option.bind_eq_some_iff.mp h
    obtain ⟨_, yes, no⟩ := Option.bind_eq_some_iff.mp rest
    obtain ⟨_, _, rfl⟩ := Option.map_eq_some_iff.mp yes
    obtain ⟨_, _, rfl⟩ := Option.map_eq_some_iff.mp no
    exact settlesMore test first

theorem settlesAllMore {kept : List String} : (es : List Expr) → {B C : List String} →
    settlesAll kept B es = some C → ∀ x ∈ B, x ∈ C
  | [], _, _, h => by simp_all [settlesAll]
  | e :: rest, _, _, h => by
    obtain ⟨D, first, rest'⟩ := Option.bind_eq_some_iff.mp h
    exact fun y hy => settlesAllMore rest rest' y (settlesMore e first y hy)

theorem settlesEntriesMore {kept : List String} : (es : List (String × Expr)) → {B C : List String} →
    settlesEntries kept B es = some C → ∀ x ∈ B, x ∈ C
  | [], _, _, h => by simp_all [settlesEntries]
  | (_, e) :: rest, _, _, h => by
    obtain ⟨D, first, rest'⟩ := Option.bind_eq_some_iff.mp h
    exact fun y hy => settlesEntriesMore rest rest' y (settlesMore e first y hy)

end

theorem Settled.forget {α β : Type} {C D : List String} {post : α → β → Prop} {m : Run α} {m' : Run β} {e : Expr}
    (settled : Settled ss (e.settles L.names ·) C D) (h : Agree L gap C D post m m') : Agree L gap C C post m m' := by
  refine h.weaken (fun _ hx => hx) ?_
  unfold Settled at settled
  split at settled
  · exact settlesMore e settled
  · subst settled; exact fun _ hx => hx

/-- A variable gets the value of an expression. -/
theorem bindAgrees {α β : Type} {B C D E : List String} {post : α → β → Prop} {x : String} {m m' : Run Value}
    {k : Value → Run α} {k' : Value → Run β} (guarded : L.Guarded ss)
    (value : Agree L gap B D (fun v v' => v' = L.value v) m m')
    (after : if ss = [] then x :: D = C else C = D)
    (rest : ∀ v, Agree L gap C E post (k v) (k' (L.value v))) :
    Agree L gap B E post
      (do let v ← m; writeName ss x v; k v)
      (do let v ← m'; writeName (L.scopes ss) x v; k' v) := by
  refine value.bind ?_
  rintro v _ rfl
  have same : written ss x D = C := by
    unfold written
    split <;> simp_all
  exact (same ▸ writeAgrees guarded v).bind fun _ _ _ => rest v

mutual

/-- The value of an expression. -/
theorem evalAgrees (ho : o.Agree L gap o') (guarded : L.Guarded ss) : (e : Expr) → {B C : List String} →
    e.Uses Layout.Plain → Settled ss (e.settles L.names ·) B C →
    Agree L gap B C (fun v v' => v' = L.value v) (eval o ss e) (eval o' (L.scopes ss) e)
  | .none, _, _, _, settled | .bool _, _, _, _, settled | .number _, _, _, _, settled | .text _, _, _, _, settled => by
    cases Settled.nothing settled
    exact Agree.pure rfl
  | .name x, B, C, uses, settled => by
    have same : C = B := by
      unfold Settled at settled
      split at settled
      · simp only [Expr.settles] at settled
        split at settled <;> simp_all
      · exact settled
    subst same
    refine readAgrees guarded uses fun top member => ?_
    simp only [Settled, top, if_true, Expr.settles] at settled
    split at settled <;> simp_all
  | .dict entries, _, _, uses, settled => by
    simp only [eval]
    refine (evalEntriesAgrees ho guarded entries [] uses settled).bind ?_
    rintro fields _ rfl
    exact newObjectAgrees fields
  | .list items, _, _, uses, settled => by
    simp only [eval]
    refine (evalAllAgrees ho guarded items uses settled).bind ?_
    rintro vs _ rfl
    simpa using newArrayAgrees vs.toArray
  | .subscript target key, _, _, uses, settled => by
    simp only [eval]
    refine (evalAgrees ho guarded target uses settled).bind ?_
    rintro v _ rfl
    refine storeAgrees.bind ?_
    rintro s _ rfl
    exact liftAgrees (subscriptRenumber ..)
  | .call callee args, _, _, uses, settled => by
    obtain ⟨D, first, rest⟩ := settled.split
    simp only [eval]
    refine (evalAgrees ho guarded callee uses.1 first).bind ?_
    rintro f _ rfl
    refine (evalAllAgrees ho guarded args uses.2 rest).bind ?_
    rintro vs _ rfl
    exact ho.call _ f vs
  | .helper h args, _, _, uses, settled => by
    simp only [eval]
    refine (evalAllAgrees ho guarded args uses settled).bind ?_
    rintro vs _ rfl
    exact callHelperAgrees h vs
  | .truthyBind x value, _, _, uses, settled => by
    obtain ⟨D, first, after⟩ := settled.mapped
    exact bindAgrees guarded (evalAgrees ho guarded value uses.2 first) after fun v =>
      scalarAgrees (Value.truthyRenumber ..) fun _ => rfl
  | .bind x value, _, _, uses, settled => by
    obtain ⟨D, first, after⟩ := settled.mapped
    exact bindAgrees guarded (evalAgrees ho guarded value uses.2 first) after fun v => Agree.pure rfl
  | .await value, _, _, uses, settled => by
    simp only [eval]
    refine (evalAgrees ho guarded value uses settled).bind ?_
    rintro v _ rfl
    exact ho.await _ v
  | .negate operand, _, _, uses, settled => by
    simp only [eval]
    refine (evalAgrees ho guarded operand uses settled).bind ?_
    rintro v _ rfl
    exact liftAgrees (negateRenumber ..)
  | .not operand, _, _, uses, settled => by
    simp only [eval]
    refine (evalAgrees ho guarded operand uses settled).bind ?_
    rintro v _ rfl
    refine storeAgrees.bind ?_
    rintro s _ rfl
    exact Agree.pure (by simp [Layout.value])
  | .binary op left right, _, _, uses, settled => by
    obtain ⟨D, first, rest⟩ := settled.split
    simp only [eval]
    refine (evalAgrees ho guarded left uses.1 first).bind ?_
    rintro a _ rfl
    refine (evalAgrees ho guarded right uses.2 rest).bind ?_
    rintro b _ rfl
    refine storeAgrees.bind ?_
    rintro s _ rfl
    exact produceAgrees (applyRenumber L.numberInjective ..)
  | .and left right, _, _, uses, settled => by
    obtain ⟨D, first, rest⟩ := settled.split
    obtain ⟨rfl, E, second⟩ := rest.perhaps
    exact branchAgrees (evalAgrees ho guarded left uses.1 first)
      (fun _ => second.forget (evalAgrees ho guarded right uses.2 second)) fun _ => Agree.pure rfl
  | .or left right, _, _, uses, settled => by
    obtain ⟨D, first, rest⟩ := settled.split
    obtain ⟨rfl, E, second⟩ := rest.perhaps
    exact branchAgrees (evalAgrees ho guarded left uses.1 first) (fun _ => Agree.pure rfl)
      fun _ => second.forget (evalAgrees ho guarded right uses.2 second)
  | .cond test yes no, _, _, uses, settled => by
    obtain ⟨D, first, rest⟩ := settled.split
    obtain ⟨_, left, right⟩ := rest.split
    obtain ⟨rfl, E, whenTrue⟩ := left.perhaps
    obtain ⟨rfl, F, whenFalse⟩ := right.perhaps
    exact branchAgrees (evalAgrees ho guarded test uses.1 first)
      (fun _ => whenTrue.forget (evalAgrees ho guarded yes uses.2.1 whenTrue))
      fun _ => whenFalse.forget (evalAgrees ho guarded no uses.2.2 whenFalse)

theorem evalAllAgrees (ho : o.Agree L gap o') (guarded : L.Guarded ss) : (es : List Expr) → {B C : List String} →
    usesAll Layout.Plain es → Settled ss (settlesAll L.names · es) B C →
    Agree L gap B C (fun vs vs' => vs' = vs.map L.value) (evalAll o ss es) (evalAll o' (L.scopes ss) es)
  | [], _, _, _, settled => by
    cases Settled.nothing settled
    exact Agree.pure rfl
  | e :: rest, _, _, uses, settled => by
    obtain ⟨D, first, later⟩ := settled.split
    simp only [evalAll]
    refine (evalAgrees ho guarded e uses.1 first).bind ?_
    rintro v _ rfl
    refine (evalAllAgrees ho guarded rest uses.2 later).bind ?_
    rintro vs _ rfl
    exact Agree.pure rfl

theorem evalEntriesAgrees (ho : o.Agree L gap o') (guarded : L.Guarded ss) : (es : List (String × Expr)) →
    (fields : Fields) → {B C : List String} → usesEntries Layout.Plain es →
    Settled ss (settlesEntries L.names · es) B C →
    Agree L gap B C (fun fields fields' => fields' = fields.renumber L.number) (evalEntries o ss fields es)
      (evalEntries o' (L.scopes ss) (fields.renumber L.number) es)
  | [], _, _, _, _, settled => by
    cases Settled.nothing settled
    exact Agree.pure rfl
  | (key, e) :: rest, fields, _, _, uses, settled => by
    obtain ⟨D, first, later⟩ := settled.split
    simp only [evalEntries]
    refine (evalAgrees ho guarded e uses.1 first).bind ?_
    rintro v _ rfl
    rw [Layout.value, ← Fields.setRenumber]
    exact evalEntriesAgrees ho guarded rest (fields.set key v) uses.2 later

end

/-! Statements of functions -/

/-- In a function nothing has to be known about values of variables. -/
theorem evalInside (ho : o.Agree L gap o') (guarded : L.Guarded ss) (inside : ss ≠ []) {e : Expr}
    (uses : e.Uses Layout.Plain) {B : List String} :
    Agree L gap B B (fun v v' => v' = L.value v) (eval o ss e) (eval o' (L.scopes ss) e) :=
  evalAgrees ho guarded e uses (.inside inside)

theorem writeInside (guarded : L.Guarded ss) (inside : ss ≠ []) {B : List String} (x : String) (v : Value) :
    Agree L gap B B (fun _ _ => True) (writeName ss x v) (writeName (L.scopes ss) x (L.value v)) := by
  have wrote : Agree L gap B (written ss x B) (fun _ _ => True) _ _ := writeAgrees guarded v
  rwa [written, if_neg inside] at wrote

/-- The second machine may make fewer rounds before it stops. -/
theorem repeatWhileAgrees {B : List String} {test test' : Run Bool} {body body' : Run Flow}
    (tested : Agree L gap B B (fun b b' => b' = b) test test')
    (ran : Agree L gap B B (fun f f' => f' = L.flow f) body body') (fuel : Nat) :
    Agree L gap B B (fun f f' => f' = L.flow f) (repeatWhile test body (fuel + gap)) (repeatWhile test' body' fuel) := by
  induction fuel with
  | zero =>
    by_cases exact : gap = 0
    · subst exact; exact Agree.throw _
    · exact fun _ _ _ => .limit exact rfl
  | succ fuel ih =>
    rw [Nat.add_right_comm]
    simp only [repeatWhile]
    refine tested.bind ?_
    rintro b _ rfl
    split
    · refine ran.bind ?_
      rintro flow _ rfl
      cases flow with
      | brk => exact Agree.pure rfl
      | ret v => exact Agree.pure rfl
      | next | cont => exact ih
    · exact Agree.pure rfl

mutual

theorem execAgrees (ho : o.Agree L gap o') (guarded : L.Guarded ss) (inside : ss ≠ []) (fuel : Nat) {B : List String} :
    (s : Stmt) → s.Uses Layout.Plain (· ∉ L.names) →
    Agree L gap B B (fun f f' => f' = L.flow f) (exec o (fuel + gap) ss s) (exec o' fuel (L.scopes ss) s)
  | .assign x value, uses => by
    simp only [exec]
    refine (evalInside ho guarded inside uses.2).bind ?_
    rintro v _ rfl
    exact (writeInside guarded inside x v).bind fun _ _ _ => Agree.pure rfl
  | .expr value, uses => by
    simp only [exec]
    exact (evalInside ho guarded inside uses).bind fun _ _ _ => Agree.pure rfl
  | .ret value, uses => by
    simp only [exec]
    refine (evalInside ho guarded inside uses).bind ?_
    rintro v _ rfl
    exact Agree.pure rfl
  | .cond test yes no, uses => by
    exact branchAgrees (evalInside ho guarded inside uses.1)
      (fun _ => execAllAgrees ho guarded inside fuel yes uses.2.1)
      fun _ => execElseAgrees ho guarded inside fuel no uses.2.2
  | .loop test body, uses => by
    refine repeatWhileAgrees ?_ (execAllAgrees ho guarded inside fuel body uses.2) fuel
    refine (evalInside ho guarded inside uses.1).bind ?_
    rintro v _ rfl
    refine storeAgrees.bind ?_
    rintro s _ rfl
    exact Agree.pure (isTrueRenumber ..)
  | .brk, _ | .cont, _ | .pass, _ | .globals _, _ | .nonlocals _, _ => Agree.pure rfl
  | .collect x, uses => by
    unfold exec
    dsimp only
    refine (readAgrees guarded uses fun top => absurd top inside).bind ?_
    rintro v _ rfl
    cases v with
    | array ref =>
      simp only [Layout.value, Value.renumberArray]
      refine storeAgrees.bind ?_
      rintro s _ rfl
      rw [Store.arrayRenumber]
      refine (newArrayAgrees (s.array ref)).bind ?_
      rintro v _ rfl
      exact (writeInside guarded inside x v).bind fun _ _ _ => Agree.pure rfl
    | _ => exact fun _ _ h => .error (h.weaken (by simp))
  | .define name isAsync params body, uses => by
    simp only [exec]
    refine (newFunctionAgrees (f := .closure isAsync params _ body ss) ⟨uses.2, guarded⟩).bind ?_
    rintro v _ rfl
    exact (writeInside guarded inside name v).bind fun _ _ _ => Agree.pure rfl

theorem execAllAgrees (ho : o.Agree L gap o') (guarded : L.Guarded ss) (inside : ss ≠ []) (fuel : Nat) {B : List String} :
    (body : List Stmt) → usesIn Layout.Plain (· ∉ L.names) body →
    Agree L gap B B (fun f f' => f' = L.flow f) (execAll o (fuel + gap) ss body) (execAll o' fuel (L.scopes ss) body)
  | [], _ => Agree.pure rfl
  | s :: rest, uses => by
    simp only [execAll]
    refine (execAgrees ho guarded inside fuel s uses.1).bind ?_
    rintro flow _ rfl
    cases flow with
    | next => exact execAllAgrees ho guarded inside fuel rest uses.2
    | brk | cont | ret => exact Agree.pure rfl

theorem execElseAgrees (ho : o.Agree L gap o') (guarded : L.Guarded ss) (inside : ss ≠ []) (fuel : Nat) {B : List String} :
    (body : Option (List Stmt)) → usesInOption Layout.Plain (· ∉ L.names) body →
    Agree L gap B B (fun f f' => f' = L.flow f) (execElse o (fuel + gap) ss body) (execElse o' fuel (L.scopes ss) body)
  | none, _ => Agree.pure rfl
  | some body, uses => execAllAgrees ho guarded inside fuel body uses

end

/-! Calls and promises -/

theorem Mirrors.atDepth {w w' : World} {B : List String} {g : Nat} (h : Mirrors L g B w w') (gap depth : Nat) :
    Mirrors L gap B { w with callDepth := depth } { w' with callDepth := depth + gap } :=
  { h with depth := rfl }

/-- What the statements of a function gave. -/
def Flow.result : Flow → Value
  | .ret v => v
  | _ => .undefined

theorem runBodyRun (o : Outside) (fuel : Nat) (body : List Stmt) (ss : List Scope) (w : World) :
    runBody o fuel body ss w =
      if callLimit ≤ w.callDepth then .error .recursion w
      else match execAll o fuel ss body { w with callDepth := w.callDepth + 1 } with
        | .ok flow u => .ok flow.result { u with callDepth := w.callDepth }
        | .error f u => .error f u := by
  unfold runBody
  simp only [bind, EStateM.bind, get, getThe, MonadStateOf.get, EStateM.get]
  split
  · rfl
  · simp only [modify, modifyGet, MonadStateOf.modifyGet, EStateM.modifyGet, EStateM.bind]
    cases execAll o fuel ss body _ with
    | ok flow u => cases flow <;> rfl
    | error f u => rfl

theorem runBodyAgrees (ho : o.Agree L gap o') (fuel : Nat) {B : List String} {body : List Stmt}
    (waiting : L.Waiting (.ready body ss)) :
    Agree L gap B B (fun v v' => v' = L.value v) (runBody o (fuel + gap) body ss)
      (runBody o' fuel body (L.scopes ss)) := by
  obtain ⟨code, guarded, inside⟩ := waiting
  intro w w' h
  rw [runBodyRun, runBodyRun]
  by_cases full : callLimit ≤ w'.callDepth
  · rw [if_pos full]
    by_cases exact : gap = 0
    · have same : w'.callDepth = w.callDepth := by simp [h.depth, exact]
      rw [if_pos (same ▸ full)]
      exact .error (h.weaken (by simp))
    · exact .limit exact rfl
  have room : ¬ callLimit ≤ w.callDepth := by have := h.depth; omega
  rw [if_neg full, if_neg room, h.depth, Nat.add_right_comm]
  have ran := execAllAgrees ho guarded inside fuel (B := B) body code _ _ (h.atDepth gap (w.callDepth + 1))
  generalize execAll o (fuel + gap) ss body _ = r at ran ⊢
  generalize execAll o' fuel (L.scopes ss) body _ = r' at ran ⊢
  cases ran with
  | ok same mirrored =>
    subst same
    refine .ok ?_ (mirrored.atDepth gap w.callDepth)
    rename_i flow _ _
    cases flow <;> rfl
  | error mirrored => exact .error mirrored
  | limit deeper limited => exact .limit deeper limited

theorem callFunctionAgrees (ho : o.Agree L gap o') (fuel : Nat) {B : List String} {f : Callable} (sound : L.Sound f)
    (args : List Value) :
    Agree L gap B B (fun v v' => v' = L.value v) (callFunction o (fuel + gap) f args)
      (callFunction o' fuel (L.callable f) (args.map L.value)) := by
  cases f with
  | closure isAsync params names body around =>
    unfold callFunction Layout.callable
    dsimp only
    refine (bindParamsAgrees params args).bind ?_
    rintro frame _ rfl
    refine (newFrameAgrees frame).bind ?_
    rintro n _ rfl
    have waiting : L.Waiting (.ready body (⟨n, names, globalNames body⟩ :: around)) := by
      refine ⟨sound.1, ?_, by simp⟩
      intro s hs
      rcases List.mem_cons.mp hs with rfl | later
      · exact usesGlobals sound.1
      · exact sound.2 s later
    cases isAsync with
    | true => exact newPromiseAgrees waiting
    | false => exact runBodyAgrees ho fuel waiting
  | library f =>
    unfold callFunction Layout.callable
    dsimp only
    refine storeAgrees.bind ?_
    rintro s _ rfl
    refine (liftAgrees (Value.LibraryFunction.callRenumber ..)).bind ?_
    rintro ⟨v, line⟩ _ rfl
    cases line with
    | none => exact Agree.pure rfl
    | some t => exact fun _ _ h => .ok rfl { h with printed := by simp [h.printed] }
  | member m receiver =>
    unfold callFunction Layout.callable
    dsimp only
    refine storeAgrees.bind ?_
    rintro s _ rfl
    exact produceAgrees (Value.callMemberRenumber ..)
  | inert => exact Agree.pure rfl

theorem callAgrees (ho : o.Agree L gap o') {fuel : Nat} {B : List String} (ref : Nat) (args : List Value) :
    Agree L gap B B (fun v v' => v' = L.value v)
      (do match (← get).functions[ref]? with
        | some f => callFunction o (fuel + gap) f args
        | none => throw .kind)
      (do match (← get).functions[L.number ref]? with
        | some f => callFunction o' fuel f (args.map L.value)
        | none => throw .kind) := by
  intro w w' h
  simp only [bind, EStateM.bind, get, getThe, MonadStateOf.get, EStateM.get, Layout.number, h.functions.placed ref]
  cases found : w.functions[ref]? with
  | none => exact .error (h.weaken (by simp))
  | some f => exact callFunctionAgrees ho fuel (h.sound f (Array.mem_of_getElem? found)) args w w' h

/-- The machine that runs code in the one layout agrees with the one that runs it in the other. -/
theorem outsideAgrees (L : Layout) (gap fuel : Nat) : (outside (fuel + gap)).Agree L gap (outside fuel) := by
  induction fuel with
  | zero =>
    by_cases exact : gap = 0
    · subst exact; exact ⟨fun _ _ _ => Agree.throw _, fun _ _ => Agree.throw _⟩
    · exact ⟨fun _ _ _ _ _ _ => .limit exact rfl, fun _ _ _ _ _ => .limit exact rfl⟩
  | succ fuel ih =>
    rw [Nat.add_right_comm]
    refine ⟨fun B f args => ?_, fun B v => ?_⟩
    · cases f with
      | function ref => exact callAgrees ih ref args
      | _ => exact Agree.throw _
    · cases v with
      | promise ref =>
        unfold outside
        simp only [Layout.value, Value.renumberPromise]
        refine (takePromiseAgrees ref).bind ?_
        rintro ⟨body, scopes⟩ _ ⟨rfl, waiting⟩
        refine (runBodyAgrees ih fuel waiting).bind ?_
        rintro v _ rfl
        exact ih.await B v
      | _ => exact Agree.pure rfl

end Fragment.Target
