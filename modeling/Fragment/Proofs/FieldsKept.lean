import Fragment.Proofs.Running
import Mathlib.Logic.Relation

/-! Objects keep their fields, and variables stay set.
Running code makes objects and sets fields, and never takes a field away. So an object has all the
fields that it was made with, whatever has run since. In the same way a variable that has a value
has one from then on. -/
namespace Fragment.Target

def World.hasField (w : World) (ref : Nat) (key : String) : Prop := ((w.store.object ref).get? key).isSome

def FieldsKept (w u : World) : Prop := ∀ ref key, w.hasField ref key → u.hasField ref key

/-- A frame in which each variable of another is set. -/
def Frame.Extends (g f : Frame) : Prop := ∀ x, (f.lookup x).isSome → (g.lookup x).isSome

/-- Between the two worlds nothing has been taken away. -/
structure Kept (w u : World) : Prop where
  fields : FieldsKept w u
  calls : w.frames.size ≤ u.frames.size
  locals : ∀ frame, (u.frames.getD frame []).Extends (w.frames.getD frame [])
  globals : Frame.Extends u.globals w.globals

/-- The world after a step, whether it ended or was stopped. -/
def worldAfter {α : Type} (m : Run α) (w : World) : World :=
  match m w with
  | .ok _ u | .error _ u => u

/-- A step that takes nothing away. -/
def Keeps {α : Type} (m : Run α) : Prop := ∀ w, Kept w (worldAfter m w)

theorem Kept.refl (w : World) : Kept w w := ⟨fun _ _ h => h, Nat.le_refl _, fun _ _ h => h, fun _ h => h⟩

theorem Kept.trans {w u v : World} (first : Kept w u) (later : Kept u v) : Kept w v where
  fields ref key h := later.fields ref key (first.fields ref key h)
  calls := Nat.le_trans first.calls later.calls
  locals frame x h := later.locals frame x (first.locals frame x h)
  globals x h := later.globals x (first.globals x h)

/-- A change of objects alone. -/
theorem Kept.stored {w : World} {store : Store} (fields : FieldsKept w { w with store }) : Kept w { w with store } :=
  ⟨fields, Nat.le_refl _, fun _ _ h => h, fun _ h => h⟩

theorem putExtends (f : Frame) (x : String) (v : Value) : (f.put x v).Extends f := by
  intro y set
  rw [lookupPut]
  split
  · rfl
  · exact set

section Keeps

variable {α β : Type} {m : Run α} {k : α → Run β}

theorem Keeps.pure (a : α) : Keeps (pure a : Run α) := fun w => Kept.refl w

theorem Keeps.throw (f : Fault) : Keeps (throw f : Run α) := fun w => Kept.refl w

theorem Keeps.bind (first : Keeps m) (rest : ∀ a, Keeps (k a)) : Keeps (m >>= k) := by
  intro w
  have start := first w
  simp only [worldAfter, Bind.bind, EStateM.bind] at start ⊢
  cases ended : m w with
  | error f u => simpa [ended] using start
  | ok a u =>
    simp only [ended] at start ⊢
    exact start.trans (rest a u)

theorem Keeps.get : Keeps (get : Run World) := fun w => Kept.refl w

theorem Keeps.changed {f : World → World} (h : ∀ w, Kept w (f w)) : Keeps (modify f : Run Unit) := h

theorem Keeps.made {f : World → α × World} (h : ∀ w, Kept w (f w).2) : Keeps (modifyGet f : Run α) := by
  intro w
  exact h w

/-- A step that leaves objects and variables alone. -/
theorem Keeps.apart {f : World → World} (objects : ∀ w, (f w).store.objects = w.store.objects)
    (frames : ∀ w, (f w).frames = w.frames) (globals : ∀ w, (f w).globals = w.globals) : Keeps (modify f : Run Unit) := by
  refine .changed fun w => ⟨fun ref key has => ?_, (frames w).symm ▸ Nat.le_refl _, fun frame x h => ?_, fun x h => ?_⟩
  · simpa only [World.hasField, Store.object, objects w] using has
  · rwa [frames w]
  · rwa [globals w]

theorem Keeps.lift (r : Except Fault α) : Keeps (Run.lift r) := by
  cases r with
  | ok a => exact .pure a
  | error f => exact .throw f

end Keeps

theorem storeKeeps : Keeps Run.store := Keeps.get.bind fun _ => .pure _

theorem newArrayKeeps (items : Array Value) : Keeps (Run.newArray items) :=
  .made fun _ => .stored fun _ _ has => has

theorem newFunctionKeeps (f : Callable) : Keeps (Run.newFunction f) :=
  .made fun _ => ⟨fun _ _ has => has, Nat.le_refl _, fun _ _ h => h, fun _ h => h⟩

theorem newPromiseKeeps (p : Promise) : Keeps (Run.newPromise p) :=
  .made fun _ => ⟨fun _ _ has => has, Nat.le_refl _, fun _ _ h => h, fun _ h => h⟩

/-- A new call gets a frame of its own. -/
theorem newFrameKeeps (f : Frame) : Keeps (Run.newFrame f) := by
  refine .made fun w => ⟨fun _ _ has => has, by simp, fun frame x h => ?_, fun _ h => h⟩
  simp only [Array.getD_eq_getD_getElem?, Array.getElem?_push] at h ⊢
  split
  case isTrue last =>
    subst last
    simp at h
  case isFalse => exact h

theorem newObjectKeeps (fields : Fields) : Keeps (Run.newObject fields) := by
  refine .made fun w => .stored fun ref key has => ?_
  simp only [World.hasField, Store.object, Store.newObject, Array.getD_eq_getD_getElem?, Array.getElem?_push] at has ⊢
  split
  case isTrue last =>
    rw [Array.getElem?_eq_none (by omega)] at has
    simp [Fields.get?] at has
  case isFalse => exact has

theorem setKeeps (fields : Fields) (key other : String) (v : Value) (has : (fields.get? other).isSome) :
    ((fields.set key v).get? other).isSome := by
  induction fields with
  | nil => simp [Fields.get?] at has
  | cons first rest ih =>
    obtain ⟨k, old⟩ := first
    simp only [Fields.get?, List.lookup_cons, Fields.set] at has ih ⊢
    split <;> simp only [List.lookup_cons] <;> split
    · rfl
    · simpa [*] using has
    · rfl
    · exact ih (by simpa [*] using has)

theorem setHas (fields : Fields) (key : String) (v : Value) : ((fields.set key v).get? key).isSome := by
  induction fields with
  | nil => simp [Fields.set, Fields.get?]
  | cons first rest ih =>
    obtain ⟨k, old⟩ := first
    simp only [Fields.get?, Fields.set] at ih ⊢
    split <;> simp only [List.lookup_cons] <;> split <;> simp_all

theorem writeKeeps (change : Value.Write) (w : World) : Kept w { w with store := change.apply w.store } := by
  refine .stored fun ref key has => ?_
  cases change with
  | nothing | element | resize | emptied => exact has
  | field at' name v =>
    simp only [World.hasField, Value.Write.apply, Store.modifyObject, Store.object, Array.getD_eq_getD_getElem?,
      Array.getElem?_modify] at has ⊢
    split
    case isTrue same =>
      subst same
      cases found : w.store.objects[at']? with
      | none => simp [found, Fields.get?] at has
      | some fields => simpa [found] using setKeeps fields name key v (by simpa [found] using has)
    case isFalse => exact has

theorem setMemberKeeps (target key v : Value) : Keeps (Run.setMember target key v) := by
  refine (Keeps.made fun w => ?_).bind fun _ => .lift _
  simp only [Value.setMember]
  split
  · exact writeKeeps _ w
  · exact Kept.refl w

theorem producedKeeps (r : Except Fault Produced) : Keeps (Run.produce r) := by
  refine (Keeps.lift r).bind fun produced => ?_
  cases produced with
  | value v => exact .pure v
  | array items => exact newArrayKeeps items

theorem foundKeeps (receiver : Value) (r : Except Fault Value.Found) : Keeps (Run.found receiver r) := by
  refine (Keeps.lift r).bind fun found => ?_
  cases found with
  | value v => exact .pure v
  | member m => exact newFunctionKeeps _

theorem readNameKeeps (scopes : List Scope) (x : String) : Keeps (readName scopes x) := by
  refine Keeps.get.bind fun w => ?_
  repeat' split
  all_goals first
    | exact .pure _
    | exact .throw _

theorem writeNameKeeps (scopes : List Scope) (x : String) (v : Value) : Keeps (writeName scopes x v) := by
  refine .changed fun w => ?_
  split
  next frame own _ =>
    refine ⟨fun _ _ has => has, by simp, fun other y set => ?_, fun _ h => h⟩
    simp only [Array.getD_eq_getD_getElem?, Array.getElem?_modify] at set ⊢
    split
    next same =>
      subst same
      cases there : w.frames[frame]? with
      | none => simp [there] at set
      | some f => exact putExtends f x v y (by simpa [there] using set)
    next => exact set
  next => exact ⟨fun _ _ has => has, Nat.le_refl _, fun _ _ h => h, putExtends w.globals x v⟩

theorem bindParamsKeeps (args : List Value) (params : List Param) : Keeps (bindParams args params) := by
  induction params generalizing args with
  | nil =>
    unfold bindParams
    split
    · exact .pure _
    · exact .throw _
  | cons p params ih =>
    unfold bindParams
    split
    · exact (ih _).bind fun _ => .pure _
    · exact .throw _
    · exact (ih _).bind fun _ => .pure _
    · exact (ih _).bind fun _ => .pure _
    · exact (newArrayKeeps _).bind fun _ => (ih _).bind fun _ => .pure _

theorem callHelperKeeps (h : Helper) (args : List Value) : Keeps (callHelper h args) := by
  refine storeKeeps.bind fun s => ?_
  split
  all_goals
    repeat' first
      | with_reducible exact foundKeeps _ _
      | with_reducible exact .lift _
      | with_reducible exact .pure _
      | with_reducible exact .throw _
      | with_reducible exact setMemberKeeps _ _ _
      | with_reducible refine Keeps.bind ?_ fun _ => ?_

theorem repeatWhileKeeps {test : Run Bool} {body : Run Flow} (tested : Keeps test) (ran : Keeps body) (fuel : Nat) :
    Keeps (repeatWhile test body fuel) := by
  induction fuel with
  | zero => exact .throw _
  | succ fuel ih =>
    refine tested.bind fun b => ?_
    split
    · refine ran.bind fun flow => ?_
      split
      · exact .pure _
      · exact .pure _
      · exact ih
    · exact .pure _

structure Outside.Keeps (o : Outside) : Prop where
  call : ∀ f args, Target.Keeps (o.call f args)
  await : ∀ v, Target.Keeps (o.await v)

section Code

variable {o : Outside}

mutual

theorem evalKeeps (kept : o.Keeps) (scopes : List Scope) : (e : Expr) → Keeps (eval o scopes e)
  | .none | .bool _ | .number _ | .text _ => Keeps.pure _
  | .name x => readNameKeeps scopes x
  | .dict entries => (evalEntriesKeeps kept scopes [] entries).bind fun fields => newObjectKeeps fields
  | .list items => (evalAllKeeps kept scopes items).bind fun vs => newArrayKeeps _
  | .subscript target _ => (evalKeeps kept scopes target).bind fun _ => storeKeeps.bind fun _ => .lift _
  | .call callee args =>
    (evalKeeps kept scopes callee).bind fun f => (evalAllKeeps kept scopes args).bind fun vs => kept.call f vs
  | .helper h args => (evalAllKeeps kept scopes args).bind fun vs => callHelperKeeps h vs
  | .truthyBind x value =>
    (evalKeeps kept scopes value).bind fun v => (writeNameKeeps scopes x v).bind fun _ =>
      (Keeps.lift _).bind fun _ => .pure _
  | .await value => (evalKeeps kept scopes value).bind fun v => kept.await v
  | .negate operand => (evalKeeps kept scopes operand).bind fun _ => .lift _
  | .not operand => (evalKeeps kept scopes operand).bind fun _ => storeKeeps.bind fun _ => .pure _
  | .binary _ left right =>
    (evalKeeps kept scopes left).bind fun _ => (evalKeeps kept scopes right).bind fun _ =>
      storeKeeps.bind fun _ => producedKeeps _
  | .and left right => (evalKeeps kept scopes left).bind fun a => storeKeeps.bind fun s => by
    split
    · exact evalKeeps kept scopes right
    · exact .pure a
  | .or left right => (evalKeeps kept scopes left).bind fun a => storeKeeps.bind fun s => by
    split
    · exact .pure a
    · exact evalKeeps kept scopes right
  | .cond test yes no => (evalKeeps kept scopes test).bind fun v => storeKeeps.bind fun s => by
    split
    · exact evalKeeps kept scopes yes
    · exact evalKeeps kept scopes no
  | .bind x value => (evalKeeps kept scopes value).bind fun v => (writeNameKeeps scopes x v).bind fun _ => .pure v

theorem evalAllKeeps (kept : o.Keeps) (scopes : List Scope) : (es : List Expr) → Keeps (evalAll o scopes es)
  | [] => Keeps.pure _
  | e :: rest => (evalKeeps kept scopes e).bind fun _ => (evalAllKeeps kept scopes rest).bind fun _ => .pure _

theorem evalEntriesKeeps (kept : o.Keeps) (scopes : List Scope) (fields : Fields) :
    (es : List (String × Expr)) → Keeps (evalEntries o scopes fields es)
  | [] => Keeps.pure _
  | (key, e) :: rest => (evalKeeps kept scopes e).bind fun v => evalEntriesKeeps kept scopes (fields.set key v) rest

end

mutual

theorem execKeeps (kept : o.Keeps) (scopes : List Scope) (fuel : Nat) : (s : Stmt) → Keeps (exec o fuel scopes s)
  | .assign x value => (evalKeeps kept scopes value).bind fun v => (writeNameKeeps scopes x v).bind fun _ => .pure _
  | .expr value => (evalKeeps kept scopes value).bind fun _ => .pure _
  | .ret value => (evalKeeps kept scopes value).bind fun _ => .pure _
  | .cond test yes no => (evalKeeps kept scopes test).bind fun v => storeKeeps.bind fun s => by
    split
    · exact execAllKeeps kept scopes fuel yes
    · exact execElseKeeps kept scopes fuel no
  | .loop test body => repeatWhileKeeps
      ((evalKeeps kept scopes test).bind fun _ => storeKeeps.bind fun _ => .pure _) (execAllKeeps kept scopes fuel body) fuel
  | .brk | .cont | .pass | .globals _ | .nonlocals _ => Keeps.pure _
  | .collect x => (readNameKeeps scopes x).bind fun v => by
    split
    · exact storeKeeps.bind fun s => (newArrayKeeps _).bind fun v => (writeNameKeeps scopes x v).bind fun _ => .pure _
    · exact Keeps.bind (.throw _) fun _ => .pure _
  | .define name isAsync params body =>
    (newFunctionKeeps _).bind fun v => (writeNameKeeps scopes name v).bind fun _ => .pure _

theorem execAllKeeps (kept : o.Keeps) (scopes : List Scope) (fuel : Nat) :
    (body : List Stmt) → Keeps (execAll o fuel scopes body)
  | [] => Keeps.pure _
  | s :: rest => (execKeeps kept scopes fuel s).bind fun flow => by
    split
    · exact execAllKeeps kept scopes fuel rest
    · exact .pure _

theorem execElseKeeps (kept : o.Keeps) (scopes : List Scope) (fuel : Nat) :
    (body : Option (List Stmt)) → Keeps (execElse o fuel scopes body)
  | none => Keeps.pure _
  | some body => execAllKeeps kept scopes fuel body

end

theorem runBodyKeeps (kept : o.Keeps) (scopes : List Scope) (fuel : Nat) (body : List Stmt) :
    Keeps (runBody o fuel body scopes) := by
  simp only [runBody]
  repeat' first
    | with_reducible exact .get
    | with_reducible exact .pure _
    | with_reducible exact .throw _
    | with_reducible exact .apart (fun _ => rfl) (fun _ => rfl) fun _ => rfl
    | with_reducible exact execAllKeeps kept scopes fuel body
    | with_reducible refine Keeps.bind ?_ fun _ => ?_
    | split

theorem callFunctionKeeps (kept : o.Keeps) (fuel : Nat) (f : Callable) (args : List Value) :
    Keeps (callFunction o fuel f args) := by
  unfold callFunction
  repeat' first
    | with_reducible exact bindParamsKeeps _ _
    | with_reducible exact newFrameKeeps _
    | with_reducible exact newPromiseKeeps _
    | with_reducible exact runBodyKeeps kept _ _ _
    | with_reducible exact storeKeeps
    | with_reducible exact producedKeeps _
    | with_reducible exact .lift _
    | with_reducible exact .pure _
    | with_reducible exact .apart (fun _ => rfl) (fun _ => rfl) fun _ => rfl
    | with_reducible refine Keeps.bind ?_ fun _ => ?_
    | split

end Code

theorem takePromiseKeeps (ref : Nat) : Keeps (takePromise ref) := by
  unfold takePromise
  repeat' first
    | with_reducible exact .get
    | with_reducible exact .pure _
    | with_reducible exact .throw _
    | with_reducible exact .apart (fun _ => rfl) (fun _ => rfl) fun _ => rfl
    | with_reducible refine Keeps.bind ?_ fun _ => ?_
    | split

theorem outsideKeeps (fuel : Nat) : (outside fuel).Keeps := by
  induction fuel with
  | zero => exact ⟨fun _ _ => .throw _, fun _ => .throw _⟩
  | succ fuel ih =>
    refine ⟨fun f args => ?_, fun v => ?_⟩
    · cases f with
      | function ref =>
        refine Keeps.get.bind fun w => ?_
        split
        · exact callFunctionKeeps ih fuel _ args
        · exact .throw _
      | _ => exact .throw _
    · cases v with
      | promise ref =>
        refine (takePromiseKeeps ref).bind fun taken => ?_
        exact (runBodyKeeps ih _ _ _).bind fun v => ih.await v
      | _ => exact .pure _

/-- One world comes after another: some code has been evaluated or run, or a function has been called. -/
inductive Follows : World → World → Prop
  | eval (fuel : Nat) (scopes : List Scope) (e : Expr) (w : World) : Follows w (worldAfter (eval (outside fuel) scopes e) w)
  | exec (fuel : Nat) (scopes : List Scope) (s : Stmt) (w : World) :
    Follows w (worldAfter (exec (outside fuel) fuel scopes s) w)
  | call (fuel : Nat) (f : Value) (args : List Value) (w : World) : Follows w (worldAfter (call fuel f args) w)
  | await (fuel : Nat) (v : Value) (w : World) : Follows w (worldAfter ((outside fuel).await v) w)

theorem followsKept {w u : World} (h : Relation.ReflTransGen Follows w u) : FieldsKept w u := by
  suffices kept : Kept w u from kept.fields
  induction h with
  | refl => exact .refl w
  | tail _ step ih =>
    refine ih.trans ?_
    cases step with
    | eval fuel scopes e => exact evalKeeps (outsideKeeps fuel) scopes e _
    | exec fuel scopes s => exact execKeeps (outsideKeeps fuel) scopes fuel s _
    | call fuel f args => exact (outsideKeeps fuel).call f args _
    | await fuel v => exact (outsideKeeps fuel).await v _

theorem entriesHave {o : Outside} {scopes : List Scope} {entries : List (String × Expr)} {fields made : Fields} {w u : World}
    (run : evalEntries o scopes fields entries w = .ok made u) :
    (∀ key, (fields.get? key).isSome → (made.get? key).isSome) ∧ ∀ entry ∈ entries, (made.get? entry.1).isSome := by
  induction entries generalizing fields w with
  | nil =>
    cases run
    exact ⟨fun _ has => has, by simp⟩
  | cons first rest ih =>
    obtain ⟨name, e⟩ := first
    unfold evalEntries at run
    simp only [bind, EStateM.bind] at run
    cases first : eval o scopes e w with
    | error f v => simp [first] at run
    | ok value v =>
      simp only [first] at run
      obtain ⟨kept, all⟩ := ih run
      refine ⟨fun key has => kept key (setKeeps fields name key value has), fun entry member => ?_⟩
      rcases List.mem_cons.mp member with rfl | member
      · exact kept name (setHas fields name value)
      · exact all entry member

theorem literalHas {o : Outside} {scopes : List Scope} {entries : List (String × Expr)} {v : Value} {w u : World}
    (run : eval o scopes (.dict entries) w = .ok v u) :
    ∃ ref, v = .object ref ∧ ∀ entry ∈ entries, u.hasField ref entry.1 := by
  unfold eval at run
  simp only [bind, EStateM.bind] at run
  cases first : evalEntries o scopes [] entries w with
  | error f t => simp [first] at run
  | ok made t =>
    simp only [first] at run
    cases run
    refine ⟨_, rfl, fun entry member => ?_⟩
    have has := (entriesHave first).2 entry member
    simpa [World.hasField, Store.object, Store.newObject] using has

end Fragment.Target
