import Fragment.Proofs.Renumber
import Fragment.Proofs.Running
import Mathlib

/-! Two layouts of the variables of a module.
The statements of a module either run at the outermost level, where their variables are global, or in
a function of their own, where they are variables of its one call. Two worlds mirror each other when
the second has this function and this call beside everything that the first has, and each variable of
the statements stands where its layout puts it. -/
namespace Fragment.Target

/-- The function around the statements of a module. -/
structure Layout where
  /-- How many functions there are before it. -/
  first : Nat
  /-- Its variables, and the names that it takes from the outermost level. -/
  names : List String
  globals : List String

/-- The place of an element once one more stands at the `i`-th place. -/
def shift (i place : Nat) : Nat := if place < i then place else place + 1

theorem shiftInjective (i : Nat) : Function.Injective (shift i) := by
  intro a b same
  simp only [shift] at same
  split at same <;> split at same <;> omega

/-- One array has the images of the elements of another, and one more at the `i`-th place. -/
structure Shifted {α : Type} (i : Nat) (image : α → α) (a b : Array α) : Prop where
  start : i ≤ a.size
  size : b.size = a.size + 1
  placed : ∀ place : Nat, b[shift i place]? = (a[place]?).map image

section Shifted

variable {α : Type} {i : Nat} {image : α → α} {a b : Array α}

theorem Shifted.last (h : Shifted i image a b) : b.size = shift i a.size := by
  have := h.start
  simp only [shift, h.size]
  split <;> omega

theorem Shifted.push (h : Shifted i image a b) (x : α) : Shifted i image (a.push x) (b.push (image x)) where
  start := by simpa using Nat.le_succ_of_le h.start
  size := by simp [h.size]
  placed place := by
    rw [Array.getElem?_push, Array.getElem?_push, h.last, h.placed place]
    by_cases same : place = a.size
    · simp [same]
    · have : shift i place ≠ shift i a.size := fun e => same (shiftInjective i e)
      simp [same, this]

theorem Shifted.modify (h : Shifted i image a b) {f g : α → α} (same : ∀ x, g (image x) = image (f x))
    (place : Nat) : Shifted i image (a.modify place f) (b.modify (shift i place) g) where
  start := by simpa using h.start
  size := by simp [h.size]
  placed other := by
    rw [Array.getElem?_modify, Array.getElem?_modify, h.placed other]
    by_cases e : place = other
    · subst e
      cases a[place]? <;> simp [same]
    · have : shift i place ≠ shift i other := fun s => e (shiftInjective i s)
      simp [e, this]

/-- What becomes of the additional element does not matter. -/
theorem Shifted.kept (h : Shifted i image a b) (g : α → α) : Shifted i image a (b.modify i g) where
  start := h.start
  size := by simp [h.size]
  placed place := by
    have other : i ≠ shift i place := by
      simp only [shift]
      split <;> omega
    rw [Array.getElem?_modify, if_neg other, h.placed]

end Shifted

namespace Layout

variable (L : Layout)

def number (ref : Nat) : Nat := shift L.first ref

theorem numberInjective : Function.Injective L.number := shiftInjective L.first

/-- A value as the module with a function of its own has it. -/
def value (v : Value) : Value := v.renumber L.number

def frame (f : Frame) : Frame := Fields.renumber L.number f

def scopes (ss : List Scope) : List Scope :=
  ss.map (fun s => { s with frame := s.frame + 1 }) ++ [⟨0, L.names, L.globals⟩]

def callable : Callable → Callable
  | .closure isAsync params names body around => .closure isAsync params names body (L.scopes around)
  | .member m receiver => .member m (L.value receiver)
  | f => f

def promise : Promise → Promise
  | .ready body scopes => .ready body (L.scopes scopes)
  | .spent => .spent

def flow : Flow → Flow
  | .ret v => .ret (L.value v)
  | f => f

end Layout

/-! What code has to keep: it does not use the name of the function around the module, and no
function in it takes one of the variables of the module from the outermost level. -/

mutual

/-- Whether each name that an expression uses satisfies a condition. -/
def Expr.Uses (P : String → Prop) : Expr → Prop
  | .name x => P x
  | .dict entries => usesEntries P entries
  | .list items => usesAll P items
  | .subscript target _ => target.Uses P
  | .call callee args => callee.Uses P ∧ usesAll P args
  | .helper _ args => usesAll P args
  | .truthyBind x value | .bind x value => P x ∧ value.Uses P
  | .await value | .negate value | .not value => value.Uses P
  | .binary _ left right | .and left right | .or left right => left.Uses P ∧ right.Uses P
  | .cond test yes no => test.Uses P ∧ yes.Uses P ∧ no.Uses P
  | .none | .bool _ | .number _ | .text _ => True

def usesAll (P : String → Prop) : List Expr → Prop
  | [] => True
  | e :: rest => e.Uses P ∧ usesAll P rest

def usesEntries (P : String → Prop) : List (String × Expr) → Prop
  | [] => True
  | (_, e) :: rest => e.Uses P ∧ usesEntries P rest

end

mutual

/-- Whether each name that a statement uses satisfies `P`, and each name taken from the outermost
level satisfies `G`. -/
def Stmt.Uses (P G : String → Prop) : Stmt → Prop
  | .assign x value => P x ∧ value.Uses P
  | .expr value | .ret value => value.Uses P
  | .cond test yes no => test.Uses P ∧ usesIn P G yes ∧ usesInOption P G no
  | .loop test body => test.Uses P ∧ usesIn P G body
  | .globals names => ∀ x ∈ names, G x
  | .collect x => P x
  | .define name _ _ body => P name ∧ usesIn P G body
  | .brk | .cont | .pass | .nonlocals _ => True

def usesIn (P G : String → Prop) : List Stmt → Prop
  | [] => True
  | s :: rest => s.Uses P G ∧ usesIn P G rest

def usesInOption (P G : String → Prop) : Option (List Stmt) → Prop
  | none => True
  | some body => usesIn P G body

end

theorem usesGlobals {P G : String → Prop} {body : List Stmt} (h : usesIn P G body) :
    ∀ x ∈ globalNames body, G x := by
  induction body with
  | nil => simp [globalNames]
  | cons s rest ih =>
    obtain ⟨here, later⟩ := h
    intro x hx
    simp only [globalNames, List.flatMap_cons, List.mem_append] at hx
    rcases hx with mem | mem
    · cases s with
      | globals names => exact here x mem
      | _ => cases mem
    · exact ih later x mem

namespace Layout

variable (L : Layout)

def Plain (x : String) : Prop := x ≠ moduleName

def Code (body : List Stmt) : Prop := usesIn Plain (· ∉ L.names) body

/-- No call among some takes a variable of the module from the outermost level. -/
def Guarded (ss : List Scope) : Prop := ∀ s ∈ ss, ∀ x ∈ s.globals, x ∉ L.names

def Sound : Callable → Prop
  | .closure _ _ _ body around => L.Code body ∧ L.Guarded around
  | _ => True

def Waiting : Promise → Prop
  | .ready body scopes => L.Code body ∧ L.Guarded scopes ∧ scopes ≠ []
  | .spent => True

end Layout

/-- The second world is the first with the function around the module and its call. `gap` is by how
much its calls are nested deeper, and the names `settled` have values. -/
structure Mirrors (L : Layout) (gap : Nat) (settled : List String) (w w' : World) : Prop where
  store : w'.store = w.store.renumber L.number
  functions : Shifted L.first L.callable w.functions w'.functions
  promises : w'.promises = w.promises.map L.promise
  frames : Shifted 0 L.frame w.frames w'.frames
  names : ∀ x, x ≠ moduleName → (if x ∈ L.names then (w'.frames.getD 0 []).lookup x else w'.globals.lookup x) =
    (w.globals.lookup x).map L.value
  printed : w'.printed = w.printed
  depth : w'.callDepth = w.callDepth + gap
  values : ∀ x ∈ settled, (w.globals.lookup x).isSome
  sound : ∀ f ∈ w.functions, L.Sound f
  waiting : ∀ p ∈ w.promises, L.Waiting p

/-- The faults of code that is nested too deep or runs too long. -/
def isLimit : Fault → Bool
  | .recursion | .exhausted => true
  | _ => false

/-- Two runs end alike, or the second, whose calls are nested deeper, came to a limit. -/
inductive Twin {α β : Type} (L : Layout) (gap : Nat) (settled : List String) (post : α → β → Prop) :
    EStateM.Result Fault World α → EStateM.Result Fault World β → Prop
  | ok {a b w w'} : post a b → Mirrors L gap settled w w' → Twin L gap settled post (.ok a w) (.ok b w')
  | error {f w w'} : Mirrors L gap [] w w' → Twin L gap settled post (.error f w) (.error f w')
  | limit {r f w'} : gap ≠ 0 → isLimit f = true → Twin L gap settled post r (.error f w')

/-- Two steps agree if mirrored worlds stay mirrored. `before` are names that have values before the
steps, `after` those that have values after them. -/
def Agree {α β : Type} (L : Layout) (gap : Nat) (before after : List String) (post : α → β → Prop)
    (m : Run α) (m' : Run β) : Prop :=
  ∀ w w', Mirrors L gap before w w' → Twin L gap after post (m w) (m' w')

section Agree

variable {L : Layout} {gap : Nat} {α β γ δ : Type} {B C D : List String}

theorem Mirrors.weaken {w w' : World} (h : Mirrors L gap B w w') (fewer : ∀ x ∈ C, x ∈ B) :
    Mirrors L gap C w w' := { h with values := fun x hx => h.values x (fewer x hx) }

theorem Agree.pure {post : α → β → Prop} {a : α} {b : β} (h : post a b) :
    Agree L gap B B post (pure a) (pure b) := fun _ _ m => .ok h m

theorem Agree.throw {post : α → β → Prop} (f : Fault) :
    Agree L gap B C post (throw f) (throw f) := fun _ _ m => .error (m.weaken (by simp))

theorem Agree.modify {f f' : World → World}
    (h : ∀ w w', Mirrors L gap B w w' → Mirrors L gap C (f w) (f' w')) :
    Agree L gap B C (fun _ _ => True) (modify f) (modify f') := fun w w' m => .ok trivial (h w w' m)

theorem Agree.bind {post : α → β → Prop} {next : γ → δ → Prop} {m : Run α} {m' : Run β}
    {k : α → Run γ} {k' : β → Run δ} (first : Agree L gap B C post m m')
    (rest : ∀ a b, post a b → Agree L gap C D next (k a) (k' b)) :
    Agree L gap B D next (m >>= k) (m' >>= k') := by
  intro w w' h
  have ended := first w w' h
  simp only [Bind.bind, EStateM.bind]
  generalize m w = r at ended ⊢
  generalize m' w' = r' at ended ⊢
  cases ended with
  | ok related mirrored => exact rest _ _ related _ _ mirrored
  | error mirrored => exact .error mirrored
  | limit deeper limited => exact .limit deeper limited

theorem Agree.weaken {post : α → β → Prop} {m : Run α} {m' : Run β} {B' C' : List String}
    (h : Agree L gap B C post m m') (more : ∀ x ∈ B, x ∈ B') (fewer : ∀ x ∈ C', x ∈ C) :
    Agree L gap B' C' post m m' := by
  intro w w' mirrored
  have ended := h w w' (mirrored.weaken more)
  generalize m w = r at ended ⊢
  generalize m' w' = r' at ended ⊢
  cases ended with
  | ok related mirrored => exact .ok related (mirrored.weaken fewer)
  | error mirrored => exact .error mirrored
  | limit deeper limited => exact .limit deeper limited

end Agree

/-! Names -/

section Names

variable {L : Layout} {gap : Nat} {B : List String}

theorem Layout.frameFound {ss : List Scope} {x : String} {f : Nat} (h : frameOf? ss x = some f) :
    frameOf? (L.scopes ss) x = some (f + 1) := by
  induction ss with
  | nil =>
    unfold frameOf? at h
    simp at h
  | cons s rest ih =>
    simp only [Layout.scopes, List.map_cons, List.cons_append, frameOf?] at h ih ⊢
    split at h
    · simp_all
    · split at h
      · simp at h
      · simp_all

theorem Layout.frameMissing {ss : List Scope} {x : String} (guarded : L.Guarded ss)
    (h : frameOf? ss x = none) : frameOf? (L.scopes ss) x = if x ∈ L.names then some 0 else none := by
  induction ss with
  | nil => simp [Layout.scopes, frameOf?]
  | cons s rest ih =>
    have here := guarded s (by simp) x
    have later := ih fun t ht => guarded t (by simp [ht])
    simp only [Layout.scopes, List.map_cons, List.cons_append, frameOf?] at h later ⊢
    split at h
    · simp at h
    · split at h
      · simp_all
      · simp_all

theorem Layout.holderFound {ss : List Scope} {x : String} {f : Nat} {own : Bool}
    (h : holder? ss x = some (f, own)) : holder? (L.scopes ss) x = some (f + 1, own) := by
  simp only [holder?, Option.map_eq_some_iff, Prod.mk.injEq] at h ⊢
  obtain ⟨g, found, rfl, rfl⟩ := h
  refine ⟨g + 1, Layout.frameFound found, rfl, ?_⟩
  cases ss with
  | nil =>
    unfold frameOf? at found
    simp at found
  | cons s rest => rfl

theorem Layout.holderMissing {ss : List Scope} {x : String} (guarded : L.Guarded ss)
    (h : holder? ss x = none) :
    holder? (L.scopes ss) x = if x ∈ L.names then some (0, ss.isEmpty) else none := by
  simp only [holder?, Option.map_eq_none_iff] at h
  simp only [holder?, Layout.frameMissing guarded h]
  split
  case isFalse => rfl
  case isTrue member =>
    cases ss with
    | nil => simp [Layout.scopes, member]
    | cons s rest =>
      simp only [frameOf?] at h
      split at h <;> simp_all [Layout.scopes]

theorem Mirrors.frameAt {w w' : World} (h : Mirrors L gap B w w') (f : Nat) :
    w'.frames.getD (f + 1) [] = L.frame (w.frames.getD f []) := by
  have := h.frames.placed f
  simp only [shift, Nat.not_lt_zero, if_false] at this
  simp only [Array.getD_eq_getD_getElem?, this]
  cases w.frames[f]? <;> rfl

theorem Layout.lookupFrame (f : Frame) (x : String) : (L.frame f).lookup x = (f.lookup x).map L.value :=
  Fields.getRenumber L.number f x

theorem Layout.putFrame (f : Frame) (x : String) (v : Value) :
    (L.frame f).put x (L.value v) = L.frame (f.put x v) := by
  induction f with
  | nil => rfl
  | cons g rest ih =>
    simp only [Layout.frame, Fields.renumber, List.map_cons, Frame.put] at ih ⊢
    split
    · rfl
    · rw [List.map_cons, ih]

/-- A variable of the module is read at the outermost level only once it has a value: without one the
two layouts would fail differently. -/
theorem readAgrees {ss : List Scope} (guarded : L.Guarded ss) {x : String} (plain : x ≠ moduleName)
    (ready : ss = [] → x ∈ L.names → x ∈ B) :
    Agree L gap B B (fun v v' => v' = L.value v) (readName ss x) (readName (L.scopes ss) x) := by
  intro w w' h
  rw [readRun, readRun]
  cases found : holder? ss x with
  | some place =>
    obtain ⟨f, own⟩ := place
    simp only [Layout.holderFound found, h.frameAt, Layout.lookupFrame]
    cases (w.frames.getD f []).lookup x with
    | none => exact .error (h.weaken (by simp))
    | some v => exact .ok rfl h
  | none =>
    simp only [Layout.holderMissing guarded found]
    have mirrored := h.names x plain
    by_cases member : x ∈ L.names
    · simp only [member, if_true] at mirrored ⊢
      rw [mirrored]
      cases stored : w.globals.lookup x with
      | some v => exact .ok rfl h
      | none =>
        cases ss with
        | nil =>
          have := h.values x (ready rfl member)
          simp [stored] at this
        | cons s rest => exact .error (h.weaken (by simp))
    · simp only [member, if_false] at mirrored ⊢
      rw [mirrored]
      cases w.globals.lookup x with
      | some v => exact .ok rfl h
      | none => exact .error (h.weaken (by simp))

/-- A write at the outermost level gives its name a value. -/
def written (ss : List Scope) (x : String) (B : List String) : List String := if ss = [] then x :: B else B

theorem Mirrors.putGlobal {w w' : World} (h : Mirrors L gap B w w') {x : String} (outer : x ∉ L.names) (v : Value) :
    Mirrors L gap (x :: B) { w with globals := w.globals.put x v } { w' with globals := w'.globals.put x (L.value v) } :=
  { h with
    names := by
      intro y plain
      have mirrored := h.names y plain
      simp only [lookupPut]
      by_cases same : y = x
      · subst same; simp [outer]
      · simpa [same] using mirrored
    values := by
      intro y hy
      simp only [lookupPut]
      split
      · rfl
      · exact h.values y (by simp_all) }

theorem Mirrors.putModule {w w' : World} (h : Mirrors L gap B w w') {x : String} (member : x ∈ L.names) (v : Value) :
    Mirrors L gap (x :: B) { w with globals := w.globals.put x v }
      { w' with frames := w'.frames.modify 0 (Frame.put · x (L.value v)) } :=
  { h with
    frames := h.frames.kept (Frame.put · x (L.value v))
    names := by
      intro y plain
      have mirrored := h.names y plain
      have room : 0 < w'.frames.size := by simp [h.frames.size]
      simp only [Array.getD_eq_getD_getElem?, Array.getElem?_modify, if_true,
        Array.getElem?_eq_getElem room, Option.map_some, Option.getD_some, lookupPut] at mirrored ⊢
      by_cases same : y = x
      · subst same; simp [member]
      · simpa [same] using mirrored
    values := by
      intro y hy
      simp only [lookupPut]
      split
      · rfl
      · exact h.values y (by simp_all) }

theorem Mirrors.putFrame {w w' : World} (h : Mirrors L gap B w w') (f : Nat) (x : String) (v : Value) :
    Mirrors L gap B { w with frames := w.frames.modify f (Frame.put · x v) }
      { w' with frames := w'.frames.modify (f + 1) (Frame.put · x (L.value v)) } :=
  { h with
    frames := h.frames.modify (g := (Frame.put · x (L.value v))) (fun g => Layout.putFrame g x v) f
    names := by
      intro y plain
      simpa [Array.getD_eq_getD_getElem?, Array.getElem?_modify] using h.names y plain }

theorem writeAgrees {ss : List Scope} (guarded : L.Guarded ss) {x : String} (v : Value) :
    Agree L gap B (written ss x B) (fun _ _ => True) (writeName ss x v) (writeName (L.scopes ss) x (L.value v)) := by
  intro w w' h
  rw [writeRun, writeRun]
  refine .ok trivial ?_
  cases found : holder? ss x with
  | some place =>
    obtain ⟨f, own⟩ := place
    rw [Layout.holderFound found]
    have inside : ss ≠ [] := by rintro rfl; simp [holder?, frameOf?] at found
    simpa [written, inside] using h.putFrame f x v
  | none =>
    rw [Layout.holderMissing guarded found]
    have fewer : ∀ y ∈ written ss x B, y ∈ x :: B := by
      unfold written
      split <;> simp_all
    by_cases member : x ∈ L.names
    · simpa [member] using (h.putModule member v).weaken fewer
    · simpa [member] using (h.putGlobal member v).weaken fewer

end Names

/-! Steps of the machine -/

section Steps

variable {L : Layout} {gap : Nat} {B : List String}

theorem liftAgrees {α β : Type} {r : Except Fault α} {r' : Except Fault β} {image : α → β} (h : r' = image <$> r) :
    Agree L gap B B (fun a b => b = image a) (Run.lift r) (Run.lift r') := by
  subst h
  cases r with
  | ok a => exact Agree.pure rfl
  | error f => exact Agree.throw f

theorem storeAgrees : Agree L gap B B (fun s s' => s' = s.renumber L.number) Run.store Run.store :=
  fun _ _ h => .ok h.store h

theorem newArrayAgrees (items : Array Value) :
    Agree L gap B B (fun v v' => v' = L.value v) (Run.newArray items) (Run.newArray (items.map L.value)) := by
  intro w w' h
  refine .ok ?_ { h with store := ?_ }
  · simp [h.store, Layout.value]
  · simp only [h.store, Store.renumber, Array.map_push]
    rfl

theorem newObjectAgrees (fields : Fields) :
    Agree L gap B B (fun v v' => v' = L.value v) (Run.newObject fields)
      (Run.newObject (fields.renumber L.number)) := by
  intro w w' h
  refine .ok ?_ { h with store := ?_ }
  · simp [h.store, Layout.value]
  · simp only [h.store, Store.renumber, Array.map_push]

theorem newFunctionAgrees {f : Callable} (sound : L.Sound f) :
    Agree L gap B B (fun v v' => v' = L.value v) (Run.newFunction f) (Run.newFunction (L.callable f)) := by
  intro w w' h
  refine .ok ?_ { h with functions := h.functions.push f, sound := ?_ }
  · simp [h.functions.last, Layout.value, Layout.number]
  · intro g hg
    rcases Array.mem_push.mp hg with old | rfl
    · exact h.sound g old
    · exact sound

theorem newPromiseAgrees {p : Promise} (waiting : L.Waiting p) :
    Agree L gap B B (fun v v' => v' = L.value v) (Run.newPromise p) (Run.newPromise (L.promise p)) := by
  intro w w' h
  refine .ok ?_ { h with promises := ?_, waiting := ?_ }
  · simp [h.promises, Layout.value]
  · simp [h.promises]
  · intro q hq
    rcases Array.mem_push.mp hq with old | rfl
    · exact h.waiting q old
    · exact waiting

theorem newFrameAgrees (f : Frame) :
    Agree L gap B B (fun n n' => n' = n + 1) (Run.newFrame f) (Run.newFrame (L.frame f)) := by
  intro w w' h
  refine .ok h.frames.size { h with frames := h.frames.push f, names := ?_ }
  intro x plain
  have room : 0 < w'.frames.size := by simp [h.frames.size]
  have kept : (w'.frames.push (L.frame f)).getD 0 [] = w'.frames.getD 0 [] := by
    simp only [Array.getD_eq_getD_getElem?, Array.getElem?_push, if_neg (Nat.ne_of_lt room)]
  simpa [kept] using h.names x plain

theorem produceAgrees {r r' : Except Fault Produced} (same : r' = Produced.renumber L.number <$> r) :
    Agree L gap B B (fun v v' => v' = L.value v) (Run.produce r) (Run.produce r') := by
  refine (liftAgrees same).bind ?_
  rintro (v | items) _ rfl
  · exact Agree.pure rfl
  · exact newArrayAgrees items

theorem foundAgrees {receiver : Value} {r r' : Except Fault Value.Found}
    (same : r' = Value.Found.renumber L.number <$> r) :
    Agree L gap B B (fun v v' => v' = L.value v) (Run.found receiver r) (Run.found (L.value receiver) r') := by
  refine (liftAgrees same).bind ?_
  rintro (v | m) _ rfl
  · exact Agree.pure rfl
  · exact newFunctionAgrees (f := .member m receiver) trivial

theorem setMemberAgrees (target key v : Value) :
    Agree L gap B B (fun _ _ => True) (Run.setMember target key v)
      (Run.setMember (L.value target) (L.value key) (L.value v)) := by
  refine Agree.bind (C := B) (?_ : Agree L gap B B (fun ending ending' => ending' = ending) _ _) ?_
  · intro w w' h
    have same := Value.setMemberRenumber L.number w.store target key v
    rw [← h.store] at same
    refine .ok ?_ { h with store := ?_ }
    · exact (Prod.ext_iff.mp same).1
    · exact (Prod.ext_iff.mp same).2
  · rintro _ ending rfl
    cases ending with
    | ok => exact Agree.pure trivial
    | error f => exact Agree.throw f

theorem bindParamsAgrees (params : List Param) (args : List Value) :
    Agree L gap B B (fun f f' => f' = L.frame f) (bindParams args params) (bindParams (args.map L.value) params) := by
  induction params generalizing args with
  | nil =>
    cases args with
    | nil => exact Agree.pure rfl
    | cons v rest => exact Agree.throw _
  | cons p params ih =>
    obtain ⟨name, mode⟩ := p
    have next (v : Value) (rest : List Value) : Agree L gap B B (fun f f' => f' = L.frame f)
        (do return (name, v) :: (← bindParams rest params))
        (do return (name, L.value v) :: (← bindParams (rest.map L.value) params)) := by
      refine (ih rest).bind ?_
      rintro f _ rfl
      exact Agree.pure rfl
    cases mode with
    | required =>
      cases args with
      | nil => exact Agree.throw _
      | cons v rest => exact next v rest
    | optional =>
      cases args with
      | nil => exact next .undefined []
      | cons v rest => exact next v rest
    | rest =>
      have collected : Agree L gap B B (fun v v' => v' = L.value v) (Run.newArray args.toArray)
          (Run.newArray (args.map L.value).toArray) := by simpa using newArrayAgrees args.toArray
      refine collected.bind ?_
      rintro v _ rfl
      exact next v []

theorem takePromiseRun (ref : Nat) (w : World) :
    takePromise ref w = match w.promises[ref]? with
      | some (.ready body scopes) =>
        .ok (body, scopes) { w with promises := w.promises.setIfInBounds ref .spent }
      | _ => .error .awaitedTwice w := by
  simp only [takePromise, bind, EStateM.bind, get, getThe, MonadStateOf.get, EStateM.get]
  cases w.promises[ref]? with
  | none => rfl
  | some p => cases p <;> rfl

theorem takePromiseAgrees (ref : Nat) :
    Agree L gap B B (fun p p' => p' = (p.1, L.scopes p.2) ∧ L.Waiting (.ready p.1 p.2))
      (takePromise ref) (takePromise ref) := by
  intro w w' h
  rw [takePromiseRun, takePromiseRun]
  have same : w'.promises[ref]? = (w.promises[ref]?).map L.promise := by simp [h.promises]
  rw [same]
  cases found : w.promises[ref]? with
  | none => exact .error (h.weaken (by simp))
  | some p =>
    have waiting := h.waiting p (Array.mem_of_getElem? found)
    cases p with
    | spent => exact .error (h.weaken (by simp))
    | ready body scopes =>
      refine .ok ⟨rfl, waiting⟩ { h with promises := ?_, waiting := ?_ }
      · simp [h.promises, Array.map_setIfInBounds, Layout.promise]
      · intro q hq
        rcases Array.mem_or_eq_of_mem_setIfInBounds hq with old | rfl
        · exact h.waiting q old
        · trivial

/-- An operation without a reference to a function in its result. -/
theorem scalarAgrees {α : Type} {r r' : Except Fault α} (same : r' = r) {f : α → Value}
    (scalar : ∀ a, L.value (f a) = f a) :
    Agree L gap B B (fun v v' => v' = L.value v) (do return f (← Run.lift r)) (do return f (← Run.lift r')) := by
  have kept : r' = id <$> r := by simp [same]
  refine (liftAgrees kept).bind ?_
  rintro _ a rfl
  exact Agree.pure (scalar a).symm

theorem callHelperAgrees (helper : Helper) (args : List Value) :
    Agree L gap B B (fun v v' => v' = L.value v) (callHelper helper args) (callHelper helper (args.map L.value)) := by
  refine storeAgrees.bind ?_
  rintro s _ rfl
  rcases args with _ | ⟨a, _ | ⟨b, _ | ⟨c, _ | ⟨d, rest⟩⟩⟩⟩ <;> cases helper
  case cons.nil.toNumber => exact scalarAgrees (Value.toNumberRenumber ..) fun _ => rfl
  case cons.nil.truthy => exact scalarAgrees (Value.truthyRenumber ..) fun _ => rfl
  case cons.nil.typeOf => exact Agree.pure (by simp [Layout.value])
  case cons.nil.length => exact scalarAgrees (Value.lengthRenumber ..) fun _ => rfl
  case cons.cons.nil.concat => exact scalarAgrees (Value.concatRenumber ..) fun _ => rfl
  case cons.cons.nil.add => exact liftAgrees (Value.addRenumber ..)
  case cons.cons.nil.divide => exact scalarAgrees (Value.divideRenumber ..) fun _ => rfl
  case cons.cons.nil.remainder => exact scalarAgrees (Value.remainderRenumber ..) fun _ => rfl
  case cons.cons.nil.power => exact scalarAgrees (Value.powerRenumber ..) fun _ => rfl
  case cons.cons.nil.strictEquals =>
    exact Agree.pure (by simp [Layout.value, Value.strictEqualsRenumber L.numberInjective])
  case cons.cons.nil.looseEquals =>
    exact scalarAgrees (Value.looseEqualsRenumber L.numberInjective ..) fun _ => rfl
  case cons.cons.nil.getMember =>
    cases b with
    | text key => exact foundAgrees (Value.getMemberRenumber ..)
    | _ => exact Agree.throw _
  case cons.cons.nil.index => exact foundAgrees (Value.indexRenumber ..)
  case cons.cons.cons.nil.setMember =>
    exact (setMemberAgrees a b c).bind fun _ _ _ => Agree.pure rfl
  case cons.cons.cons.nil.getMember | cons.cons.cons.cons.getMember => cases b <;> exact Agree.throw _
  all_goals exact Agree.throw _

end Steps

end Fragment.Target
