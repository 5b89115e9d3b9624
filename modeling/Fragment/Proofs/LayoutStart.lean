import Fragment.Emit.Names
import Fragment.Proofs.Layout

/-! The world that code starts in.
Libraries are bound before any code runs. What they bring into the world are functions that are not
made of code, and references to these; none of their names begins like those that code keeps for
itself. -/
namespace Fragment.Target

open Emit (startsWithUnderscores)

/-- Every reference to a function is below a bound. -/
def below (n : Nat) : Value → Bool
  | .function ref => ref < n
  | _ => true

/-- A function that is not made of code. -/
def Callable.isForeign : Callable → Bool
  | .library _ | .inert => true
  | _ => false

/-- A world in which no code has run. -/
structure Fresh (w : World) : Prop where
  frames : w.frames = #[]
  promises : w.promises = #[]
  arrays : w.store.arrays = #[]
  objects : ∀ fields ∈ w.store.objects, ∀ f ∈ fields, below w.functions.size f.2
  globals : ∀ f ∈ w.globals, below w.functions.size f.2 ∧ startsWithUnderscores f.1 = false
  functions : ∀ f ∈ w.functions, f.isForeign
  depth : w.callDepth = 0

theorem belowRenumber {n : Nat} {v : Value} (h : below n v) : v.renumber (shift n) = v := by
  cases v with
  | function ref => simp_all [below, shift]
  | _ => rfl

theorem Fresh.storeRenumber {w : World} (h : Fresh w) : w.store.renumber (shift w.functions.size) = w.store := by
  have objects : w.store.objects.map (Fields.renumber (shift w.functions.size)) = w.store.objects := by
    rw [Array.map_congr_left (g := id) fun fields hf => ?_, Array.map_id]
    refine (List.map_congr_left (g := id) fun f hf' => ?_).trans (List.map_id _)
    simp [belowRenumber (h.objects fields hf f hf')]
  have arrays : w.store.arrays.map (·.map (Value.renumber (shift w.functions.size))) = w.store.arrays := by
    simp [h.arrays]
  rw [Store.renumber, objects, arrays]

theorem Fresh.lookup {w : World} (h : Fresh w) {x : String} {v : Value} (found : w.globals.lookup x = some v) :
    below w.functions.size v ∧ startsWithUnderscores x = false := by
  obtain ⟨_, _, split, _⟩ := List.lookup_eq_some_iff.mp found
  exact h.globals (x, v) (by simp [split])

theorem plainBindings {names : List String} {bs : List (String × Value.Binding)}
    (h : Value.libraryBindings names = .ok bs) : ∀ b ∈ bs, startsWithUnderscores b.1 = false := by
  have plain : ∀ n ∈ ["NaN", "Infinity", "parseFloat", "parseInt", "isNaN", "isFinite", "Math", "performance",
      "devicePixelRatio", "innerWidth", "innerHeight", "console", "process"], startsWithUnderscores n = false := by
    decide
  have either {c : Prop} [Decidable c] {x : String} {k l : List String} (h : x ∈ if c then k else l) :
      x ∈ k ∨ x ∈ l := by
    split at h <;> simp [h]
  simp only [Value.libraryBindings] at h
  split at h
  · cases h
  · cases h
    intro b hb
    have name := List.mem_map_of_mem (f := Prod.fst) hb
    simp only [List.map_append, List.mem_append, apply_ite (List.map Prod.fst), List.map_cons, List.map_nil] at name
    apply plain
    clear hb plain
    rcases name with ((h | h) | h) | h <;> rcases either h with h | h <;>
      simp only [List.mem_cons, List.not_mem_nil, or_false] at h ⊢ <;> grind

/-- A step that only brings functions and objects of libraries into a fresh world; its result is good
with as many functions as there are then. -/
def Brings {α : Type} (n : Nat) (good : Nat → α → Prop) (m : Run α) : Prop :=
  ∀ w, Fresh w → n ≤ w.functions.size → match m w with
    | .ok a u => Fresh u ∧ n ≤ u.functions.size ∧ good u.functions.size a
    | .error _ u => Fresh u

section Brings

variable {α β : Type} {n : Nat}

theorem Brings.pure {good : Nat → α → Prop} {a : α} (h : ∀ m, n ≤ m → good m a) : Brings n good (pure a) :=
  fun _ fresh room => ⟨fresh, room, h _ room⟩

theorem Brings.bind {good : Nat → α → Prop} {next : Nat → β → Prop} {m : Run α} {k : α → Run β}
    (first : Brings n good m) (rest : ∀ a p, n ≤ p → good p a → Brings p next (k a)) : Brings n next (m >>= k) := by
  intro w fresh room
  have ended := first w fresh room
  simp only [Bind.bind, EStateM.bind]
  cases h : m w with
  | error f u => simpa [h] using ended
  | ok a u =>
    simp only [h] at ended ⊢
    obtain ⟨fresh, room, isGood⟩ := ended
    have last := rest a _ room isGood u fresh (Nat.le_refl _)
    cases h' : k a u with
    | error f v => simpa [h'] using last
    | ok b v =>
      simp only [h'] at last ⊢
      exact ⟨last.1, Nat.le_trans room last.2.1, last.2.2⟩

theorem belowMono {p q : Nat} {v : Value} (h : below p v) (more : p ≤ q) : below q v := by
  cases v with
  | function ref =>
    unfold below at h ⊢
    simp only [decide_eq_true_eq] at h ⊢; omega
  | _ => rfl

theorem Fresh.grown {w : World} (h : Fresh w) {f : Callable} (foreign : f.isForeign) :
    Fresh { w with functions := w.functions.push f } where
  frames := h.frames
  promises := h.promises
  arrays := h.arrays
  objects := fun fields hf g hg => belowMono (h.objects fields hf g hg) (by simp)
  globals := fun g hg => ⟨belowMono (h.globals g hg).1 (by simp), (h.globals g hg).2⟩
  functions := by
    intro g hg
    rcases Array.mem_push.mp hg with old | rfl
    · exact h.functions g old
    · exact foreign
  depth := h.depth

theorem libraryFunctionBrings (f : Value.LibraryFunction) :
    Brings n (fun p v => below p v) (libraryFunction f) := by
  intro w fresh room
  simp only [libraryFunction, bind, EStateM.bind, get, getThe, MonadStateOf.get, EStateM.get]
  generalize found : Array.findIdx? _ w.functions = place
  cases place with
  | some ref =>
    refine ⟨fresh, room, ?_⟩
    obtain ⟨inside, _⟩ := Array.findIdx?_eq_some_iff_getElem.mp found
    simpa [below] using inside
  | none =>
    refine ⟨fresh.grown rfl, ?_, ?_⟩
    · simpa using Nat.le_succ_of_le room
    · simp [below]

theorem entryBrings (key : String) (b : Value.Binding) :
    Brings n (fun p f => below p f.2)
      (do let v ← match b with
            | .number n => pure (Value.number n)
            | .text t => pure (Value.text t)
            | .function f => libraryFunction f
            | .object _ => pure Value.undefined
          return (key, v)) := by
  cases b with
  | function f =>
    exact (libraryFunctionBrings f).bind fun v p _ isBelow =>
      Brings.pure (a := (key, v)) fun m more => belowMono isBelow more
  | _ => exact Brings.pure fun _ _ => rfl

theorem entriesBring {f : String × Value.Binding → Run (String × Value)}
    (each : ∀ m entry, Brings m (fun p r => below p r.2) (f entry)) (entries : List (String × Value.Binding)) :
    Brings n (fun p (fs : Fields) => ∀ g ∈ fs, below p g.2) (entries.mapM f) := by
  induction entries generalizing n with
  | nil => exact Brings.pure (by simp)
  | cons entry rest ih =>
    rw [List.mapM_cons]
    refine (each n entry).bind fun g p _ isBelow => (ih (n := p)).bind fun fs q more areBelow => Brings.pure ?_
    intro m later h hh
    rcases List.mem_cons.mp hh with rfl | hh
    · exact belowMono isBelow (Nat.le_trans more later)
    · exact belowMono (areBelow h hh) later

theorem bindingValueBrings (b : Value.Binding) : Brings n (fun p v => below p v) (bindingValue b) := by
  cases b with
  | number | text => exact Brings.pure fun _ _ => rfl
  | function f => exact libraryFunctionBrings f
  | object fields =>
    refine (entriesBring (fun m entry => entryBrings entry.1 entry.2) fields).bind ?_
    intro fs p _ areBelow w fresh room
    refine ⟨{ fresh with objects := ?_ }, room, rfl⟩
    intro made hm
    rcases Array.mem_push.mp hm with old | rfl
    · exact fresh.objects made old
    · exact fun g hg => belowMono (areBelow g hg) room

theorem memPut {f : Frame} {x : String} {v : Value} {g : String × Value} (h : g ∈ f.put x v) :
    g ∈ f ∨ g = (x, v) := by
  induction f with
  | nil => simpa [Frame.put] using h
  | cons e rest ih =>
    simp only [Frame.put] at h
    split at h
    case isTrue same =>
      rcases List.mem_cons.mp h with rfl | h
      · simp_all
      · simp [h]
    case isFalse =>
      rcases List.mem_cons.mp h with rfl | h
      · simp
      · rcases ih h with old | new
        · simp [old]
        · simp [new]

theorem globalBrings {name : String} (plain : startsWithUnderscores name = false) {v : Value} (isBelow : below n v) :
    Brings n (fun _ _ => True) (modify fun w => { w with globals := w.globals.put name v }) := by
  intro w fresh room
  refine ⟨{ fresh with globals := ?_ }, room, trivial⟩
  intro g hg
  rcases memPut hg with old | rfl
  · exact fresh.globals g old
  · exact ⟨belowMono isBelow room, plain⟩

/-- Libraries are bound before any code runs. -/
theorem bindLibrariesBrings (names : List String) : Brings n (fun _ _ => True) (bindLibraries names) := by
  intro w fresh room
  simp only [bindLibraries]
  cases found : Value.libraryBindings names with
  | error f => exact fresh
  | ok bs =>
    have plain := plainBindings found
    have loop : Brings n (fun _ _ => True) (forIn bs PUnit.unit fun x r => do
        let v ← bindingValue x.2
        modify fun w => { w with globals := w.globals.put x.1 v }
        pure (ForInStep.yield PUnit.unit)) := by
      clear found fresh room
      induction bs generalizing n with
      | nil => exact Brings.pure fun _ _ => trivial
      | cons b rest ih =>
        simp only [List.forIn_cons, bind_assoc]
        refine (bindingValueBrings b.2).bind fun v p _ isBelow => ?_
        refine (globalBrings (plain b (by simp)) isBelow).bind fun _ q _ _ => ?_
        exact ih fun c hc => plain c (by simp [hc])
    have all : Brings n (fun _ _ => True) (do forIn bs PUnit.unit _; pure ()) :=
      loop.bind fun _ _ _ _ => Brings.pure fun _ _ => trivial
    exact all w fresh room

end Brings

/-- A world with the function of the caller, in which nothing has happened. -/
def callerWorld : World := { functions := #[.inert] }

theorem callerFresh : Fresh callerWorld where
  frames := rfl
  promises := rfl
  arrays := rfl
  objects := by simp [callerWorld]
  globals := by simp [callerWorld]
  functions := by
    unfold Callable.isForeign
    simp [callerWorld]
  depth := rfl

end Fragment.Target
