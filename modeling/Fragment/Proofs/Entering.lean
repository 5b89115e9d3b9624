import Fragment.Proofs.Lawful
import Fragment.Proofs.Running
import Mathlib.Data.List.Forall2

/-! Entering a function.
The variables of a call begin with what is passed for the parameters. The lines that then stand first in the body say
where names come from, copy the rest arguments into a new array, and give some variables the value undefined. -/
namespace Fragment.Target

open Emit (borrowLines)

/-- What is passed for a parameter: a value, or the arguments that are left. -/
inductive Passed where
  | one (v : Value)
  | rest (vs : List Value)

/-- What is passed for some parameters. -/
def passed : List Value → List ParamMode → List Passed
  | _, [] => []
  | args, .rest :: ms => .rest args :: passed [] ms
  | args, _ :: ms => .one (args.head?.getD .undefined) :: passed args.tail ms

/-- Whether a value is what has been passed. Arguments that are left are in an array. -/
def Passed.Is (w : World) : Passed → Value → Prop
  | .one v, held => held = v
  | .rest vs, held => ∃ ref, held = .array ref ∧ w.store.arrays[ref]? = some vs.toArray

/-- Arrays that exist are still the same. -/
def ArraysKept (w u : World) : Prop :=
  ∀ (ref : Nat) (items : Array Value), w.store.arrays[ref]? = some items → u.store.arrays[ref]? = some items

/-- The line that copies the rest arguments. -/
def collectLines (params : List Param) : List Stmt :=
  ((params.filter (·.mode = .rest)).getLast?.map fun p => Stmt.collect p.name).toList

theorem Passed.Is.kept {w u : World} {given : Passed} {v : Value} (is : given.Is w v) (arrays : ArraysKept w u) :
    given.Is u v := by
  cases given with
  | one => exact is
  | rest vs =>
    obtain ⟨ref, rfl, items⟩ := is
    exact ⟨ref, rfl, arrays ref _ items⟩

theorem arraysPush (w : World) (items : Array Value) :
    ArraysKept w { w with store := { w.store with arrays := w.store.arrays.push items } } := by
  intro ref held there
  obtain ⟨bound, -⟩ := Array.getElem?_eq_some_iff.mp there
  rw [Array.getElem?_push, if_neg (by omega)]
  exact there

/-- A call begins with a variable for each parameter, which holds what is passed for it. -/
theorem bindParamsRun {params : List Param} {args : List Value} {f : Frame} {w u : World}
    (run : bindParams args params w = .ok f u) :
    f.map (·.1) = params.map (·.name) ∧ u.frames = w.frames ∧ ArraysKept w u ∧
      List.Forall₂ (fun entry given => given.Is u entry.2) f (passed args (params.map (·.mode))) := by
  induction params generalizing args f w with
  | nil =>
    unfold bindParams at run
    split at run
    · cases run
      exact ⟨rfl, rfl, fun _ _ there => there, .nil⟩
    · cases run
  | cons p rest ih =>
    obtain ⟨name, mode⟩ := p
    have single {args : List Value} {v : Value}
        (run : (bindParams args rest >>= fun f => pure ((name, v) :: f)) w = .ok f u) :
        ∃ g, f = (name, v) :: g ∧ g.map (·.1) = rest.map (·.name) ∧ u.frames = w.frames ∧ ArraysKept w u ∧
          List.Forall₂ (fun entry given => given.Is u entry.2) g (passed args (rest.map (·.mode))) := by
      obtain ⟨g, x, later, last⟩ := bindEnds run
      cases last
      exact ⟨g, rfl, ih later⟩
    cases mode with
    | required =>
      cases args with
      | nil => cases run
      | cons v args =>
        obtain ⟨g, rfl, names, frames, arrays, given⟩ := single run
        exact ⟨by simp [names], frames, arrays, .cons rfl given⟩
    | optional =>
      cases args with
      | nil =>
        obtain ⟨g, rfl, names, frames, arrays, given⟩ := single run
        exact ⟨by simp [names], frames, arrays, .cons rfl given⟩
      | cons v args =>
        obtain ⟨g, rfl, names, frames, arrays, given⟩ := single run
        exact ⟨by simp [names], frames, arrays, .cons rfl given⟩
    | rest =>
      obtain ⟨v, x, made, later⟩ := bindEnds run
      cases made
      obtain ⟨g, y, later, last⟩ := bindEnds later
      cases last
      obtain ⟨names, frames, arrays, given⟩ := ih later
      refine ⟨by simp [names], frames, fun ref items there => ?_, .cons ⟨_, rfl, ?_⟩ given⟩
      · exact arrays ref items (arraysPush w _ ref items there)
      · exact arrays _ _ (by simp)

/-! The variables of the running call -/

section Own

variable {o : Outside} {fuel : Nat} {scope : Scope} {around : List Scope} {w u : World} {f : Frame} {x : String}
  {v : Value}

theorem holderOwn (own : x ∈ scope.names) : holder? (scope :: around) x = some (scope.frame, true) := by
  simp [holder?, frameOf?, own]

theorem readOwn (own : x ∈ scope.names) (frame : w.frames[scope.frame]? = some f) (has : f.lookup x = some v) :
    readName (scope :: around) x w = .ok v w := by
  rw [readRun, holderOwn own]
  simp only [Array.getD_eq_getD_getElem?, frame, Option.getD_some, has]

theorem writeOwn (around : List Scope) (v : Value) (own : x ∈ scope.names) (frame : w.frames[scope.frame]? = some f) :
    ∃ u, writeName (scope :: around) x v w = .ok () u ∧ u.frames[scope.frame]? = some (f.put x v) ∧
      u.store = w.store := by
  refine ⟨_, writeRun _ _ _ _, ?_⟩
  rw [holderOwn own]
  exact ⟨by simp [Array.getElem?_modify, frame], rfl⟩

theorem execAllNext {s : Stmt} (ended : exec o fuel (scope :: around) s w = .ok .next u) (rest : List Stmt) :
    execAll o fuel (scope :: around) (s :: rest) w = execAll o fuel (scope :: around) rest u := by
  rw [execAll, bindRuns ended]

theorem execAppend {xs : List Stmt} (ended : execAll o fuel (scope :: around) xs w = .ok .next u) (ys : List Stmt) :
    execAll o fuel (scope :: around) (xs ++ ys) w = execAll o fuel (scope :: around) ys u := by
  induction xs generalizing w with
  | nil =>
    cases ended
    rfl
  | cons x xs ih =>
    obtain ⟨flow, s, first, rest⟩ := bindEnds ended
    cases flow with
    | next => rw [List.cons_append, execAllNext first, ih rest]
    | brk | cont | ret => cases rest

theorem borrowRun (o : Outside) (fuel : Nat) (around : List Scope) (globals nonlocals : List String) (w : World) :
    execAll o fuel (scope :: around) (borrowLines globals nonlocals) w = .ok .next w := by
  unfold borrowLines
  split <;> split <;> rfl

/-- Some variables of the call are given the value undefined. -/
theorem hoistRun (o : Outside) (fuel : Nat) (around : List Scope) {names : List String} (own : names ⊆ scope.names)
    (frame : w.frames[scope.frame]? = some f) :
    ∃ u g, execAll o fuel (scope :: around) (names.map (.assign · .none)) w = .ok .next u ∧
      u.frames[scope.frame]? = some g ∧ u.store = w.store ∧
      ∀ x, g.lookup x = if x ∈ names then some .undefined else f.lookup x := by
  induction names generalizing w f with
  | nil => exact ⟨w, f, rfl, frame, rfl, by simp⟩
  | cons name rest ih =>
    obtain ⟨here, own⟩ := List.cons_subset.mp own
    obtain ⟨s, wrote, held, store⟩ := writeOwn around .undefined here frame
    obtain ⟨u, g, ran, held, same, has⟩ := ih own held
    have assigned : exec o fuel (scope :: around) (.assign name .none) w = .ok .next s := by
      rw [exec, eval, pure_bind, bindRuns wrote]
      rfl
    refine ⟨u, g, ?_, held, same.trans store, fun x => ?_⟩
    · rw [List.map_cons, execAllNext assigned, ran]
    · rw [has, lookupPut]
      by_cases later : x ∈ rest
      · simp [later]
      · by_cases first : x = name <;> simp [later, first]

/-- The rest arguments are copied. -/
theorem collectRun (o : Outside) (fuel : Nat) (around : List Scope) {items : Array Value} {ref : Nat}
    (own : x ∈ scope.names) (frame : w.frames[scope.frame]? = some f) (has : f.lookup x = some (.array ref))
    (there : w.store.arrays[ref]? = some items) :
    ∃ u g copy, exec o fuel (scope :: around) (.collect x) w = .ok .next u ∧ u.frames[scope.frame]? = some g ∧
      ArraysKept w u ∧ u.store.arrays[copy]? = some items ∧
      ∀ y, g.lookup y = if y = x then some (.array copy) else f.lookup y := by
  let s : World := { w with store := { w.store with arrays := w.store.arrays.push items } }
  have same : s.frames[scope.frame]? = some f := frame
  obtain ⟨u, wrote, held, store⟩ := writeOwn around (.array w.store.arrays.size) own same
  refine ⟨u, _, w.store.arrays.size, ?_, held, ?_, ?_, fun y => lookupPut f x y _⟩
  · have whole : w.store.array ref = items := by
      simp [Store.array, there]
    have made : Run.newArray (w.store.array ref) w = .ok (.array w.store.arrays.size) s := by
      rw [whole]
      rfl
    have stored : Run.store w = .ok w.store w := rfl
    rw [exec, bindRuns (readOwn own frame has)]
    dsimp only
    rw [bindRuns stored, bindRuns made, bindRuns wrote]
    rfl
  · rw [ArraysKept, store]
    exact arraysPush w items
  · rw [store]
    simp [s]

theorem lookupHeld (apart : (f.map (·.1)).Nodup) (member : (x, v) ∈ f) : f.lookup x = some v := by
  induction f with
  | nil => cases member
  | cons entry rest ih =>
    obtain ⟨other, apart⟩ := List.nodup_cons.mp apart
    rw [lookupCons]
    rcases List.mem_cons.mp member with rfl | member
    · simp
    · have there : x ∈ rest.map (·.1) := List.mem_map_of_mem member
      rw [if_neg, ih apart member]
      rintro rfl
      exact other there

theorem passedRest (args : List Value) {ms : List ParamMode} {i : Nat} (mode : ms[i]? = some .rest) :
    ∃ vs, (passed args ms)[i]? = some (.rest vs) := by
  induction ms generalizing args i with
  | nil => simp at mode
  | cons m ms ih =>
    cases i with
    | zero =>
      obtain rfl : m = .rest := by simpa using mode
      exact ⟨args, rfl⟩
    | succ i =>
      have mode : ms[i]? = some .rest := by simpa using mode
      cases m <;> simpa [passed] using ih _ mode

variable {params : List Param} {args : List Value}

/-- What the variables of parameters hold. -/
def Holds (w : World) (f : Frame) (args : List Value) (params : List Param) : Prop :=
  ∀ (i : Nat) (p : Param) (given : Passed), params[i]? = some p → (passed args (params.map (·.mode)))[i]? = some given →
    ∃ v, f.lookup p.name = some v ∧ given.Is w v

theorem bindParamsHolds (apart : (params.map (·.name)).Nodup) (run : bindParams args params w = .ok f u) :
    u.frames = w.frames ∧ Holds u f args params := by
  obtain ⟨names, frames, -, held⟩ := bindParamsRun run
  refine ⟨frames, fun i p given param there => ?_⟩
  have named : (f.map (·.1))[i]? = some p.name := by rw [names, List.getElem?_map, param]; rfl
  rw [List.getElem?_map] at named
  obtain ⟨⟨x, v⟩, entry, rfl⟩ := Option.map_eq_some_iff.mp named
  refine ⟨v, lookupHeld (names ▸ apart) (List.mem_of_getElem? entry), ?_⟩
  obtain ⟨bound, rfl⟩ := List.getElem?_eq_some_iff.mp there
  obtain ⟨bound', same⟩ := List.getElem?_eq_some_iff.mp entry
  simpa [same] using held.get bound' bound

theorem collectLinesRun (o : Outside) (fuel : Nat) (around : List Scope) (own : ∀ p ∈ params, p.name ∈ scope.names)
    (apart : (params.map (·.name)).Nodup) (frame : w.frames[scope.frame]? = some f) (holds : Holds w f args params) :
    ∃ u g, execAll o fuel (scope :: around) (collectLines params) w = .ok .next u ∧
      u.frames[scope.frame]? = some g ∧ Holds u g args params := by
  unfold collectLines
  cases last : (params.filter (·.mode = .rest)).getLast? with
  | none => exact ⟨w, f, rfl, frame, holds⟩
  | some p =>
    have member := List.mem_of_getLast? last
    rw [List.mem_filter, decide_eq_true_eq] at member
    obtain ⟨member, mode⟩ := member
    obtain ⟨i, here⟩ := List.mem_iff_getElem?.mp member
    have kind : (params.map (·.mode))[i]? = some .rest := by simp [here, mode]
    obtain ⟨vs, given⟩ := passedRest args kind
    obtain ⟨v, has, ref, rfl, items⟩ := holds i p _ here given
    obtain ⟨u, g, copy, ran, held, arrays, copied, lookup⟩ :=
      collectRun o fuel around (own p member) frame has items
    refine ⟨u, g, ?_, held, fun j q h there given' => ?_⟩
    · rw [Option.map_some, Option.toList_some, execAllNext ran]
      rfl
    · rw [lookup]
      split
      case isTrue same =>
        have alike : (params.map (·.name))[i]? = (params.map (·.name))[j]? := by simp [here, there, same]
        obtain ⟨bound, -⟩ := List.getElem?_eq_some_iff.mp here
        obtain rfl := (List.getElem?_inj (by simpa using bound) apart).mp alike
        cases given.symm.trans given'
        exact ⟨.array copy, rfl, copy, rfl, copied⟩
      case isFalse =>
        obtain ⟨v, has, is⟩ := holds j q h there given'
        exact ⟨v, has, is.kept arrays⟩

/-- The lines that stand first in a body run, and change of the parameters those that are hoisted. -/
theorem startRun (o : Outside) (fuel : Nat) (around : List Scope) (globals nonlocals : List String)
    {hoisted : List String} (own : ∀ p ∈ params, p.name ∈ scope.names)
    (inside : hoisted ⊆ scope.names) (apart : (params.map (·.name)).Nodup) (frame : w.frames[scope.frame]? = some f)
    (holds : Holds w f args params) :
    ∃ u, execAll o fuel (scope :: around)
        (borrowLines globals nonlocals ++ (collectLines params ++ hoisted.map (Stmt.assign · .none))) w = .ok .next u ∧
      ∀ (i : Nat) (p : Param) (given : Passed), params[i]? = some p →
        (passed args (params.map (·.mode)))[i]? = some given →
        ∃ v, readName (scope :: around) p.name u = .ok v u ∧
          if p.name ∈ hoisted then v = .undefined else given.Is u v := by
  obtain ⟨s, g, collected, held, holds⟩ := collectLinesRun o fuel around own apart frame holds
  obtain ⟨u, h, ran, held, store, lookup⟩ := hoistRun o fuel around inside held
  refine ⟨u, ?_, fun i p given here there => ?_⟩
  · rw [execAppend (borrowRun o fuel around globals nonlocals w), execAppend collected, ran]
  · obtain ⟨v, has, is⟩ := holds i p given here there
    have mine := own p (List.mem_of_getElem? here)
    have now := lookup p.name
    split at now
    case isTrue hoisted =>
      exact ⟨.undefined, readOwn mine held now, by rw [if_pos hoisted]⟩
    case isFalse other =>
      refine ⟨v, readOwn mine held (now.trans has), ?_⟩
      rw [if_neg other]
      exact is.kept fun ref items there => by rw [store]; exact there

end Own

end Fragment.Target
