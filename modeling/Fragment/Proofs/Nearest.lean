import Mathlib.Algebra.BigOperators.Group.Finset.Basic
import Mathlib.Algebra.BigOperators.Group.List.Basic
import Mathlib.Algebra.Order.BigOperators.Group.Finset

/-! Names that refer to names, visited nearest first.
A work list takes the first name of a queue; a name that is new is taken, and its references join the
queue at the end. Such a run ends when the names are finitely many, and what it has taken is the
breadth-first order: each reached name once, those at a smaller distance first, and among names at one
distance those of an earlier referrer first. -/
namespace Fragment.Nearest

variable {refs refs' : String → List String} {names queue taken all : List String} {name : String}

/-- A name at the end of a chain of references of some length that begins at one of the names. -/
inductive Reaches (refs : String → List String) (names : List String) : Nat → String → Prop
  | start {name : String} (listed : name ∈ names) : Reaches refs names 0 name
  | next {steps : Nat} {name other : String} (before : Reaches refs names steps name) (refers : other ∈ refs name) :
    Reaches refs names (steps + 1) other

theorem Reaches.inside {known : String → Prop} {steps : Nat} (listed : ∀ n ∈ names, known n)
    (closed : ∀ n, known n → ∀ m ∈ refs n, known m) (reached : Reaches refs names steps name) : known name := by
  induction reached with
  | start member => exact listed _ member
  | next _ refers ih => exact closed _ ih _ refers

/-- The names reached in fewer than the given number of steps, in breadth-first order. -/
def nearest (refs : String → List String) (names : List String) : Nat → List String
  | 0 => []
  | steps + 1 => (names ++ (nearest refs names steps).flatMap refs).eraseDups

theorem memNearest {steps : Nat} : name ∈ nearest refs names steps ↔ ∃ d < steps, Reaches refs names d name := by
  induction steps generalizing name with
  | zero => simp [nearest]
  | succ steps ih =>
    simp only [nearest, List.mem_eraseDups, List.mem_append, List.mem_flatMap, ih]
    constructor
    · rintro (listed | ⟨before, ⟨d, less, reached⟩, refers⟩)
      · exact ⟨0, by omega, .start listed⟩
      · exact ⟨d + 1, by omega, .next reached refers⟩
    · rintro ⟨d, less, reached⟩
      cases reached with
      | start listed => exact .inl listed
      | next before refers => exact .inr ⟨_, ⟨_, by omega, before⟩, refers⟩

/-- A list that holds the reached names, each once, in breadth-first order. -/
structure BreadthFirst (refs : String → List String) (names all : List String) : Prop where
  once : all.Nodup
  reached : ∀ name, name ∈ all ↔ ∃ steps, Reaches refs names steps name
  ordered : ∀ steps, nearest refs names steps <+: all

/-- A run of the work list from a queue and the names taken before, to the empty queue. -/
inductive Visits (refs : String → List String) : List String → List String → List String → Prop
  | done {taken : List String} : Visits refs [] taken taken
  | again {name : String} {queue taken all : List String} (old : name ∈ taken) (rest : Visits refs queue taken all) :
    Visits refs (name :: queue) taken all
  | fresh {name : String} {queue taken all : List String} (new : name ∉ taken)
    (rest : Visits refs (queue ++ refs name) (taken ++ [name]) all) : Visits refs (name :: queue) taken all

theorem Visits.unique {other : List String} (run : Visits refs queue taken all) (run' : Visits refs queue taken other) :
    all = other := by
  induction run with
  | done => cases run'; rfl
  | again old _ ih =>
    cases run' with
    | again _ rest' => exact ih rest'
    | fresh new _ => exact absurd old new
  | fresh new _ ih =>
    cases run' with
    | again old _ => exact absurd old new
    | fresh _ rest' => exact ih rest'

theorem nodupSnoc (distinct : taken.Nodup) (new : name ∉ taken) : (taken ++ [name]).Nodup :=
  distinct.append (List.nodup_singleton name) (List.disjoint_singleton.mpr new)

theorem Visits.once (run : Visits refs queue taken all) (distinct : taken.Nodup) : all.Nodup := by
  induction run with
  | done => exact distinct
  | again _ _ ih => exact ih distinct
  | fresh new _ ih => exact ih (nodupSnoc distinct new)

theorem Visits.sound (run : Visits refs queue taken all)
    (sound : ∀ name ∈ taken ++ queue, ∃ steps, Reaches refs names steps name) :
    ∀ name ∈ all, ∃ steps, Reaches refs names steps name := by
  induction run with
  | done => simpa using sound
  | again _ _ ih => exact ih fun name h => sound name (by grind)
  | @fresh head queue taken all _ _ ih =>
    obtain ⟨steps, reached⟩ := sound head (by simp)
    refine ih fun name h => ?_
    by_cases refers : name ∈ refs head
    · exact ⟨steps + 1, .next reached refers⟩
    · exact sound name (by grind)

theorem eraseDupsOfNodup {l : List String} (distinct : l.Nodup) : l.eraseDups = l := by
  induction l with
  | nil => rfl
  | cons a l ih =>
    obtain ⟨new, distinct⟩ := List.nodup_cons.mp distinct
    have kept : l.filter (fun b => !b == a) = l := List.filter_eq_self.mpr (by grind)
    rw [List.eraseDups_cons, kept, ih distinct]

/-- A run appends to what was taken; the whole is the queue of its history without repetitions. -/
theorem Visits.history (run : Visits refs queue taken all) (distinct : taken.Nodup) :
    ∃ later, all = taken ++ later ∧ all = (taken ++ (queue ++ later.flatMap refs)).eraseDups := by
  induction run with
  | done => exact ⟨[], by simp, by simp [eraseDupsOfNodup distinct]⟩
  | again old _ ih =>
    obtain ⟨later, grown, whole⟩ := ih distinct
    refine ⟨later, grown, whole.trans ?_⟩
    simp [List.eraseDups_append, List.removeAll, old]
  | @fresh head queue taken all new _ ih =>
    obtain ⟨later, grown, whole⟩ := ih (nodupSnoc distinct new)
    exact ⟨head :: later, by simp [grown], by simpa using whole⟩

/-- What a run takes from the start is the breadth-first order. -/
theorem Visits.breadthFirst (run : Visits refs names [] all) : BreadthFirst refs names all := by
  obtain ⟨later, grown, whole⟩ := run.history List.nodup_nil
  obtain rfl : all = later := by simpa using grown
  rw [List.nil_append] at whole
  have ordered (steps : Nat) : nearest refs names steps <+: all := by
    induction steps with
    | zero => exact List.nil_prefix
    | succ steps ih =>
      obtain ⟨rest, split⟩ := ih
      rw [whole, ← split, List.flatMap_append, ← List.append_assoc, List.eraseDups_append]
      exact List.prefix_append _ _
  refine ⟨run.once List.nodup_nil, fun name => ⟨?_, ?_⟩, ordered⟩
  · exact run.sound (fun name h => ⟨0, .start (by simpa using h)⟩) name
  · rintro ⟨steps, reached⟩
    exact (ordered (steps + 1)).subset (memNearest.mpr ⟨steps, by omega, reached⟩)

theorem Visits.keeps (run : Visits refs queue taken all) : taken ⊆ all := by
  induction run with
  | done => exact List.Subset.refl _
  | again _ _ ih => exact ih
  | fresh _ _ ih => exact fun name h => ih (by simp [h])

theorem Visits.congr (run : Visits refs queue taken all) (same : ∀ name ∈ all, refs name = refs' name) :
    Visits refs' queue taken all := by
  induction run with
  | done => exact .done
  | again old _ ih => exact .again old (ih same)
  | @fresh head queue taken all new rest ih =>
    have member : head ∈ all := rest.keeps (by simp)
    exact .fresh new (same head member ▸ ih same)

/-- The work list with a bound on the number of names looked at. -/
def visit (refs : String → List String) : Nat → List String → List String → List String
  | 0, _, taken => taken
  | _, [], taken => taken
  | fuel + 1, name :: queue, taken =>
    if name ∈ taken then visit refs fuel queue taken else visit refs fuel (queue ++ refs name) (taken ++ [name])

/-- The bound is never met when it counts the queue and the references of all names not yet taken:
each step takes one name off the queue, and a name's references join it only once. -/
theorem visitEnds {known : Finset String} (closed : ∀ name ∈ known, ∀ other ∈ refs name, other ∈ known)
    {fuel : Nat} (inside : ∀ name ∈ queue, name ∈ known)
    (enough : queue.length + ∑ n ∈ known \ taken.toFinset, (refs n).length ≤ fuel) :
    Visits refs queue taken (visit refs fuel queue taken) := by
  induction fuel generalizing queue taken with
  | zero =>
    obtain rfl : queue = [] := List.length_eq_zero_iff.mp (by omega)
    exact .done
  | succ fuel ih =>
    cases queue with
    | nil => exact .done
    | cons name queue =>
      obtain ⟨here, inside⟩ := List.forall_mem_cons.mp inside
      simp only [List.length_cons] at enough
      by_cases old : name ∈ taken
      · simp only [visit, if_pos old]
        exact .again old (ih inside (by omega))
      · simp only [visit, if_neg old]
        refine .fresh old (ih ?_ ?_)
        · simpa [or_imp, forall_and] using ⟨inside, closed name here⟩
        · have new : name ∈ known \ taken.toFinset := by simp [here, old]
          have counted := Finset.add_sum_erase _ (fun n => (refs n).length) new
          have erased : known \ (taken ++ [name]).toFinset = (known \ taken.toFinset).erase name := by
            rw [← Finset.sdiff_insert]
            congr 1
            ext n
            simp
          rw [erased, List.length_append]
          omega

end Fragment.Nearest
