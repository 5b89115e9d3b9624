import Fragment.Proofs.RadixDigits

/-! Texts of nested arrays.
The text of an array looks into the arrays in it. Where they are nested to a finite depth, no array contains itself, so
each further level has an array that was not met before, and the depth that the conversion allows is never used up. What
is left to go wrong is an integer somewhere inside that has no nearest double. -/
namespace Fragment.Value

/-- The values in a value: itself, and those in the elements of an array. -/
inductive Within (s : Store) : Value → Value → Prop
  | self (v : Value) : Within s v v
  | item {ref : Nat} {v w : Value} (member : v ∈ s.array ref) (inner : Within s v w) : Within s (.array ref) w

/-- Arrays are nested to a finite depth. -/
inductive Nested (s : Store) : Value → Prop
  | array {ref : Nat} (items : ∀ v ∈ s.array ref, Nested s v) : Nested s (.array ref)
  | single {v : Value} (plain : ∀ ref, v ≠ .array ref) : Nested s v

/-- An integer in a value that has no nearest double. -/
def Oversized (s : Store) (v : Value) : Prop := ∃ k, Within s v (.number k) ∧ k.fits = false

/-- What a text may come to: there is one, or a number inside has none. -/
def Spelled (s : Store) (v : Value) (r : Except Fault String) : Prop :=
  (∃ t, r = .ok t) ∧ ¬ Oversized s v ∨ r = .error .overflow ∧ Oversized s v

section Nesting

variable {s : Store} {ref : Nat} {u v w : Value}

theorem Within.trans (outer : Within s u v) (inner : Within s v w) : Within s u w := by
  induction outer with
  | self => exact inner
  | item member _ ih => exact .item member (ih inner)

/-- An array is not in its elements. -/
theorem Nested.apart (nested : Nested s u) (same : u = .array ref) (member : v ∈ s.array ref) : ¬ Within s v (.array ref) := by
  induction nested generalizing ref v with
  | single plain => exact absurd same (plain ref)
  | array items ih =>
    cases same
    intro inside
    cases v with
    | array other =>
      cases inside with
      | self => exact ih _ member rfl member (.self _)
      | item below inner => exact ih _ member rfl below (inner.trans (.item member (.self _)))
    | _ => cases inside

theorem withinItems : Within s (.array ref) w ↔ w = .array ref ∨ ∃ v ∈ s.array ref, Within s v w := by
  constructor
  · intro inside
    cases inside with
    | self => exact .inl rfl
    | item member inner => exact .inr ⟨_, member, inner⟩
  · rintro (rfl | ⟨v, member, inner⟩)
    · exact .self _
    · exact .item member inner

theorem oversizedItems : Oversized s (.array ref) ↔ ∃ v ∈ s.array ref, Oversized s v := by
  constructor
  · rintro ⟨k, inside, beyond⟩
    obtain same | ⟨v, member, inner⟩ := withinItems.mp inside
    · cases same
    · exact ⟨v, member, k, inner, beyond⟩
  · rintro ⟨v, member, k, inner, beyond⟩
    exact ⟨k, .item member inner, beyond⟩

theorem oversizedSingle (plain : ∀ ref, v ≠ .array ref) : Oversized s v ↔ ∃ k, v = .number k ∧ k.fits = false := by
  constructor
  · rintro ⟨k, inside, beyond⟩
    cases inside with
    | self => exact ⟨k, rfl, beyond⟩
    | item => exact absurd rfl (plain _)
  · rintro ⟨k, rfl, beyond⟩
    exact ⟨k, .self _, beyond⟩

end Nesting

/-! Texts -/

/-- A number has a text if it has a nearest double. -/
theorem numberSpelled (s : Store) (k : Number) : Spelled s (.number k) k.sourceText := by
  have single : Oversized s (.number k) ↔ k.fits = false := by
    simp [oversizedSingle (v := .number k) nofun]
  unfold Spelled
  rw [single]
  cases k with
  | float x => exact .inl ⟨⟨_, rfl⟩, nofun⟩
  | int n =>
    by_cases small : n.natAbs < 10 ^ 21
    · rw [sourceTextInt small, Number.smallFits ((fullSize small).trans (by decide))]
      exact .inl ⟨⟨_, rfl⟩, nofun⟩
    · simp only [Number.sourceText, Nat.pow_eq, small, if_false]
      cases fits : (Number.int n).fits with
      | true =>
        obtain ⟨x, found⟩ := Number.toFloatFits fits
        exact .inl ⟨⟨_, by rw [found]; rfl⟩, nofun⟩
      | false => exact .inr ⟨by rw [Number.toFloatBeyond fits]; rfl, rfl⟩

theorem eachConverted {α β ε : Type} (f : α → Except ε β) (items : List α) :
    (∃ texts, items.mapM f = .ok texts ∧ ∀ v ∈ items, ∃ t, f v = .ok t) ∨ ∃ e, items.mapM f = .error e ∧ ∃ v ∈ items, f v = .error e := by
  induction items with
  | nil => exact .inl ⟨[], rfl, nofun⟩
  | cons v items ih =>
    rw [List.mapM_cons]
    cases first : f v with
    | error e => exact .inr ⟨e, rfl, v, List.mem_cons_self, first⟩
    | ok t =>
      obtain ⟨texts, rest, each⟩ | ⟨e, rest, w, member, failed⟩ := ih
      · refine .inl ⟨t :: texts, by rw [rest]; rfl, fun w member => ?_⟩
        obtain rfl | member := List.mem_cons.mp member
        · exact ⟨t, first⟩
        · exact each w member
      · exact .inr ⟨e, by rw [rest]; rfl, w, List.mem_cons_of_mem _ member, failed⟩

/-- The text of an element; `undefined` has none. -/
def itemText (s : Store) (depth : Nat) : Value → Except Fault String
  | .undefined => pure ""
  | item => textWithin s depth item

theorem arrayText (s : Store) (depth ref : Nat) : textWithin s (depth + 1) (.array ref) = (do
    return String.intercalate "," (← (s.array ref).toList.mapM (itemText s depth))) := rfl

theorem itemSpelled {s : Store} {depth : Nat} {v : Value} (inner : Spelled s v (textWithin s depth v)) :
    Spelled s v (itemText s depth v) := by
  cases v with
  | undefined => exact .inl ⟨⟨_, rfl⟩, by simp [oversizedSingle (v := .undefined) nofun]⟩
  | _ => exact inner

theorem itemsSpelled {s : Store} {depth ref : Nat} (each : ∀ v ∈ s.array ref, Spelled s v (textWithin s depth v)) :
    Spelled s (.array ref) (textWithin s (depth + 1) (.array ref)) := by
  rw [arrayText, Spelled, oversizedItems]
  obtain ⟨texts, all, found⟩ | ⟨e, failed, v, member, wrong⟩ := eachConverted (itemText s depth) (s.array ref).toList
  · refine .inl ⟨⟨_, by rw [all]; rfl⟩, ?_⟩
    rintro ⟨v, member, oversized⟩
    obtain ⟨t, ok⟩ := found v (Array.mem_toList_iff.mpr member)
    obtain ⟨-, none⟩ | ⟨wrong, -⟩ := itemSpelled (each v member)
    · exact none oversized
    · rw [ok] at wrong
      cases wrong
  · have inside := Array.mem_toList_iff.mp member
    obtain ⟨⟨t, ok⟩, -⟩ | ⟨overflow, oversized⟩ := itemSpelled (each v inside)
    · rw [wrong] at ok
      cases ok
    · rw [wrong] at overflow
      cases overflow
      exact .inr ⟨by rw [failed]; rfl, v, inside, oversized⟩

theorem singleSpelled (s : Store) (depth : Nat) {v : Value} (plain : ∀ ref, v ≠ .array ref) :
    Spelled s v (textWithin s depth v) := by
  cases v with
  | array ref => exact absurd rfl (plain ref)
  | number k =>
    have text : textWithin s depth (.number k) = k.sourceText := by cases depth <;> rfl
    rw [text]
    exact numberSpelled s k
  | _ => exact .inl ⟨⟨_, by cases depth <;> rfl⟩, by simp [oversizedSingle plain]⟩

/-- With each level one more array has been met, so all of them are met before the depth is used up. -/
theorem nestedSpelled {s : Store} {v : Value} (nested : Nested s v) (met : Finset Nat)
    (others : ∀ ref ∈ met, ref < s.arrays.size ∧ ¬ Within s v (.array ref)) (depth : Nat)
    (enough : s.arrays.size + 1 ≤ depth + met.card) : Spelled s v (textWithin s depth v) := by
  induction nested generalizing met depth with
  | single plain => exact singleSpelled s depth plain
  | @array ref items ih =>
    have few : met.card ≤ s.arrays.size := by
      have inside : met ⊆ Finset.range s.arrays.size := fun ref member => Finset.mem_range.mpr (others ref member).1
      simpa using Finset.card_le_card inside
    obtain ⟨depth, rfl⟩ : ∃ d, depth = d + 1 := ⟨depth - 1, by omega⟩
    refine itemsSpelled fun v member => ?_
    have there : ref < s.arrays.size := by
      by_contra missing
      simp [Store.array, Array.getD_eq_getD_getElem?, missing] at member
    have unmet : ref ∉ met := fun met => (others ref met).2 (.self _)
    refine ih v member (insert ref met) (fun other inside => ?_) depth (by rw [Finset.card_insert_of_notMem unmet]; omega)
    obtain rfl | inside := Finset.mem_insert.mp inside
    · exact ⟨there, (Nested.array items).apart rfl member⟩
    · exact ⟨(others other inside).1, fun within => (others other inside).2 (.item member within)⟩

/-- The text of a value nested to a finite depth fails only for an integer inside without a nearest double. -/
theorem textFails {s : Store} {v : Value} (nested : Nested s v) {f : Fault} :
    toText s v = .error f ↔ f = .overflow ∧ Oversized s v := by
  obtain ⟨⟨t, ok⟩, none⟩ | ⟨overflow, oversized⟩ := nestedSpelled nested ∅ nofun (s.arrays.size + 1) (by simp)
  · simp [toText, ok, none]
  · simp [toText, overflow, oversized, eq_comm]

theorem textWhole {s : Store} {v : Value} (nested : Nested s v) {t : String} (found : toText s v = .ok t) :
    ¬ Oversized s v := by
  intro oversized
  rw [(textFails nested).mpr ⟨rfl, oversized⟩] at found
  cases found

end Fragment.Value
