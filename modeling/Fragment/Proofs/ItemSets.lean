import Mathlib.Data.List.Permutation
import Mathlib.Data.List.Sublists
import Mathlib.Data.Nat.Factorial.Basic
import Mathlib.Algebra.Order.BigOperators.Group.List
import Mathlib.Algebra.Order.Ring.Nat
import Fragment.Source.Automaton

/-! The states of the automaton as sets of items.
A state has its kernel and the beginnings of every rule that follows a mark. There are as many states as
kernels can be reached, so each symbol after a mark leads to a state, whose kernel is made of the items
that have moved past it. -/
namespace Fragment.Source.Automaton

theorem eraseDupsNodup {α : Type} [BEq α] [LawfulBEq α] (l : List α) : l.eraseDups.Nodup := by
  induction n : l.length using Nat.strong_induction_on generalizing l with
  | _ n ih =>
    cases l with
    | nil => simp
    | cons a rest =>
      rw [List.eraseDups_cons, List.nodup_cons]
      refine ⟨by simp [List.mem_eraseDups], ih _ ?_ _ rfl⟩
      exact Nat.lt_of_le_of_lt (List.length_filter_le _ _) (by simp [← n])

theorem ruleRoom (r : Rule) : r.ctorIdx < 79 := by cases r <;> decide

theorem ruleIdxInj {r s : Rule} (same : r.ctorIdx = s.ctorIdx) : r = s := by
  rw [← Rule.ofNat_ctorIdx r, same, Rule.ofNat_ctorIdx]

theorem memOfRule {productions : Array Production} {r : Rule} {i : Nat} :
    i ∈ (tables productions).ofRule r ↔ ∃ p, productions[i]? = some p ∧ p.rule = r := by
  have room : r.ctorIdx < ruleCount := (ruleRoom r).trans (by decide)
  simp only [Tables.ofRule, tables, Array.getD_eq_getD_getElem?]
  simp only [Array.getElem?_map, Array.getElem?_range, room, if_true, Option.map_some, Option.getD_some,
    List.mem_filter, List.mem_range]
  constructor
  · rintro ⟨_, here⟩
    cases at_ : productions[i]? with
    | none => simp [at_] at here
    | some p => exact ⟨p, rfl, ruleIdxInj (by simpa [at_] using here)⟩
  · rintro ⟨p, at_, rfl⟩
    exact ⟨(Array.getElem?_eq_some_iff.mp at_).1, by simp [at_]⟩

section Closure

variable {t : Tables} {kernel : List Item} {r s : Rule}

theorem memWanted {items : List Item} : r ∈ wanted t items ↔ ∃ item ∈ items, t.symbolAt item = some (.rule r) := by
  simp only [wanted, List.mem_filterMap]
  refine exists_congr fun item => and_congr_right fun _ => ?_
  split <;> simp_all

theorem memBeginnings {rules : List Rule} {item : Item} :
    item ∈ beginnings t rules ↔ ∃ r ∈ rules, ∃ q ∈ t.ofRule r, item = ⟨q, 0⟩ := by
  simp [beginnings, eq_comm]

def Opens (t : Tables) (r s : Rule) : Prop := ∃ q ∈ t.ofRule r, t.symbolAt ⟨q, 0⟩ = some (.rule s)

theorem memOpened : s ∈ wanted t (beginnings t [r]) ↔ Opens t r s := by
  rw [memWanted]
  constructor
  · rintro ⟨item, begins, at_⟩
    obtain ⟨r', isR, q, is, rfl⟩ := memBeginnings.mp begins
    cases List.mem_singleton.mp isR
    exact ⟨q, is, at_⟩
  · rintro ⟨q, is, at_⟩
    exact ⟨⟨q, 0⟩, memBeginnings.mpr ⟨r, List.mem_singleton_self r, q, is, rfl⟩, at_⟩

theorem rulesFew {rules : List Rule} (nodup : rules.Nodup) : rules.length < 80 := by
  have mapped : (rules.map Rule.ctorIdx).Nodup := nodup.map fun _ _ => ruleIdxInj
  have inside : rules.map Rule.ctorIdx ⊆ List.range 79 := by
    intro n member
    obtain ⟨r, _, rfl⟩ := List.mem_map.mp member
    exact List.mem_range.mpr (ruleRoom r)
  have few := (mapped.subperm inside).length_le
  rw [List.length_map, List.length_range] at few
  omega

theorem reachNil (fuel : Nat) (found : List Rule) : reachRules t fuel [] found = found := by cases fuel <;> rfl

theorem reachKeeps (fuel : Nat) (todo found : List Rule) : ∀ r ∈ found, r ∈ reachRules t fuel todo found := by
  induction fuel generalizing todo found with
  | zero => exact fun r member => by simpa [reachRules] using member
  | succ fuel ih =>
    intro r member
    cases todo with
    | nil => rwa [reachNil]
    | cons => exact ih _ _ r (List.mem_append_left _ member)

-- Rules that have been looked at have brought in the rules that they begin with. There are fewer rules
-- than steps, so in the end all have been looked at.
theorem reachClosed (fuel : Nat) (todo found : List Rule) (nodup : found.Nodup) (enough : todo.length + 80 ≤ fuel + found.length)
    (done : ∀ r ∈ found, r ∉ todo → ∀ s, Opens t r s → s ∈ found) :
    ∀ r ∈ reachRules t fuel todo found, ∀ s, Opens t r s → s ∈ reachRules t fuel todo found := by
  induction fuel generalizing todo found with
  | zero =>
    have few := rulesFew nodup
    omega
  | succ fuel ih =>
    cases todo with
    | nil =>
      rw [reachNil]
      exact fun r member s opens => done r member List.not_mem_nil s opens
    | cons first rest =>
      have new (s : Rule) : s ∈ ((wanted t (beginnings t [first])).filter (!found.contains ·)).eraseDups ↔
          Opens t first s ∧ s ∉ found := by
        rw [List.mem_eraseDups, List.mem_filter, memOpened]
        simp
      refine ih _ _ (nodup.append (eraseDupsNodup _) fun s old isNew => ((new s).mp isNew).2 old) ?_ ?_
      · simp only [List.length_append, List.length_cons] at enough ⊢
        omega
      · intro r member later s opens
        simp only [List.mem_append, not_or] at member later ⊢
        have old : r ∈ found := member.resolve_right later.1
        by_cases isFirst : r = first
        · subst isFirst
          by_cases there : s ∈ found
          · exact .inl there
          · exact .inr ((new s).mpr ⟨opens, there⟩)
        · exact .inl (done r old (by simp [isFirst, later.2]) s opens)

theorem reachInduction {P : Rule → Prop} (opens : ∀ r s, P r → Opens t r s → P s) (fuel : Nat) (todo found : List Rule)
    (before : ∀ r ∈ found, P r) (waiting : ∀ r ∈ todo, P r) : ∀ r ∈ reachRules t fuel todo found, P r := by
  induction fuel generalizing todo found with
  | zero => exact fun r member => before r (by simpa [reachRules] using member)
  | succ fuel ih =>
    cases todo with
    | nil => exact fun r member => before r (reachNil _ found ▸ member)
    | cons first rest =>
      have new (s : Rule) (member : s ∈ ((wanted t (beginnings t [first])).filter (!found.contains ·)).eraseDups) :
          P s := by
        rw [List.mem_eraseDups, List.mem_filter, memOpened] at member
        exact opens first s (waiting first List.mem_cons_self) member.1
      refine ih _ _ (fun r member => ?_) fun r member => ?_
      · exact (List.mem_append.mp member).elim (before r) (new r)
      · exact (List.mem_append.mp member).elim (new r) fun later => waiting r (List.mem_cons_of_mem _ later)

def openRules (t : Tables) (kernel : List Item) : List Rule :=
  reachRules t ruleCount (wanted t kernel).eraseDups (wanted t kernel).eraseDups

theorem memClosure {item : Item} :
    item ∈ closure t kernel ↔ item ∈ kernel ∨ ∃ r ∈ openRules t kernel, ∃ q ∈ t.ofRule r, item = ⟨q, 0⟩ := by
  rw [closure, List.mem_eraseDups, List.mem_append, memBeginnings]
  rfl

theorem kernelInClosure {item : Item} (member : item ∈ kernel) : item ∈ closure t kernel := memClosure.mpr (.inl member)

theorem closureNodup : (closure t kernel).Nodup := eraseDupsNodup _

theorem openRulesClosed : ∀ r ∈ openRules t kernel, ∀ s, Opens t r s → s ∈ openRules t kernel := by
  refine reachClosed ruleCount _ _ (eraseDupsNodup _) ?_ fun r there gone => absurd there gone
  rw [ruleCount]
  omega

theorem closureOpens {item : Item} (member : item ∈ closure t kernel) (wants : t.symbolAt item = some (.rule r)) {q : Nat}
    (is : q ∈ t.ofRule r) : ⟨q, 0⟩ ∈ closure t kernel := by
  refine memClosure.mpr (.inr ⟨r, ?_, q, is, rfl⟩)
  rcases memClosure.mp member with inKernel | ⟨s, opened, p, isS, rfl⟩
  · exact reachKeeps _ _ _ r (List.mem_eraseDups.mpr (memWanted.mpr ⟨item, inKernel, wants⟩))
  · exact openRulesClosed s opened r ⟨p, isS, wants⟩

theorem closureInduction {P : Item → Prop} (inKernel : ∀ item ∈ kernel, P item)
    (opens : ∀ item r, P item → t.symbolAt item = some (.rule r) → ∀ q ∈ t.ofRule r, P ⟨q, 0⟩) :
    ∀ item ∈ closure t kernel, P item := by
  have rules : ∀ r ∈ openRules t kernel, ∀ q ∈ t.ofRule r, P ⟨q, 0⟩ := by
    have wants : ∀ r ∈ (wanted t kernel).eraseDups, ∀ q ∈ t.ofRule r, P ⟨q, 0⟩ := by
      intro r member
      obtain ⟨item, is, at_⟩ := memWanted.mp (List.mem_eraseDups.mp member)
      exact opens item r (inKernel item is) at_
    refine reachInduction (fun r s holds step => ?_) _ _ _ wants wants
    obtain ⟨p, is, at_⟩ := step
    exact opens ⟨p, 0⟩ s (holds p is) at_
  intro item member
  rcases memClosure.mp member with is | ⟨r, opened, q, is, rfl⟩
  · exact inKernel item is
  · exact rules r opened q is

end Closure

theorem memAdvance {t : Tables} {items : List Item} {s : Symbol} {item : Item} :
    item ∈ advance t items s ↔ ∃ before ∈ items, t.symbolAt before = some s ∧ item = before.next := by
  simp only [advance, List.mem_map, List.mem_filter, decide_eq_true_eq]
  constructor
  · rintro ⟨before, ⟨is, at_⟩, rfl⟩
    exact ⟨before, is, at_, rfl⟩
  · rintro ⟨before, is, at_, rfl⟩
    exact ⟨before, ⟨is, at_⟩, rfl⟩

theorem memSuccessors {t : Tables} {items : List Item} {s : Symbol} {kernel : List Item} :
    (s, kernel) ∈ successors t items ↔ kernel = advance t items s ∧ ∃ item ∈ items, t.symbolAt item = some s := by
  simp only [successors, List.mem_map, List.mem_eraseDups, List.mem_filterMap, Prod.mk.injEq]
  constructor
  · rintro ⟨s, there, rfl, rfl⟩
    exact ⟨rfl, there⟩
  · rintro ⟨rfl, there⟩
    exact ⟨s, there, rfl, rfl⟩

section Kernels

variable {t : Tables}

-- The items that there are, and kernels made of them.
def allItems (t : Tables) : List Item :=
  t.productions.toList.zipIdx.flatMap fun (p, i) => (List.range (p.symbols.length + 1)).map (⟨i, ·⟩)

theorem allItemsLength : (allItems t).length = itemCount t := by
  change _ = (t.productions.toList.map (·.symbols.length + 1)).sum
  have same : t.productions.toList.zipIdx.map (fun (p, _) => p.symbols.length + 1) =
      t.productions.toList.map (·.symbols.length + 1) := by
    conv_rhs => rw [← List.zipIdx_map_fst 0 t.productions.toList, List.map_map]
    rfl
  simp [allItems, List.length_flatMap, ← same]

def IsKernel (t : Tables) (kernel : List Item) : Prop := kernel.Nodup ∧ kernel ⊆ allItems t

theorem memAllItems {item : Item} : item ∈ allItems t ↔
    ∃ p, t.productions[item.production]? = some p ∧ item.mark ≤ p.symbols.length := by
  obtain ⟨production, mark⟩ := item
  simp only [allItems, List.mem_flatMap, List.mem_map, List.mem_range, Prod.exists, List.mem_zipIdx_iff_getElem?,
    Array.getElem?_toList, Item.mk.injEq]
  constructor
  · rintro ⟨p, i, at_, m, bound, rfl, rfl⟩
    exact ⟨p, at_, Nat.lt_succ_iff.mp bound⟩
  · rintro ⟨p, at_, bound⟩
    exact ⟨p, production, at_, mark, Nat.lt_succ_iff.mpr bound, rfl, rfl⟩

-- Each kernel is an arrangement of some of the items.
theorem kernelsFew {found : List (List Item)} (nodup : found.Nodup) (kernels : ∀ k ∈ found, IsKernel t k) :
    found.length ≤ (2 * itemCount t) ^ itemCount t := by
  have inside : found ⊆ (allItems t).sublists.flatMap List.permutations := by
    intro k member
    obtain ⟨distinct, items⟩ := kernels k member
    obtain ⟨l, perm, sub⟩ := distinct.subperm items
    exact List.mem_flatMap.mpr ⟨l, List.mem_sublists.mpr sub, List.mem_permutations.mpr perm.symm⟩
  have each : ∀ n ∈ (allItems t).sublists.map (·.permutations.length), n ≤ itemCount t ^ itemCount t := by
    intro n member
    obtain ⟨l, is, rfl⟩ := List.mem_map.mp member
    have short := (List.mem_sublists.mp is).length_le
    rw [allItemsLength] at short
    rw [List.length_permutations]
    exact (Nat.factorial_le short).trans (Nat.factorial_le_pow _)
  calc found.length ≤ ((allItems t).sublists.flatMap List.permutations).length := (nodup.subperm inside).length_le
    _ = ((allItems t).sublists.map (·.permutations.length)).sum := List.length_flatMap
    _ ≤ 2 ^ itemCount t * itemCount t ^ itemCount t := by
      simpa [List.length_sublists, allItemsLength] using List.sum_le_card_nsmul _ _ each
    _ = (2 * itemCount t) ^ itemCount t := (Nat.mul_pow _ _ _).symm

theorem symbolAtSome {item : Item} {s : Symbol} (at_ : t.symbolAt item = some s) :
    ∃ p, t.productions[item.production]? = some p ∧ p.symbols[item.mark]? = some s := by
  unfold Tables.symbolAt Tables.afterMark at at_
  split at at_
  · next p there => exact ⟨p, there, by simpa [List.head?_drop] using at_⟩
  · simp at at_

theorem nextInj {a b : Item} (same : a.next = b.next) : a = b := by
  cases a
  cases b
  simpa [Item.next] using same

theorem advanceKernel (kernel : List Item) (s : Symbol) : IsKernel t (advance t (closure t kernel) s) := by
  refine ⟨(closureNodup.filter _).map fun _ _ => nextInj, fun item member => ?_⟩
  obtain ⟨before, _, at_, rfl⟩ := memAdvance.mp member
  obtain ⟨p, there, symbol⟩ := symbolAtSome at_
  exact memAllItems.mpr ⟨p, there, (List.getElem?_eq_some_iff.mp symbol).1⟩

def pushNew (found : Array (List Item)) (more : List (Symbol × List Item)) : Array (List Item) :=
  more.foldl (fun found (_, k) => if found.contains k then found else found.push k) found

theorem pushNewSpec (more : List (Symbol × List Item)) (found : Array (List Item)) (nodup : found.toList.Nodup) :
    (pushNew found more).toList.Nodup ∧ found.toList <+: (pushNew found more).toList ∧
      ∀ k, k ∈ pushNew found more ↔ k ∈ found ∨ ∃ s, (s, k) ∈ more := by
  induction more generalizing found with
  | nil => simp [pushNew, nodup]
  | cons first rest ih =>
    obtain ⟨s, k⟩ := first
    by_cases there : k ∈ found
    · have same : pushNew found ((s, k) :: rest) = pushNew found rest := by simp [pushNew, there]
      obtain ⟨nodup', grows, members⟩ := ih found nodup
      rw [same]
      refine ⟨nodup', grows, fun k' => ?_⟩
      rw [members k']
      grind
    · have same : pushNew found ((s, k) :: rest) = pushNew (found.push k) rest := by simp [pushNew, there]
      have distinct : (found.push k).toList.Nodup := by
        rw [Array.toList_push]
        exact nodup.append (List.nodup_singleton k) (by simpa using there)
      obtain ⟨nodup', grows, members⟩ := ih (found.push k) distinct
      rw [same]
      refine ⟨nodup', ?_, fun k' => ?_⟩
      · exact List.IsPrefix.trans (by simp) grows
      · rw [members k', Array.mem_push]
        grind

-- The kernels before number `i` have their successors among those found.
structure Explored (t : Tables) (i : Nat) (found : Array (List Item)) : Prop where
  nodup : found.toList.Nodup
  kernels : ∀ k ∈ found, IsKernel t k
  start : found[0]? = some [⟨0, 0⟩]
  done : ∀ j < i, ∀ k, found[j]? = some k → ∀ s k', (s, k') ∈ successors t (closure t k) → k' ∈ found

theorem Explored.step {i : Nat} {found : Array (List Item)} (e : Explored t i found) {kernel : List Item}
    (here : found[i]? = some kernel) : Explored t (i + 1) (pushNew found (successors t (closure t kernel))) := by
  obtain ⟨nodup, grows, members⟩ := pushNewSpec (successors t (closure t kernel)) found e.nodup
  have kept {j : Nat} {k : List Item} (there : found[j]? = some k) :
      (pushNew found (successors t (closure t kernel)))[j]? = some k := by
    obtain ⟨l, eq⟩ := grows
    rw [← Array.getElem?_toList] at there ⊢
    rw [← eq, List.getElem?_append_left (List.getElem?_eq_some_iff.mp there).1, there]
  refine ⟨nodup, fun k member => ?_, kept e.start, fun j below k there s k' successor => ?_⟩
  · rcases (members k).mp member with old | ⟨s, new⟩
    · exact e.kernels k old
    · rw [(memSuccessors.mp new).1]
      exact advanceKernel kernel s
  · rw [members]
    by_cases last : j = i
    · subst last
      cases (kept here).symm.trans there
      exact .inr ⟨s, successor⟩
    · have earlier : j < i := by omega
      have old : found[j]? = some k := by
        have bound : j < found.size := (Array.getElem?_eq_some_iff.mp here).1.trans' earlier
        have value := kept (Array.getElem?_eq_getElem bound)
        rw [Array.getElem?_eq_getElem bound, ← value]
        exact there
      exact .inl (e.done j earlier k old s k' successor)

theorem Explored.few {i : Nat} {found : Array (List Item)} (e : Explored t i found) :
    found.size ≤ (2 * itemCount t) ^ itemCount t := by
  simpa using kernelsFew e.nodup fun k member => e.kernels k (Array.mem_toList_iff.mp member)

theorem Explored.past {i : Nat} {found : Array (List Item)} (e : Explored t i found) (all : found.size ≤ i) (j : Nat) :
    Explored t j found := by
  refine ⟨e.nodup, e.kernels, e.start, fun j' _ k there => e.done j' ?_ k there⟩
  exact (Array.getElem?_eq_some_iff.mp there).1.trans_le all

theorem exploreDone (fuel i : Nat) (found : Array (List Item)) (e : Explored t i found)
    (enough : (2 * itemCount t) ^ itemCount t < fuel + i) : ∀ j, Explored t j (explore t fuel i found) := by
  induction fuel generalizing i found with
  | zero => exact e.past (e.few.trans (by omega))
  | succ fuel ih =>
    rw [explore]
    split
    · next none_ => exact e.past (Array.getElem?_eq_none_iff.mp none_)
    · next kernel here => exact ih (i + 1) _ (e.step here) (by omega)

theorem kernelsExplored (first : 0 < t.productions.size) (j : Nat) : Explored t j (kernels t) := by
  refine exploreDone _ 0 _ ⟨by simp, ?_, rfl, fun j below => absurd below (Nat.not_lt_zero j)⟩ ?_ j
  case refine_2 => exact Nat.lt_succ_self _
  intro k member
  have is : k = [⟨0, 0⟩] := by simpa using member
  subst is
  refine ⟨List.nodup_singleton _, ?_⟩
  intro item isItem
  cases List.mem_singleton.mp isItem
  exact memAllItems.mpr ⟨t.productions[0], Array.getElem?_eq_getElem first, Nat.zero_le _⟩

end Kernels

section States

variable {t : Tables}

theorem lookupMap {α β : Type} [BEq α] [LawfulBEq α] (f : α → β) (l : List α) (a : α) :
    (l.map fun x => (x, f x)).lookup a = if a ∈ l then some (f a) else none := by
  induction l with
  | nil => rfl
  | cons x rest ih =>
    by_cases same : a = x
    · simp [same]
    · simp [List.lookup_cons, same, ih, beq_false_of_ne same]

namespace ItemTable

def next? (g : ItemTable) (i : Nat) (s : Symbol) : Option Nat := g.states[i]?.bind (·.next.lookup s)

end ItemTable

theorem tableState {i : Nat} {kernel : List Item} (here : (kernels t)[i]? = some kernel) :
    (itemTable t).states[i]? = some ⟨closure t kernel, (successors t (closure t kernel)).map
      fun (s, k) => (s, (kernels t).idxOf k)⟩ := by
  simp [itemTable, here]

theorem tableItems {i : Nat} {kernel : List Item} (here : (kernels t)[i]? = some kernel) :
    (itemTable t).items i = closure t kernel := by simp [ItemTable.items, tableState here]

theorem tableNext {i : Nat} {kernel : List Item} (here : (kernels t)[i]? = some kernel) (s : Symbol) :
    (itemTable t).next? i s = if ∃ item ∈ closure t kernel, t.symbolAt item = some s then
      some ((kernels t).idxOf (advance t (closure t kernel) s)) else none := by
  have same : (successors t (closure t kernel)).map (fun (s, k) => (s, (kernels t).idxOf k)) =
      ((closure t kernel).filterMap t.symbolAt).eraseDups.map
        fun s => (s, (kernels t).idxOf (advance t (closure t kernel) s)) := by
    simp [successors]
  rw [ItemTable.next?, tableState here, Option.bind_some, same, lookupMap]
  simp only [List.mem_eraseDups, List.mem_filterMap]

theorem kernelAt {i : Nat} {item : Item} (member : item ∈ (itemTable t).items i) :
    ∃ kernel, (kernels t)[i]? = some kernel := by
  cases here : (kernels t)[i]? with
  | some kernel => exact ⟨kernel, rfl⟩
  | none => simp [ItemTable.items, itemTable, here] at member

variable {i j : Nat} {s : Symbol} {item : Item}

theorem startItems (first : 0 < t.productions.size) : (itemTable t).items 0 = closure t [⟨0, 0⟩] :=
  tableItems (kernelsExplored first 0).start

theorem nextSome (member : item ∈ (itemTable t).items i) (at_ : t.symbolAt item = some s) :
    ∃ j, (itemTable t).next? i s = some j := by
  obtain ⟨kernel, here⟩ := kernelAt member
  rw [tableItems here] at member
  exact ⟨_, by rw [tableNext here, if_pos ⟨item, member, at_⟩]⟩

theorem nextBefore (leads : (itemTable t).next? i s = some j) :
    ∃ item ∈ (itemTable t).items i, t.symbolAt item = some s := by
  cases here : (kernels t)[i]? with
  | none => simp [ItemTable.next?, itemTable, here] at leads
  | some kernel =>
    rw [tableNext here] at leads
    rw [tableItems here]
    by_contra none_
    simp [none_] at leads

-- The state after a symbol has the items that move past it as its kernel.
theorem nextItems (first : 0 < t.productions.size) (leads : (itemTable t).next? i s = some j) :
    (itemTable t).items j = closure t (advance t ((itemTable t).items i) s) := by
  obtain ⟨item, member, at_⟩ := nextBefore leads
  obtain ⟨kernel, here⟩ := kernelAt member
  rw [tableItems here] at member
  rw [tableNext here, if_pos ⟨item, member, at_⟩] at leads
  cases leads
  have found : advance t (closure t kernel) s ∈ kernels t :=
    (kernelsExplored first (i + 1)).done i (Nat.lt_succ_self i) kernel here s _
      (memSuccessors.mpr ⟨rfl, item, member, at_⟩)
  rw [tableItems here]
  refine tableItems ?_
  have bound : (kernels t).idxOf (advance t (closure t kernel) s) < (kernels t).size :=
    Array.idxOf_lt_length_of_mem found
  rw [Array.getElem?_eq_getElem bound]
  exact congrArg some (eq_of_beq (Array.findIdx_getElem (w := bound)))

theorem stateOpens (member : item ∈ (itemTable t).items i) {r : Rule} (wants : t.symbolAt item = some (.rule r)) {q : Nat}
    (is : q ∈ t.ofRule r) : ⟨q, 0⟩ ∈ (itemTable t).items i := by
  obtain ⟨kernel, here⟩ := kernelAt member
  rw [tableItems here] at member ⊢
  exact closureOpens member wants is

end States

end Fragment.Source.Automaton
