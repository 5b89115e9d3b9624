import Mathlib.Algebra.BigOperators.Group.Finset.Basic
import Mathlib.Algebra.Order.BigOperators.Group.Finset
import Fragment.Source.Automaton
import Fragment.Proofs.ItemSets

/-! What settles when sets flow between places.
Letting everything flow once only adds to the sets, and there is room for so much in each, so the rounds
come to an end with sets that receive whatever flows to them. No set has more than it has to. -/
namespace Fragment.Source.Automaton

def Grows (looks looks' : Array KindSet) : Prop :=
  looks'.size = looks.size ∧ ∀ n, looks'.getD n 0 ||| looks.getD n 0 = looks'.getD n 0

namespace Grows

variable {a b c : Array KindSet}

theorem refl (a : Array KindSet) : Grows a a := ⟨rfl, fun _ => BitVec.or_self⟩

theorem trans (first : Grows a b) (second : Grows b c) : Grows a c := by
  refine ⟨second.1.trans first.1, fun n => ?_⟩
  rw [← second.2 n, BitVec.or_assoc, first.2 n]

theorem antisymm (first : Grows a b) (second : Grows b a) : a = b := by
  refine Array.ext second.1 fun n below below' => ?_
  have same := (second.2 n).symm.trans ((BitVec.or_comm _ _).trans (first.2 n))
  simpa [Array.getD, below, below'] using same

theorem le (grows : Grows a b) (n : Nat) : (a.getD n 0).toNat ≤ (b.getD n 0).toNat := by
  rw [← grows.2 n, BitVec.toNat_or]
  exact Nat.right_le_or

end Grows

theorem getApply (looks : Array KindSet) (f : Flow) (n : Nat) : (f.apply looks).getD n 0 =
    if f.target = n ∧ n < looks.size then looks.getD n 0 ||| f.origin.value looks else looks.getD n 0 := by
  simp only [Flow.apply, Array.getD_eq_getD_getElem?, Array.getElem?_modify]
  by_cases here : f.target = n <;> by_cases below : n < looks.size <;> simp [here, below]

theorem applyGrows (looks : Array KindSet) (f : Flow) : Grows looks (f.apply looks) := by
  refine ⟨by simp [Flow.apply], fun n => ?_⟩
  rw [getApply]
  split
  · rw [BitVec.or_comm, ← BitVec.or_assoc, BitVec.or_self]
  · exact BitVec.or_self

theorem roundGrows (flows : List Flow) (looks : Array KindSet) : Grows looks (flows.foldl Flow.apply looks) := by
  induction flows generalizing looks with
  | nil => exact .refl looks
  | cons f rest ih => exact (applyGrows looks f).trans (ih _)

-- A round that changes nothing has no step that changes something, since no step takes anything back.
theorem stepsStill {flows : List Flow} {looks : Array KindSet} (still : flows.foldl Flow.apply looks = looks) :
    ∀ f ∈ flows, f.apply looks = looks := by
  induction flows with
  | nil => exact fun f member => absurd member List.not_mem_nil
  | cons f rest ih =>
    have first : f.apply looks = looks := by
      have back := roundGrows rest (f.apply looks)
      rw [← List.foldl_cons, still] at back
      exact back.antisymm (applyGrows looks f)
    have after : rest.foldl Flow.apply looks = looks := by rwa [List.foldl_cons, first] at still
    intro g member
    rcases List.mem_cons.mp member with rfl | later
    · exact first
    · exact ih after g later

def load (looks : Array KindSet) : Nat := ∑ n ∈ Finset.range looks.size, (looks.getD n 0).toNat

theorem loadBound (looks : Array KindSet) : load looks ≤ looks.size * 2 ^ 80 := by
  have each : ∀ n ∈ Finset.range looks.size, (looks.getD n 0).toNat ≤ 2 ^ 80 := fun n _ => (BitVec.isLt _).le
  simpa [load] using Finset.sum_le_card_nsmul _ _ _ each

theorem Grows.loadLt {a b : Array KindSet} (grows : Grows a b) (differ : b ≠ a) : load a < load b := by
  unfold load
  rw [grows.1]
  refine Finset.sum_lt_sum (fun n _ => grows.le n) ?_
  by_contra none_
  push Not at none_
  refine differ (Array.ext grows.1 fun n below below' => BitVec.eq_of_toNat_eq (le_antisymm ?_ ?_))
  · simpa [Array.getD, below, below'] using none_ n (Finset.mem_range.mpr below')
  · simpa [Array.getD, below, below'] using grows.le n

theorem settleStill (flows : List Flow) (fuel : Nat) (looks : Array KindSet)
    (enough : looks.size * 2 ^ 80 < fuel + load looks) :
    flows.foldl Flow.apply (settle flows fuel looks) = settle flows fuel looks := by
  induction fuel generalizing looks with
  | zero =>
    have bound := loadBound looks
    omega
  | succ fuel ih =>
    rw [settle]
    split
    · next same => exact eq_of_beq same
    · next differ =>
      have grows := roundGrows flows looks
      have more := grows.loadLt (fun same => differ (by simp [same]))
      refine ih _ ?_
      rw [grows.1]
      omega

theorem settleSize (flows : List Flow) (fuel : Nat) (looks : Array KindSet) :
    (settle flows fuel looks).size = looks.size := by
  induction fuel generalizing looks with
  | zero => rfl
  | succ fuel ih =>
    rw [settle]
    split
    · rfl
    · exact (ih _).trans (roundGrows flows looks).1

theorem hasOr (a b : KindSet) (k : TokenKind) : (a ||| b).has k = (a.has k || b.has k) := BitVec.getLsbD_or

variable {flows : List Flow} {places : Nat}

theorem solveSize : (solve flows places).size = places := by simp [solve, settleSize]

-- Every place has what flows to it.
theorem solveReceives {f : Flow} (member : f ∈ flows) (inside : f.target < places) {k : TokenKind}
    (comes : (f.origin.value (solve flows places)).has k) : ((solve flows places).getD f.target 0).has k := by
  have still : flows.foldl Flow.apply (solve flows places) = solve flows places := by
    refine settleStill flows _ _ ?_
    simp
    omega
  have same := getApply (solve flows places) f f.target
  rw [stepsStill still f member, if_pos ⟨rfl, solveSize.symm ▸ inside⟩] at same
  rw [same, hasOr, comes, Bool.or_true]

section Bound

variable (bound : Nat → TokenKind → Prop)

def Within (looks : Array KindSet) : Prop := ∀ n k, (looks.getD n 0).has k → bound n k

def Flow.Respects (f : Flow) : Prop :=
  match f.origin with
  | .kinds set => ∀ k, set.has k → bound f.target k
  | .place m => ∀ k, bound m k → bound f.target k

variable {bound}

theorem applyWithin {looks : Array KindSet} {f : Flow} (within : Within bound looks) (respects : f.Respects bound) :
    Within bound (f.apply looks) := by
  intro n k there
  rw [getApply] at there
  split at there
  · next here =>
    rw [hasOr, Bool.or_eq_true] at there
    rcases there with old | new
    · exact within n k old
    · rw [← here.1]
      unfold Flow.Respects at respects
      cases origin : f.origin with
      | kinds set =>
        rw [origin] at respects new
        exact respects k new
      | place m =>
        rw [origin] at respects new
        exact respects k (within m k new)
  · exact within n k there

theorem roundWithin {looks : Array KindSet} (within : Within bound looks) (respect : ∀ f ∈ flows, f.Respects bound) :
    Within bound (flows.foldl Flow.apply looks) := by
  induction flows generalizing looks with
  | nil => exact within
  | cons f rest ih =>
    exact ih (applyWithin within (respect f List.mem_cons_self)) fun g later => respect g (List.mem_cons_of_mem _ later)

theorem settleWithin {looks : Array KindSet} (within : Within bound looks) (respect : ∀ f ∈ flows, f.Respects bound)
    (fuel : Nat) : Within bound (settle flows fuel looks) := by
  induction fuel generalizing looks with
  | zero => exact within
  | succ fuel ih =>
    rw [settle]
    split
    · exact within
    · exact ih (roundWithin within respect)

-- What no flow brings is nowhere: a bound that all flows respect holds in the end.
theorem solveWithin (respect : ∀ f ∈ flows, f.Respects bound) : Within bound (solve flows places) := by
  refine settleWithin (fun n k there => ?_) respect _
  have zero : (Array.replicate places (0 : KindSet)).getD n 0 = 0 := by
    rw [Array.getD_eq_getD_getElem?, Array.getElem?_replicate]
    split <;> rfl
  rw [zero] at there
  simp [KindSet.has] at there

end Bound

end Fragment.Source.Automaton

/-! What the automaton does in a state, read off the items of the state.
Lookaheads pass from an item to the one after it and to the beginnings that it opens. A state shifts every
token after a mark, and where no mark stands before a token it reduces a complete item that the token may
follow. -/
namespace Fragment.Source.Automaton

theorem kindRoom (k : TokenKind) : k.ctorIdx < 80 := by cases k <;> decide

theorem kindIdxInj {k l : TokenKind} (same : k.ctorIdx = l.ctorIdx) : k = l := by
  rw [← TokenKind.ofNat_ctorIdx k, same, TokenKind.ofNat_ctorIdx]

theorem hasBit {k l : TokenKind} : (KindSet.bit k).has l ↔ k = l := by
  have room := kindRoom k
  simp only [KindSet.has, KindSet.bit, BitVec.getLsbD_twoPow, room, decide_true, Bool.true_and, decide_eq_true_eq]
  exact ⟨kindIdxInj, congrArg _⟩

theorem memAllKinds (k : TokenKind) : k ∈ allKinds := by
  have room : k.ctorIdx < TokenKind.finish.ctorIdx + 1 := by cases k <;> decide
  exact List.mem_map.mpr ⟨k.ctorIdx, List.mem_range.mpr room, TokenKind.ofNat_ctorIdx k⟩

section Lookaheads

variable {t : Tables} {i j : Nat} {item : Item} {k : TokenKind}

def Looks (t : Tables) (i : Nat) (item : Item) (k : TokenKind) : Prop :=
  ((lookaheads t (itemTable t)).getD ((itemTable t).place i item) 0).has k

theorem stateOf (member : item ∈ (itemTable t).items i) : ∃ state, (itemTable t).states[i]? = some state ∧
    (itemTable t).items i = state.items ∧ ∀ s, (itemTable t).next? i s = state.next.lookup s := by
  obtain ⟨kernel, here⟩ := kernelAt member
  refine ⟨_, tableState here, tableItems here, fun s => ?_⟩
  simp [ItemTable.next?, tableState here]

theorem widthFits {state : ItemState} (here : (itemTable t).states[i]? = some state) :
    state.items.length ≤ (itemTable t).width := by
  refine List.le_max?_getD_of_mem (List.mem_map.mpr ⟨state, ?_, rfl⟩)
  exact Array.mem_toList_iff.mpr (Array.mem_of_getElem? here)

theorem placeInside (member : item ∈ (itemTable t).items i) :
    (itemTable t).place i item < (itemTable t).states.size * (itemTable t).width := by
  obtain ⟨state, here, items, _⟩ := stateOf member
  have below : i < (itemTable t).states.size := (Array.getElem?_eq_some_iff.mp here).1
  have column : state.items.idxOf item < state.items.length := List.idxOf_lt_length_iff.mpr (items ▸ member)
  have fits := widthFits here
  calc (itemTable t).place i item < i * (itemTable t).width + (itemTable t).width := by
        rw [ItemTable.place, items]
        omega
    _ = (i + 1) * (itemTable t).width := (Nat.succ_mul _ _).symm
    _ ≤ _ := Nat.mul_le_mul_right _ below

theorem placeInj {item' : Item} (member : item ∈ (itemTable t).items i) (member' : item' ∈ (itemTable t).items j)
    (same : (itemTable t).place i item = (itemTable t).place j item') : i = j ∧ item = item' := by
  have column {i : Nat} {item : Item} (member : item ∈ (itemTable t).items i) :
      ((itemTable t).items i).idxOf item < (itemTable t).width := by
    obtain ⟨state, here, items, _⟩ := stateOf member
    rw [items] at member ⊢
    exact (List.idxOf_lt_length_iff.mpr member).trans_le (widthFits here)
  have row : i = j := by
    have first : (itemTable t).place i item / (itemTable t).width = i := by
      rw [ItemTable.place, Nat.mul_comm, Nat.mul_add_div (by have := column member; omega), Nat.div_eq_of_lt (column member)]
      rfl
    have second : (itemTable t).place j item' / (itemTable t).width = j := by
      rw [ItemTable.place, Nat.mul_comm, Nat.mul_add_div (by have := column member; omega), Nat.div_eq_of_lt (column member')]
      rfl
    rw [← first, ← second, same]
  subst row
  refine ⟨rfl, ?_⟩
  have index : ((itemTable t).items i).idxOf item = ((itemTable t).items i).idxOf item' := by
    simpa [ItemTable.place] using same
  exact (List.idxOf_inj member).mp index

theorem flowsMember (member : item ∈ (itemTable t).items i) {state : ItemState}
    (here : (itemTable t).states[i]? = some state) {f : Flow} (is : f ∈ itemFlows t (itemTable t) i state.next item) :
    f ∈ flows t (itemTable t) := by
  obtain ⟨state', here', items, _⟩ := stateOf member
  cases here.symm.trans here'
  refine List.mem_flatMap.mpr ⟨(state, i), ?_, List.mem_flatMap.mpr ⟨item, items ▸ member, is⟩⟩
  exact List.mem_zipIdx_iff_getElem?.mpr (by simpa using here)

theorem afterMarkOf {p : Production} (there : t.productions[item.production]? = some p) :
    t.afterMark item = p.symbols.drop item.mark := by rw [Tables.afterMark, there]

theorem afterMarkCons {s : Symbol} (at_ : t.symbolAt item = some s) : ∃ rest, t.afterMark item = s :: rest := by
  unfold Tables.symbolAt at at_
  cases after : t.afterMark item with
  | nil => simp [after] at at_
  | cons s' rest =>
    rw [after] at at_
    cases at_
    exact ⟨rest, rfl⟩

-- A flow from an item is what the solution respects.
theorem flowLooks (member : item ∈ (itemTable t).items i) {state : ItemState}
    (here : (itemTable t).states[i]? = some state) {item' : Item} (member' : item' ∈ (itemTable t).items j)
    {origin : Origin} (is : ⟨origin, (itemTable t).place j item'⟩ ∈ itemFlows t (itemTable t) i state.next item)
    (comes : (origin.value (lookaheads t (itemTable t))).has k) : Looks t j item' k := by
  rw [lookaheads] at comes
  rw [Looks, lookaheads]
  exact solveReceives (flowsMember member here is) (placeInside member') comes

theorem moveLooks (first : 0 < t.productions.size) {s : Symbol} (member : item ∈ (itemTable t).items i)
    (at_ : t.symbolAt item = some s) (leads : (itemTable t).next? i s = some j) (looks : Looks t i item k) :
    Looks t j item.next k := by
  obtain ⟨state, here, _, next⟩ := stateOf member
  obtain ⟨rest, after⟩ := afterMarkCons at_
  have moved : item.next ∈ (itemTable t).items j := by
    rw [nextItems first leads]
    exact kernelInClosure (memAdvance.mpr ⟨item, member, at_, rfl⟩)
  have comes : ((Origin.place ((itemTable t).place i item)).value (lookaheads t (itemTable t))).has k := looks
  refine flowLooks member here moved ?_ comes
  rw [itemFlows, after]
  refine List.mem_append_left _ ?_
  simp [← next s, leads]

theorem openLooks {r : Rule} {rest : List Symbol} (member : item ∈ (itemTable t).items i)
    (after : t.afterMark item = .rule r :: rest) {q : Nat} (is : q ∈ t.ofRule r)
    (comes : ((follower t rest ((itemTable t).place i item)).value (lookaheads t (itemTable t))).has k) :
    Looks t i ⟨q, 0⟩ k := by
  obtain ⟨state, here, _, _⟩ := stateOf member
  have at_ : t.symbolAt item = some (.rule r) := by simp [Tables.symbolAt, after]
  refine flowLooks member here (stateOpens member at_ is) ?_ comes
  rw [itemFlows, after]
  exact List.mem_append_right _ (List.mem_map.mpr ⟨q, is, rfl⟩)

theorem openLooksLast {r : Rule} (member : item ∈ (itemTable t).items i) (after : t.afterMark item = [.rule r]) {q : Nat}
    (is : q ∈ t.ofRule r) (looks : Looks t i item k) : Looks t i ⟨q, 0⟩ k := by
  refine openLooks member after is ?_
  rw [follower, Origin.value]
  exact looks

theorem openLooksToken {r : Rule} {rest : List Symbol} (member : item ∈ (itemTable t).items i)
    (after : t.afterMark item = .rule r :: .token k :: rest) {q : Nat} (is : q ∈ t.ofRule r) : Looks t i ⟨q, 0⟩ k := by
  refine openLooks member after is ?_
  rw [follower, Origin.value, firstOf]
  exact hasBit.mpr rfl

-- A relation between rules and the tokens that may follow them, which the productions respect.
structure Follows (t : Tables) (follow : Rule → TokenKind → Prop) : Prop where
  last : ∀ (i : Nat) p, t.productions[i]? = some p → ∀ r, p.symbols.getLast? = some (.rule r) →
    ∀ k, follow p.rule k → follow r k
  inside : ∀ (i : Nat) p, t.productions[i]? = some p → ∀ m r s, p.symbols[m]? = some (.rule r) →
    p.symbols[m + 1]? = some s → ∀ k, (firstOf t.first s).has k → follow r k

theorem ruleOfQ {productions : Array Production} {r : Rule} {q : Nat} {p : Production}
    (is : q ∈ (tables productions).ofRule r) (there : (tables productions).productions[q]? = some p) : p.rule = r := by
  obtain ⟨p', there', rule⟩ := memOfRule.mp is
  cases there.symm.trans there'
  exact rule

theorem flowCases {f : Flow} (isIn : f ∈ flows t (itemTable t)) : ∃ i item, item ∈ (itemTable t).items i ∧
    ((∃ s n, t.symbolAt item = some s ∧ (itemTable t).next? i s = some n ∧
      f = ⟨.place ((itemTable t).place i item), (itemTable t).place n item.next⟩) ∨
    ∃ r rest, t.afterMark item = .rule r :: rest ∧ ∃ q ∈ t.ofRule r,
      f = ⟨follower t rest ((itemTable t).place i item), (itemTable t).place i ⟨q, 0⟩⟩) := by
  obtain ⟨⟨state, i⟩, isState, inState⟩ := List.mem_flatMap.mp isIn
  have here : (itemTable t).states[i]? = some state := by simpa using List.mem_zipIdx_iff_getElem?.mp isState
  obtain ⟨item, isItem, isFlow⟩ := List.mem_flatMap.mp inState
  have member : item ∈ (itemTable t).items i := by simpa [ItemTable.items, here] using isItem
  obtain ⟨_, here', _, next⟩ := stateOf member
  cases here.symm.trans here'
  refine ⟨i, item, member, ?_⟩
  rw [itemFlows] at isFlow
  split at isFlow
  · simp at isFlow
  next s rest after =>
  have at_ : t.symbolAt item = some s := by simp [Tables.symbolAt, after]
  rcases List.mem_append.mp isFlow with moved | opened
  · rw [← next s] at moved
    split at moved
    · next n leads => exact .inl ⟨s, n, at_, leads, List.mem_singleton.mp moved⟩
    · simp at moved
  · split at opened
    · next r =>
      obtain ⟨q, isQ, rfl⟩ := List.mem_map.mp opened
      exact .inr ⟨r, rest, after, q, isQ, rfl⟩
    · simp at opened

theorem looksFollow {productions : Array Production} {follow : Rule → TokenKind → Prop}
    (first : 0 < productions.size) (follows : Follows (tables productions) follow) {p : Production}
    (member : item ∈ (itemTable (tables productions)).items i) (there : productions[item.production]? = some p)
    (looks : Looks (tables productions) i item k) : follow p.rule k := by
  let t := tables productions
  -- The bound for a place is what may follow the rule of the item in it.
  have within : Within (fun n k => ∀ i item p, item ∈ (itemTable t).items i → (itemTable t).place i item = n →
      productions[item.production]? = some p → follow p.rule k) (lookaheads t (itemTable t)) := by
    refine solveWithin fun f isIn => ?_
    obtain ⟨i, item, member, ⟨s, n, at_, leads, rfl⟩ | ⟨r, rest, after, q, isQ, rfl⟩⟩ := flowCases isIn
    · have moved : item.next ∈ (itemTable t).items n := by
        rw [nextItems first leads]
        exact kernelInClosure (memAdvance.mpr ⟨item, member, at_, rfl⟩)
      intro k bound i' item' p' member' same there'
      obtain ⟨rfl, rfl⟩ := placeInj member' moved same
      exact bound i item p' member rfl there'
    · have at_ : t.symbolAt item = some (.rule r) := by simp [Tables.symbolAt, t, after]
      obtain ⟨p, there, symbol⟩ := symbolAtSome at_
      rw [afterMarkOf there] at after
      have begins : ⟨q, 0⟩ ∈ (itemTable t).items i := stateOpens member at_ isQ
      have lands {k : TokenKind} (holds : follow r k) (i' : Nat) (item' : Item) (p' : Production)
          (member' : item' ∈ (itemTable t).items i') (same : (itemTable t).place i' item' = (itemTable t).place i ⟨q, 0⟩)
          (there' : productions[item'.production]? = some p') : follow p'.rule k := by
        obtain ⟨rfl, rfl⟩ := placeInj member' begins same
        rwa [ruleOfQ isQ there']
      cases rest with
      | nil =>
        have last : p.symbols.getLast? = some (.rule r) := by
          rw [← List.take_append_drop item.mark p.symbols, after]
          simp
        exact fun k bound => lands (follows.last _ p there r last k (bound i item p member rfl there))
      | cons s rest =>
        have later : p.symbols[item.mark + 1]? = some s := by
          have second := congrArg (·[1]?) after
          simpa [List.getElem?_drop] using second
        exact fun k has => lands (follows.inside _ p there item.mark r s symbol later k has)
  exact within _ k looks i item p member rfl there

end Lookaheads

section Actions

variable {productions : Array Production} {i j : Nat} {k : TokenKind} {item : Item}

-- Looking up in the part of a list that has keys of one sort.
theorem lookupFilterMap {α β γ δ : Type} [BEq α] [LawfulBEq α] [BEq γ] [LawfulBEq γ] {f : α × β → Option (γ × δ)} {g : β → δ}
    {key : γ → α} (keyInj : Function.Injective key) (takes : ∀ c b, f (key c, b) = some (c, g b))
    (only : ∀ a b c d, f (a, b) = some (c, d) → a = key c) (l : List (α × β)) (c : γ) :
    (l.filterMap f).lookup c = (l.lookup (key c)).map g := by
  induction l with
  | nil => rfl
  | cons x rest ih =>
    obtain ⟨a, b⟩ := x
    rw [List.filterMap_cons, List.lookup_cons]
    cases image : f (a, b) with
    | none =>
      have other : (key c == a) = false := beq_false_of_ne fun same => by
        rw [← same, takes] at image
        cases image
      rw [other, ih]
    | some y =>
      obtain ⟨c', d⟩ := y
      have is := only a b c' d image
      subst is
      rw [takes] at image
      cases image
      by_cases same : c = c'
      · simp [same]
      · simp [List.lookup_cons, beq_false_of_ne same, beq_false_of_ne (keyInj.ne same), ih]

theorem lookupShift (next : List (Symbol × Nat)) (k : TokenKind) :
    (next.filterMap shiftOf).lookup k = (next.lookup (.token k)).map .shift := by
  refine lookupFilterMap (fun _ _ => Symbol.token.inj) (fun _ _ => rfl) ?_ next k
  rintro (k | r) n c d image <;> cases image
  rfl

theorem lookupGoto (next : List (Symbol × Nat)) (r : Rule) :
    (next.filterMap gotoOf).lookup r = next.lookup (.rule r) := by
  have same : (next.filterMap gotoOf).lookup r = (next.lookup (.rule r)).map id := by
    refine lookupFilterMap (fun _ _ => Symbol.rule.inj) (fun _ _ => rfl) ?_ next r
    rintro (k | r) n c d image <;> cases image
    rfl
  simpa using same

theorem gotoNext (r : Rule) :
    (ofProductions productions).goto? i r = (itemTable (tables productions)).next? i (.rule r) := by
  cases here : (itemTable (tables productions)).states[i]? with
  | none => simp [goto?, ofProductions, ItemTable.next?, here]
  | some state => simp [goto?, ofProductions, ItemTable.next?, here, lookupGoto]

theorem lookupFilterKey {α β : Type} [BEq α] [LawfulBEq α] (keep : α → Bool) (l : List (α × β)) (a : α) :
    (l.filter fun x => keep x.1).lookup a = if keep a then l.lookup a else none := by
  induction l with
  | nil => simp
  | cons x rest ih =>
    obtain ⟨b, v⟩ := x
    by_cases same : a = b
    · subst same
      by_cases kept : keep a <;> simp [kept, ih]
    · by_cases kept : keep b <;> simp [kept, List.lookup_cons, beq_false_of_ne same, ih]

def reductions (t : Tables) (i : Nat) : List (TokenKind × Action) :=
  (((itemTable t).items i).filter fun item => (t.afterMark item).isEmpty).flatMap fun item =>
    (allKinds.filter ((lookaheads t (itemTable t)).getD ((itemTable t).place i item) 0).has).map
      fun k => (k, Action.reduce item.production)

theorem actionNext : (ofProductions productions).action? i k =
    match (itemTable (tables productions)).next? i (.token k) with
    | some n => some (.shift n)
    | none => (reductions (tables productions) i).lookup k := by
  cases here : (itemTable (tables productions)).states[i]? with
  | none => simp [action?, ofProductions, ItemTable.next?, here, reductions, ItemTable.items]
  | some state =>
    have found : (ofProductions productions).action? i k = (stateActions (tables productions)
        (itemTable (tables productions)) (lookaheads (tables productions) (itemTable (tables productions))) i state).lookup k := by
      simp [action?, ofProductions, here]
    have items : (itemTable (tables productions)).items i = state.items := by simp [ItemTable.items, here]
    rw [found, stateActions, List.lookup_append, lookupShift, ItemTable.next?, here, Option.bind_some]
    cases next : state.next.lookup (.token k) with
    | some n => rfl
    | none =>
      have free : (state.next.filterMap shiftOf).any (·.1 = k) = false := by
        have shifts := lookupShift state.next k
        rw [next, Option.map_none, List.lookup_eq_none_iff] at shifts
        refine List.any_eq_false.mpr fun x member => ?_
        have other : k ≠ x.1 := by simpa using shifts x member
        simp [other.symm]
      rw [Option.map_none, Option.none_or, lookupFilterKey fun k => !(state.next.filterMap shiftOf).any (·.1 = k)]
      simp [free, reductions, items]

theorem shiftAction (leads : (itemTable (tables productions)).next? i (.token k) = some j) :
    (ofProductions productions).action? i k = some (.shift j) := by rw [actionNext, leads]

theorem memReductions {t : Tables} {action : Action} : (k, action) ∈ reductions t i ↔
    ∃ item ∈ (itemTable t).items i, t.symbolAt item = none ∧ Looks t i item k ∧ action = .reduce item.production := by
  simp only [reductions, List.mem_flatMap, List.mem_filter, List.mem_map, Tables.symbolAt, List.isEmpty_iff,
    List.head?_eq_none_iff, Prod.mk.injEq]
  constructor
  · rintro ⟨item, ⟨member, ended⟩, k, ⟨_, looks⟩, rfl, rfl⟩
    exact ⟨item, member, ended, looks, rfl⟩
  · rintro ⟨item, member, ended, looks, rfl⟩
    exact ⟨item, ⟨member, ended⟩, k, ⟨memAllKinds k, looks⟩, rfl, rfl⟩

end Actions

-- From here on an item is a production and a place in it, whatever the number of the production.
section Contents

variable {productions : Array Production}

def Has (productions : Array Production) (i : Nat) (p : Production) (m : Nat) : Prop :=
  ∃ q, productions[q]? = some p ∧ ⟨q, m⟩ ∈ (itemTable (tables productions)).items i

def Awaits (productions : Array Production) (i : Nat) (p : Production) (m : Nat) (k : TokenKind) : Prop :=
  ∃ q, productions[q]? = some p ∧ ⟨q, m⟩ ∈ (itemTable (tables productions)).items i ∧
    Looks (tables productions) i ⟨q, m⟩ k

def next? (productions : Array Production) (i : Nat) (s : Symbol) : Option Nat :=
  (itemTable (tables productions)).next? i s

variable {i j m q : Nat} {p p' : Production} {s : Symbol} {k : TokenKind}

theorem Awaits.has (awaits : Awaits productions i p m k) : Has productions i p m :=
  let ⟨q, there, member, _⟩ := awaits
  ⟨q, there, member⟩

theorem symbolAtOf (there : productions[q]? = some p) : (tables productions).symbolAt ⟨q, m⟩ = p.symbols[m]? := by
  rw [Tables.symbolAt, afterMarkOf there, List.head?_drop]

theorem Has.leads (has : Has productions i p m) (at_ : p.symbols[m]? = some s) : ∃ j, next? productions i s = some j := by
  obtain ⟨q, there, member⟩ := has
  exact nextSome member ((symbolAtOf there).trans at_)

theorem itemMoves (first : 0 < productions.size) (there : productions[q]? = some p)
    (member : ⟨q, m⟩ ∈ (itemTable (tables productions)).items i) (at_ : p.symbols[m]? = some s)
    (leads : next? productions i s = some j) : ⟨q, m + 1⟩ ∈ (itemTable (tables productions)).items j := by
  rw [nextItems first leads]
  exact kernelInClosure (memAdvance.mpr ⟨⟨q, m⟩, member, (symbolAtOf there).trans at_, rfl⟩)

theorem Has.moves (first : 0 < productions.size) (has : Has productions i p m) (at_ : p.symbols[m]? = some s)
    (leads : next? productions i s = some j) : Has productions j p (m + 1) :=
  let ⟨q, there, member⟩ := has
  ⟨q, there, itemMoves first there member at_ leads⟩

theorem Awaits.moves (first : 0 < productions.size) (awaits : Awaits productions i p m k) (at_ : p.symbols[m]? = some s)
    (leads : next? productions i s = some j) : Awaits productions j p (m + 1) k := by
  obtain ⟨q, there, member, looks⟩ := awaits
  have looksNext : Looks (tables productions) j (Item.next ⟨q, m⟩) k :=
    moveLooks first member ((symbolAtOf there).trans at_) leads looks
  exact ⟨q, there, itemMoves first there member at_ leads, looksNext⟩

theorem Has.opens (has : Has productions i p m) (is : p' ∈ productions) {rest : List Symbol}
    (after : p.symbols.drop m = .rule p'.rule :: .token k :: rest) : Awaits productions i p' 0 k := by
  obtain ⟨q, there, member⟩ := has
  obtain ⟨q', there'⟩ := Array.mem_iff_getElem?.mp is
  have ofRule : q' ∈ (tables productions).ofRule p'.rule := memOfRule.mpr ⟨p', there', rfl⟩
  have marked : (tables productions).afterMark ⟨q, m⟩ = .rule p'.rule :: .token k :: rest := (afterMarkOf there).trans after
  exact ⟨q', there', stateOpens member (by simp [Tables.symbolAt, marked]) ofRule, openLooksToken member marked ofRule⟩

theorem Has.begins (has : Has productions i p m) (is : p' ∈ productions) (at_ : p.symbols[m]? = some (.rule p'.rule)) :
    Has productions i p' 0 := by
  obtain ⟨q, there, member⟩ := has
  obtain ⟨q', there'⟩ := Array.mem_iff_getElem?.mp is
  exact ⟨q', there', stateOpens member ((symbolAtOf there).trans at_) (memOfRule.mpr ⟨p', there', rfl⟩)⟩

theorem Awaits.opens (awaits : Awaits productions i p m k) (is : p' ∈ productions)
    (after : p.symbols.drop m = [.rule p'.rule]) : Awaits productions i p' 0 k := by
  obtain ⟨q, there, member, looks⟩ := awaits
  obtain ⟨q', there'⟩ := Array.mem_iff_getElem?.mp is
  have ofRule : q' ∈ (tables productions).ofRule p'.rule := memOfRule.mpr ⟨p', there', rfl⟩
  have marked : (tables productions).afterMark ⟨q, m⟩ = [.rule p'.rule] := (afterMarkOf there).trans after
  exact ⟨q', there', stateOpens member (by simp [Tables.symbolAt, marked]) ofRule, openLooksLast member marked ofRule looks⟩

-- All that is in a state after a symbol has moved past it, or begins a rule that comes next.
theorem hasInduction {C : Production → Nat → Prop} (first : 0 < productions.size) (leads : next? productions i s = some j)
    (moved : ∀ p m, Has productions i p m → p.symbols[m]? = some s → C p (m + 1))
    (opened : ∀ p m p', C p m → p' ∈ productions → p.symbols[m]? = some (.rule p'.rule) → C p' 0)
    (has : Has productions j p m) : C p m := by
  obtain ⟨q, there, member⟩ := has
  rw [nextItems first leads] at member
  suffices all : ∀ item ∈ closure (tables productions) (advance (tables productions)
      ((itemTable (tables productions)).items i) s), ∀ p, productions[item.production]? = some p → C p item.mark from
    all ⟨q, m⟩ member p there
  refine closureInduction (fun item isItem p there => ?_) fun item r holds wants q' is p' there' => ?_
  · obtain ⟨before, isBefore, at_, rfl⟩ := memAdvance.mp isItem
    exact moved p before.mark ⟨before.production, there, isBefore⟩ ((symbolAtOf there).symm.trans at_)
  · obtain ⟨p, there, at_⟩ := symbolAtSome wants
    have rule : p'.rule = r := ruleOfQ is there'
    exact opened p item.mark p' (holds p there) (Array.mem_of_getElem? there') (rule ▸ at_)

theorem startInduction {C : Production → Nat → Prop} (first : 0 < productions.size)
    (start : ∀ p, productions[0]? = some p → C p 0)
    (opened : ∀ p m p', C p m → p' ∈ productions → p.symbols[m]? = some (.rule p'.rule) → C p' 0)
    (has : Has productions 0 p m) : C p m := by
  obtain ⟨q, there, member⟩ := has
  rw [startItems first] at member
  suffices all : ∀ item ∈ closure (tables productions) [⟨0, 0⟩], ∀ p, productions[item.production]? = some p →
      C p item.mark from all ⟨q, m⟩ member p there
  refine closureInduction (fun item isItem p there => ?_) fun item r holds wants q' is p' there' => ?_
  · cases List.mem_singleton.mp isItem
    exact start p there
  · obtain ⟨p, there, at_⟩ := symbolAtSome wants
    have rule : p'.rule = r := ruleOfQ is there'
    exact opened p item.mark p' (holds p there) (Array.mem_of_getElem? there') (rule ▸ at_)

theorem nextNone (free : ∀ p m, Has productions i p m → p.symbols[m]? ≠ some s) : next? productions i s = none := by
  cases leads : next? productions i s with
  | none => rfl
  | some j =>
    obtain ⟨⟨q, m⟩, member, at_⟩ := nextBefore leads
    obtain ⟨p, there, symbol⟩ := symbolAtSome at_
    exact absurd symbol (free p m ⟨q, there, member⟩)

theorem itemReal (first : 0 < productions.size) (member : ⟨q, m⟩ ∈ (itemTable (tables productions)).items i) :
    ∃ p, productions[q]? = some p := by
  obtain ⟨kernel, here⟩ := kernelAt member
  rw [tableItems here] at member
  have real := (kernelsExplored (t := tables productions) first 0).kernels kernel (Array.mem_of_getElem? here)
  refine closureInduction (P := fun item => ∃ p, productions[item.production]? = some p) (fun item isItem => ?_)
    (fun _ _ _ _ q' is => ?_) ⟨q, m⟩ member
  · obtain ⟨p, there, _⟩ := memAllItems.mp (real.2 isItem)
    exact ⟨p, there⟩
  · obtain ⟨p, there, _⟩ := memOfRule.mp is
    exact ⟨p, there⟩

theorem Awaits.reduces (first : 0 < productions.size) (awaits : Awaits productions i p p.symbols.length k)
    (blocked : next? productions i (.token k) = none)
    (alone : ∀ p' m, Awaits productions i p' m k → p'.symbols[m]? = none → p' = p) :
    ∃ q, productions[q]? = some p ∧ (ofProductions productions).action? i k = some (.reduce q) := by
  obtain ⟨q, there, member, looks⟩ := awaits
  rw [actionNext, show (itemTable (tables productions)).next? i (.token k) = none from blocked]
  cases found : (reductions (tables productions) i).lookup k with
  | none =>
    have ended : (tables productions).symbolAt ⟨q, p.symbols.length⟩ = none := by simp [symbolAtOf there]
    have none_ := List.lookup_eq_none_iff.mp found _ (memReductions.mpr ⟨_, member, ended, looks, rfl⟩)
    simp at none_
  | some action =>
    obtain ⟨l, l', split, _⟩ := List.lookup_eq_some_iff.mp found
    have isIn : (k, action) ∈ reductions (tables productions) i := by simp [split]
    obtain ⟨⟨q', m'⟩, is, ended, sees, rfl⟩ := memReductions.mp isIn
    obtain ⟨p', there'⟩ := itemReal first is
    rw [symbolAtOf there'] at ended
    cases alone p' m' ⟨q', there', is, sees⟩ ended
    exact ⟨q', there', rfl⟩

end Contents

end Fragment.Source.Automaton
