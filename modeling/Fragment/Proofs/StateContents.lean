import Fragment.Proofs.Precedence
import Mathlib.Data.List.NodupEquivFin

/-! What stands in the states of the automaton.
All that stands in a state are some marked productions and the beginnings of the rules that come next in them. What a
symbol leads to can be computed from this, and so can what a state does if only one production has come to its end. -/
namespace Fragment.Source.Grammar

open Automaton hiding productions

/-- What may stand in a state: marked productions, and the beginnings of rules. -/
structure Contents where
  marked : List (Production × Nat)
  rules : List Rule := []

namespace Contents

/-- Nothing else stands in the state. -/
def Bounds (c : Contents) (i : Nat) : Prop :=
  ∀ p m, Has productions i p m → (p, m) ∈ c.marked ∨ m = 0 ∧ p.rule ∈ c.rules

/-- The rules that come next are among the rules. -/
def Closed (c : Contents) : Prop :=
  (∀ x ∈ c.marked, ∀ r ∈ x.1.symbols[x.2]?.bind Symbol.rule?, r ∈ c.rules) ∧
    ∀ p ∈ productions.toList, p.rule ∈ c.rules → ∀ r ∈ p.symbols[0]?.bind Symbol.rule?, r ∈ c.rules

instance (c : Contents) : Decidable c.Closed := inferInstanceAs (Decidable (_ ∧ _))

/-- What a symbol moves past. -/
def past (c : Contents) (s : Symbol) : List (Production × Nat) :=
  (c.marked.filter fun x => x.1.symbols[x.2]? = some s).map (fun x => (x.1, x.2 + 1)) ++
    (productions.toList.filter fun p => p.rule ∈ c.rules ∧ p.symbols[0]? = some s).map (·, 1)

/-- Nothing goes on with a token, and the rules have no empty beginnings. -/
def Free (c : Contents) (k : TokenKind) : Prop :=
  (∀ x ∈ c.marked, x.1.symbols[x.2]? ≠ some (.token k)) ∧
    ∀ p ∈ productions.toList, p.rule ∈ c.rules → p.symbols[0]? ≠ some (.token k) ∧ p.symbols[0]? ≠ none

instance (c : Contents) (k : TokenKind) : Decidable (c.Free k) := inferInstanceAs (Decidable (_ ∧ _))

end Contents

variable {c d : Contents} {i j m : Nat} {p : Production} {s : Symbol} {k : TokenKind}

theorem Contents.Bounds.moves (bounds : c.Bounds i) (has : Has productions i p m) (at_ : p.symbols[m]? = some s) :
    (p, m + 1) ∈ c.past s := by
  refine List.mem_append.mpr ?_
  rcases bounds p m has with marked | ⟨rfl, begins⟩
  · exact .inl (List.mem_map.mpr ⟨(p, m), List.mem_filter.mpr ⟨marked, decide_eq_true at_⟩, rfl⟩)
  · have is := Array.mem_toList_iff.mpr has.isProduction
    exact .inr (List.mem_map.mpr ⟨p, List.mem_filter.mpr ⟨is, decide_eq_true ⟨begins, at_⟩⟩, rfl⟩)

/-- What a symbol leads to: what moves past it, and the rules that come next there. -/
theorem boundsAfter (leads : next? productions i s = some j)
    (moved : ∀ p m, Has productions i p m → p.symbols[m]? = some s → (p, m + 1) ∈ d.marked) (closed : d.Closed) :
    d.Bounds j := by
  intro p m has
  let C (p : Production) (m : Nat) : Prop := ((p, m) ∈ d.marked ∨ m = 0 ∧ p.rule ∈ d.rules) ∧ p ∈ productions
  have all : C p m := by
    refine hasInduction someProductions leads (fun p m has at_ => ?_) (fun p m p' holds is at_ => ?_) has
    · exact ⟨.inl (moved p m has at_), has.isProduction⟩
    · refine ⟨.inr ⟨rfl, ?_⟩, is⟩
      have next : p'.rule ∈ p.symbols[m]?.bind Symbol.rule? := by simp [at_, Symbol.rule?]
      rcases holds with ⟨marked | ⟨rfl, begins⟩, is'⟩
      · exact closed.1 _ marked _ next
      · exact closed.2 p (Array.mem_toList_iff.mpr is') begins _ next
  exact all.1

theorem Contents.Bounds.after (bounds : c.Bounds i) (leads : next? productions i s = some j)
    (past : ∀ x ∈ c.past s, x ∈ d.marked) (closed : d.Closed) : d.Bounds j :=
  boundsAfter leads (fun _ _ has at_ => past _ (bounds.moves has at_)) closed

theorem Contents.Bounds.blocks (bounds : c.Bounds i) (free : c.Free k) : next? productions i (.token k) = none := by
  refine nextNone fun p m has at_ => ?_
  rcases bounds p m has with marked | ⟨rfl, begins⟩
  · exact free.1 _ marked at_
  · exact (free.2 p (Array.mem_toList_iff.mpr has.isProduction) begins).1 at_

/-- The production that has come to its end is reduced if nothing goes on with the next token and it cannot follow any
other production that has. -/
theorem Contents.Bounds.reduces (bounds : c.Bounds i) (awaits : Awaits productions i p p.symbols.length k)
    (free : c.Free k)
    (others : ∀ x ∈ c.marked, x.1.symbols[x.2]? = none → x.1 = p ∨ ∀ i m, ¬ Awaits productions i x.1 m k) :
    Reduces productions i p k := by
  refine awaits.reduces someProductions (bounds.blocks free) fun p' m' awaits' ended => ?_
  rcases bounds p' m' awaits'.has with marked | ⟨rfl, begins⟩
  · exact (others _ marked ended).resolve_right fun never => never _ _ awaits'
  · exact absurd ended (free.2 p' (Array.mem_toList_iff.mpr awaits'.has.isProduction) begins).2

/-- A state has nothing to do with a token if nothing in it goes on with the token or has come to its end. -/
theorem Contents.Bounds.refuses (bounds : c.Bounds i) (free : c.Free k)
    (unended : ∀ x ∈ c.marked, x.1.symbols[x.2]? ≠ none) : fragment.action? i k = none := by
  rw [fragment, actionNext, show (itemTable (tables productions)).next? i (.token k) = none from bounds.blocks free]
  refine List.lookup_eq_none_iff.mpr fun x is => ?_
  by_contra same
  obtain rfl : k = x.1 := by simpa using same
  obtain ⟨⟨q, m⟩, member, ended, -, -⟩ := memReductions.mp is
  obtain ⟨p, there⟩ := itemReal someProductions member
  rw [symbolAtOf there] at ended
  rcases bounds p m ⟨q, there, member⟩ with marked | ⟨rfl, begins⟩
  · exact unended _ marked ended
  · exact (free.2 p (Array.mem_toList_iff.mpr (Array.mem_of_getElem? there)) begins).2 ended

theorem nextIndex (leads : next? productions i s = some j) :
    j = (kernels (tables productions)).idxOf (advance (tables productions) ((itemTable (tables productions)).items i) s) := by
  obtain ⟨item, member, at_⟩ := nextBefore leads
  obtain ⟨kernel, here⟩ := kernelAt member
  rw [tableItems here] at member ⊢
  rw [next?, tableNext here, if_pos ⟨item, member, at_⟩] at leads
  exact (Option.some.inj leads).symm

theorem indexAlone {q : Production} {n n' : Nat} (once : productions.toList.count q < 2) (there : productions[n]? = some q)
    (there' : productions[n']? = some q) : n = n' := by
  by_contra apart
  rw [← Array.getElem?_toList] at there there'
  obtain ⟨inside, at_⟩ := List.getElem?_eq_some_iff.mp there
  obtain ⟨inside', at_'⟩ := List.getElem?_eq_some_iff.mp there'
  have twice : productions.toList.Duplicate q := List.duplicate_iff_exists_distinct_get.mpr (by
    rcases Nat.lt_or_gt_of_ne apart with before | behind
    · exact ⟨⟨n, inside⟩, ⟨n', inside'⟩, before, at_.symm, at_'.symm⟩
    · exact ⟨⟨n', inside'⟩, ⟨n, inside⟩, behind, at_'.symm, at_.symm⟩)
  have more := List.duplicate_iff_two_le_count.mp twice
  omega

/-- What moves past a symbol if it is just one production. -/
theorem Contents.Bounds.advances {q : Production} {n : Nat} (bounds : c.Bounds i) (once : productions.toList.count q < 2)
    (there : productions[n]? = some q)
    (leads : next? productions i s = some j) (only : ∀ x ∈ c.past s, x = (q, m)) :
    advance (tables productions) ((itemTable (tables productions)).items i) s = [⟨n, m⟩] := by
  obtain ⟨item, member, at_⟩ := nextBefore leads
  obtain ⟨kernel, here⟩ := kernelAt member
  have each : ∀ moved ∈ advance (tables productions) ((itemTable (tables productions)).items i) s, moved = ⟨n, m⟩ := by
    intro moved isMoved
    obtain ⟨before, isBefore, at_, rfl⟩ := memAdvance.mp isMoved
    obtain ⟨p, there', symbol⟩ := symbolAtSome at_
    obtain ⟨rfl, rfl⟩ := Prod.mk.inj (only _ (bounds.moves ⟨before.production, there', isBefore⟩ symbol))
    have same : before.production = n := indexAlone once there' there
    rw [← same]
    rfl
  have distinct : (advance (tables productions) ((itemTable (tables productions)).items i) s).Nodup := by
    rw [tableItems here]
    exact (advanceKernel kernel s).1
  have some : item.next ∈ advance (tables productions) ((itemTable (tables productions)).items i) s :=
    memAdvance.mpr ⟨item, member, at_, rfl⟩
  rw [List.eq_replicate_of_mem each] at distinct ⊢
  have few := List.nodup_replicate.mp distinct
  have filled := List.length_pos_of_mem some
  rw [show (advance (tables productions) ((itemTable (tables productions)).items i) s).length = 1 by omega]
  rfl

/-- A symbol leads from two states to the same one if it moves past just one production, the same in both. -/
theorem sameState {i' j' : Nat} {q : Production} (bounds : c.Bounds i) (bounds' : d.Bounds i')
    (leads : next? productions i s = some j) (leads' : next? productions i' s = some j')
    (only : ∀ x ∈ c.past s, x = (q, m)) (only' : ∀ x ∈ d.past s, x = (q, m)) (is : q ∈ productions)
    (once : productions.toList.count q < 2) : j = j' := by
  obtain ⟨n, there⟩ := Array.mem_iff_getElem?.mp is
  rw [nextIndex leads, nextIndex leads', bounds.advances once there leads only,
    bounds'.advances once there leads' only']

/-! What may follow an expression -/

section Beginnings

variable {P : Array Production} {first : Array KindSet}

/-- Every kind in the sets of rules begins some production. -/
def Begun (P : Array Production) (first : Array KindSet) : Prop :=
  ∀ r k, (firstOf first (.rule r)).has k → ∃ p ∈ P.toList, p.symbols[0]? = some (.token k)

theorem growBegun (begun : Begun P first) : Begun P (growFirst P first) := by
  rw [growFirst, ← Array.foldl_toList]
  refine List.foldlRecOn (motive := Begun P) _ _ begun fun first begun p is => ?_
  split
  · exact begun
  · next s rest symbols =>
    intro r k has
    have grown := getApply first ⟨.kinds (firstOf first s), p.rule.ctorIdx⟩ r.ctorIdx
    rw [Flow.apply, Origin.value] at grown
    rw [firstOf, grown] at has
    split at has
    · rw [hasOr, Bool.or_eq_true] at has
      rcases has with before | added
      · exact begun r k before
      · cases s with
        | token k' =>
          cases hasBit.mp added
          exact ⟨p, is, by rw [symbols]; rfl⟩
        | rule r' => exact begun r' k added
    · exact begun r k has

theorem firstBegun (P : Array Production) : Begun P (tables P).first := by
  have none : Begun P (Array.replicate ruleCount 0) := fun r k has => by
    simp [firstOf, Array.getD_eq_getD_getElem?, Array.getElem?_replicate, KindSet.has] at has
    split at has <;> simp at has
  have all (n : Nat) : Begun P (Nat.repeat (growFirst P) n (Array.replicate ruleCount 0)) := by
    induction n with
    | zero => exact none
    | succ n ih => exact growBegun ih
  exact all ruleCount

/-- The rules that an arrow may follow. -/
def pointed : List Rule :=
  [.arrowParams, .returnAnn, .type, .fnType, .unionType, .intersectionType, .postfixType, .primaryType, .typeRef,
    .typeArgs, .objectTypeBody]

set_option maxRecDepth 2048 in
theorem arrowBeginsNothing : ∀ p ∈ productions.toList, p.symbols[0]? ≠ some (Symbol.token .arrow) := by decide

set_option maxRecDepth 2048 in
theorem pointedLast : ∀ p ∈ productions.toList, p.rule ∈ pointed → ∀ r ∈ p.symbols.getLast?.bind Symbol.rule?, r ∈ pointed := by
  decide

set_option maxRecDepth 2048 in
theorem pointedInside : ∀ p ∈ productions.toList, ∀ m < p.symbols.length, p.symbols[m + 1]? = some (.token .arrow) →
    ∀ r ∈ p.symbols[m]?.bind Symbol.rule?, r ∈ pointed := by decide

/-- An arrow follows nothing else. -/
theorem arrowFollows {i m : Nat} {p : Production} (awaits : Awaits productions i p m .arrow) : p.rule ∈ pointed := by
  obtain ⟨q, there, member, looks⟩ := awaits
  have follows : Follows (tables productions) fun r k => k = .arrow → r ∈ pointed := by
    constructor
    · rintro i p there r last k before rfl
      exact pointedLast p (Array.mem_toList_iff.mpr (Array.mem_of_getElem? there)) (before rfl) r (by simp [last, Symbol.rule?])
    · rintro i p there m r s at_ next k has rfl
      have is := Array.mem_toList_iff.mpr (Array.mem_of_getElem? there)
      cases s with
      | token k =>
        cases hasBit.mp has
        exact pointedInside p is m (List.getElem?_eq_some_iff.mp at_).1 next r (by simp [at_, Symbol.rule?])
      | rule r' =>
        obtain ⟨p', is', begins⟩ := firstBegun productions r' .arrow has
        exact absurd begins (arrowBeginsNothing p' is')
  exact looksFollow someProductions follows member there looks rfl

end Beginnings

end Fragment.Source.Grammar
