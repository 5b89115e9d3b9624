import Fragment.Proofs.RelationCache
import Fragment.Proofs.Interning
import Fragment.Typing.Statement

/-! The result type of a function without annotation.
It unites what the returned expressions come to, but for object types that are assignable to another one. They are left
out one after the other, and a type for which another was left out may be left out later. So each of them is linked to
one that stays by a chain of types, each assignable to the next. Where assignability is transitive among them that is
enough; optional properties make it fail to be. -/
namespace Fragment.Typing

open Fragment.Source (Stmt Block)
open Check

/-- What the returned expressions of a block come to, and undefined if it can be left without one. -/
def Queries.returnTypes (q : Queries) (statements : List Stmt) (expected : Option TypeId) : Check (List TypeId) := do
  let returns := returnsOfAll statements
  let types ← (returns.filterMap id).mapM (q.typeOfExpr · expected)
  let types := if returns.any (·.isNone) || endReachable statements then types ++ [undefinedType] else types
  types.mapM fun t => do widenFor (← regular t) expected

/-- The types of a block that returns a value are united after some have been left out. -/
theorem blockResultUnites (q : Queries) {statements : List Stmt} (expected : Option TypeId) {e : Source.Expr}
    (returns : some e ∈ returnsOfAll statements) :
    q.blockResult statements expected = (do union (← q.reduceSubtypes [] (← q.returnTypes statements expected))) := by
  obtain ⟨v, vs, values⟩ : ∃ v vs, (returnsOfAll statements).filterMap id = v :: vs := by
    cases found : (returnsOfAll statements).filterMap id with
    | nil =>
      have member : e ∈ (returnsOfAll statements).filterMap id := List.mem_filterMap.mpr ⟨some e, returns, rfl⟩
      rw [found] at member
      cases member
    | cons v vs => exact ⟨v, vs, rfl⟩
  simp only [Queries.blockResult, Queries.returnTypes, values, List.mapM_cons, bind_assoc, pure_bind, List.isEmpty_cons,
    Bool.false_eq_true, if_false]

/-- A type stays, or is linked to one that does by a chain of some types, each assignable to the next. -/
def State.Linked (st : State) (all kept : List TypeId) (t : TypeId) : Prop :=
  ∃ k ∈ kept, Relation.ReflTransGen (fun a b => a ∈ all ∧ b ∈ all ∧ st.Accepts a b) t k

section Lists

variable {st : State} {inv : KeptAnswers → Prop} {enough : Prop} {opened : List RelationKey} {α : Type}
  {P : α → Prop} {ask : α → Check Bool} {xs : List α}

theorem withinSome (each : ∀ x ∈ xs, Within st inv enough opened (ask x) fun yes => yes = true → P x) :
    Within st inv enough opened (anyHolds ask xs) fun yes => yes = true → ∃ x ∈ xs, P x := by
  induction xs with
  | nil => exact Within.pure nofun
  | cons x xs ih =>
    rw [List.forall_mem_cons] at each
    refine each.1.bind fun b yes => ?_
    cases b with
    | true => exact Within.pure fun _ => ⟨x, List.mem_cons_self .., yes rfl⟩
    | false =>
      refine (ih each.2).weaken id fun b rest yes => ?_
      obtain ⟨y, member, holds⟩ := rest yes
      exact ⟨y, List.mem_cons_of_mem x member, holds⟩

theorem withinFilter (each : ∀ x ∈ xs, Within st inv enough opened (ask x) fun yes => yes = false → P x) :
    Within st inv enough opened (xs.filterM ask) fun ys => (∀ y ∈ ys, y ∈ xs) ∧ ∀ x ∈ xs, x ∈ ys ∨ P x := by
  have loop (done : List α) : Within st inv enough opened (List.filterAuxM ask xs done)
      fun ys => (∀ y ∈ ys, y ∈ done ∨ y ∈ xs) ∧ (∀ x ∈ done, x ∈ ys) ∧ ∀ x ∈ xs, x ∈ ys ∨ P x := by
    induction xs generalizing done with
    | nil => exact Within.pure ⟨fun _ => .inl, fun _ => id, nofun⟩
    | cons x xs ih =>
      rw [List.forall_mem_cons] at each
      refine each.1.bind fun b no => (ih each.2 _).weaken id fun ys ⟨from', kept, rest⟩ => ?_
      refine ⟨fun y member => ?_, fun y member => kept y (by cases b <;> simp [member]), fun y member => ?_⟩
      · rcases from' y member with old | new
        · cases b with
          | false => exact .inl old
          | true => 
            rcases List.mem_cons.mp old with rfl | old
            · exact .inr (List.mem_cons_self ..)
            · exact .inl old
        · exact .inr (List.mem_cons_of_mem x new)
      · rcases List.mem_cons.mp member with rfl | member
        · cases b with
          | false => exact .inr (no rfl)
          | true => exact .inl (kept y (List.mem_cons_self ..))
        · exact rest y member
  refine (loop []).bind fun ys ⟨from', _, rest⟩ => Within.pure ?_
  simpa using ⟨fun y member => by simpa using from' y member, rest⟩

end Lists

section Reduce

variable {st : State} {n : Nat} {all : List TypeId}

/-- Questions about some types are answered rightly, and there are levels enough for them. -/
structure Answerable (st : State) (n : Nat) (all : List TypeId) : Prop where
  resolved : st.Resolved
  steady : ∀ a ∈ all, ∀ b ∈ all, st.Steady (.assignable, a, b)
  enough : ∀ a ∈ all, ∀ b ∈ all, Enough st n [] (.assignable, a, b)

variable (answerable : Answerable st n all)

include answerable

theorem assignableWithin {a b : TypeId} (left : a ∈ all) (right : b ∈ all) :
    Within st (Faithful st) True [] ((Queries.ofDepth n).assignable a b) fun yes => yes = true → st.Accepts a b := by
  refine (assignableFits answerable.resolved n a b).weaken (fun _ => answerable.enough a left b right) fun o fits yes => ?_
  exact (acceptsIff (answerable.steady a left b right) fits).mp yes

theorem coveredWithin {t : TypeId} (known : t ∈ all) {kept : List TypeId} (inside : ∀ k ∈ kept, k ∈ all) :
    Within st (Faithful st) True [] ((Queries.ofDepth n).isCovered t kept)
      fun yes => yes = true → ∃ k ∈ kept, st.Accepts t k := by
  refine Within.get fun _ => ?_
  refine (withinSome (P := st.Accepts t) fun k member => ?_).weaken id fun b covered yes => ?_
  · exact assignableWithin answerable known (inside k (List.mem_filter.mp member).1)
  · obtain ⟨k, member, accepts⟩ := covered yes
    exact ⟨k, (List.mem_filter.mp member).1, accepts⟩

theorem uncoveredWithin {t : TypeId} (known : t ∈ all) {kept : List TypeId} (inside : ∀ k ∈ kept, k ∈ all) :
    Within st (Faithful st) True []
      (kept.filterM fun k => do
        if (← typeInfo k).isObject then return !(← (Queries.ofDepth n).assignable k t) else return true)
      fun rest => (∀ k ∈ rest, k ∈ kept) ∧ ∀ k ∈ kept, k ∈ rest ∨ st.Accepts k t := by
  refine withinFilter fun k member => (readsInfo True k).within ?_
  split
  · refine (assignableWithin answerable (inside k member) known).bind fun b accepts => Within.pure ?_
    intro no
    exact accepts (by simpa using no)
  · exact Within.pure nofun

/-- Whatever is left out is linked to something that stays. -/
theorem reduceWithin (ts : List TypeId) {kept : List TypeId} (known : ∀ t ∈ ts, t ∈ all) (inside : ∀ k ∈ kept, k ∈ all) :
    Within st (Faithful st) True [] ((Queries.ofDepth n).reduceSubtypes kept ts)
      fun ks => (∀ k ∈ ks, k ∈ kept ++ ts) ∧ ∀ t ∈ kept ++ ts, st.Linked all ks t := by
  induction ts generalizing kept with
  | nil => exact Within.pure (by simpa using fun k member => ⟨k, member, .refl⟩)
  | cons t ts ih =>
    rw [List.forall_mem_cons] at known
    -- One round leaves out `t`, or puts it in the place of types that are assignable to it.
    have round (rest : List TypeId) (from' : ∀ k ∈ rest, k ∈ kept ++ [t])
        (linked : ∀ x ∈ kept ++ [t], x ∈ rest ∨ ∃ y ∈ rest, st.Accepts x y) :
        Within st (Faithful st) True [] ((Queries.ofDepth n).reduceSubtypes rest ts)
          fun ks => (∀ k ∈ ks, k ∈ kept ++ t :: ts) ∧ ∀ x ∈ kept ++ t :: ts, st.Linked all ks x := by
      have insideAll : ∀ k ∈ kept ++ [t], k ∈ all := fun k member => by
        rcases List.mem_append.mp member with old | new
        · exact inside k old
        · exact List.mem_singleton.mp new ▸ known.1
      have insideRest : ∀ k ∈ rest, k ∈ all := fun k member => insideAll k (from' k member)
      refine (ih known.2 insideRest).weaken id fun ks ⟨staying, links⟩ => ?_
      rw [List.append_cons]
      refine ⟨fun k member => ?_, fun x member => ?_⟩
      · exact List.mem_append.mpr ((List.mem_append.mp (staying k member)).imp_left (from' k))
      · rcases List.mem_append.mp member with early | late
        · rcases linked x early with stays | ⟨y, stays, accepts⟩
          · exact links x (List.mem_append_left _ stays)
          · obtain ⟨k, member, chain⟩ := links y (List.mem_append_left _ stays)
            exact ⟨k, member, .head ⟨insideAll x early, insideRest y stays, accepts⟩ chain⟩
        · exact links x (List.mem_append_right _ late)
    have added : ∀ x ∈ kept ++ [t], x ∈ kept ++ [t] ∨ ∃ y ∈ kept ++ [t], st.Accepts x y := fun x member => .inl member
    unfold Queries.reduceSubtypes
    refine (readsInfo True t).within ?_
    split
    · refine (coveredWithin answerable known.1 inside).bind fun b covered => ?_
      cases b with
      | true =>
        refine round kept (fun k member => List.mem_append_left _ member) fun x member => ?_
        rcases List.mem_append.mp member with old | new
        · exact .inl old
        · obtain rfl := List.mem_singleton.mp new
          exact .inr (covered rfl)
      | false =>
        refine (uncoveredWithin answerable known.1 inside).bind fun rest ⟨from', left⟩ => ?_
        refine round (rest ++ [t]) (fun k member => ?_) fun x member => ?_
        · exact List.mem_append.mpr ((List.mem_append.mp member).imp_left (from' k))
        · rcases List.mem_append.mp member with old | new
          · rcases left x old with stays | accepts
            · exact .inl (List.mem_append_left _ stays)
            · exact .inr ⟨t, List.mem_append_right _ (List.mem_singleton_self t), accepts⟩
          · exact .inl (List.mem_append_right _ new)
    · exact round (kept ++ [t]) (fun _ => id) added

end Reduce

/-- Where assignability is transitive, a chain is no more than one step. -/
theorem linkedDirectly {st : State} {all ks : List TypeId} {t : TypeId} (inside : ∀ k ∈ ks, k ∈ all)
    (linked : st.Linked all ks t)
    (transitive : ∀ a ∈ all, ∀ b ∈ all, ∀ c ∈ all, st.Accepts a b → st.Accepts b c → st.Accepts a c) :
    ∃ k ∈ ks, st.Accepts t k := by
  obtain ⟨k, member, chain⟩ := linked
  refine ⟨k, member, ?_⟩
  induction chain using Relation.ReflTransGen.head_induction_on with
  | refl => exact acceptsSelf st k
  | head first _ ih => exact transitive _ first.1 _ first.2.1 k (inside k member) first.2.2 ih

theorem inferResultUnites (q : Queries) {f : FunctionNode} {b : Block} {e : Source.Expr} (sync : f.isAsync = false)
    (body : f.body = .block b) (returns : some e ∈ returnsOfAll b.statements) : q.inferResult f = (do
      let expected ← q.expectedResult f
      q.reduceSubtypes [] (← q.returnTypes b.statements expected)) >>= union := by
  simp only [Queries.inferResult, Queries.bodyResult, body, sync, Bool.false_eq_true, if_false, bind_pure, bind_assoc,
    blockResultUnites _ _ returns]

/-- The types `{ a: number; b: number }`, `{ a: number }` and `{ a?: number; b?: string }`, those of `p`, `q` and `r`. -/
def optionals : State :=
  let object (properties : List (String × SymbolId)) : TypeInfo :=
    { flags := TypeFlags.object, form := .anonymous {}, members := some { properties } }
  let property (name : String) (flags : SymbolFlags) (type : TypeId) : Symbol :=
    { flags := SymbolFlags.property ||| flags, name, type := some type }
  let orUndefined (type : TypeId) : TypeInfo := { flags := TypeFlags.union, form := .union [undefinedType, type] }
  { State.initial with
    types := initialTypes ++ #[object [("a", 1), ("b", 2)], object [("a", 3)], object [("a", 4), ("b", 5)],
      orUndefined numberType, orUndefined stringType]
    symbols := State.initial.symbols ++ #[property "a" 0 numberType, property "b" 0 numberType,
      property "a" 0 numberType, property "a" SymbolFlags.optional 15, property "b" SymbolFlags.optional 16]
    nodeTypes := ((({} : Std.HashMap Nat TypeId).insert 1 12).insert 2 13).insert 3 14 }

theorem optionalsResolved : optionals.Resolved := by
  refine resolvedOfTables (fun info member => ?_) (by decide) rfl
  simp only [optionals, initialTypes, intrinsic, List.append_toArray, List.cons_append, List.nil_append,
    List.mem_toArray, List.mem_cons, List.not_mem_nil, or_false] at member
  rcases member with rfl | rfl | rfl | rfl | rfl | rfl | rfl | rfl | rfl | rfl | rfl | rfl | rfl | rfl |
    rfl | rfl | rfl <;> exact ⟨by decide, by simp, by simp, by decide, rfl⟩

def valueAt (id : Nat) : Source.Expr := .ident (markAt id) "x"

/-- Statements that return one of some values. -/
def choosing : List Nat → List Stmt
  | [] => []
  | [id] => [.ret (markAt 0) (some (valueAt id))]
  | id :: ids => .cond (markAt 0) (.boolean (markAt 0) true) (.ret (markAt 0) (some (valueAt id))) none :: choosing ids

def choice (ids : List Nat) : FunctionNode :=
  { mark := markAt 9, params := [], result := none, body := .block (.mk (markAt 0) (choosing ids)) }

theorem readsEach {st : State} {enough : Prop} {α β : Type} {f : α → Check β} {g : α → β} {xs : List α}
    (each : ∀ x ∈ xs, Reads st enough (f x) (g x)) : Reads st enough (xs.mapM f) (xs.map g) := by
  induction xs with
  | nil => exact Reads.pure []
  | cons x xs ih =>
    rw [List.forall_mem_cons] at each
    rw [List.mapM_cons]
    exact each.1.bind ((ih each.2).bind (Reads.pure _))

theorem choiceExpects (ids : List Nat) : Reads optionals True (answers.expectedResult (choice ids)) none := by
  refine Reads.get fun kept opened => ?_
  split
  next noted => cases noted
  · refine Reads.get fun kept opened => ?_
    have outermost : (optionals.asking kept opened).contextualSignatures[(choice ids).mark.id]? = none := by
      simp [State.asking, optionals, State.initial]
    rw [outermost]
    exact Reads.pure none

/-- None of the three types is a literal or fresh. -/
theorem optionalsWidened : ∀ t ∈ [12, 13, 14], (∃ a, (optionals.typeInfo t).form = .anonymous a ∧ a.isFresh = false) ∧
    optionals.baseOf? t = none := by
  intro t member
  simp only [List.mem_cons, List.not_mem_nil, or_false] at member
  rcases member with rfl | rfl | rfl <;> exact ⟨⟨_, rfl, rfl⟩, rfl⟩

theorem choosingReturns (ids : List Nat) : returnsOfAll (choosing ids) = ids.map fun id => some (valueAt id) := by
  fun_induction choosing ids with
  | case1 => rfl
  | case2 id => rfl
  | case3 id ids _ ih => simp [returnsOfAll, returnsOf, ih]

theorem choosingEnds (first : Nat) (rest : List Nat) : endReachable (choosing (first :: rest)) = false := by
  induction rest generalizing first with
  | nil => rfl
  | cons next rest ih =>
    unfold choosing
    simp [endReachable, ih next]

theorem choiceTypes {first : Nat} {rest : List Nat} (type : Nat → TypeId)
    (noted : ∀ i ∈ first :: rest, optionals.nodeTypes[i]? = some (type i) ∧ type i ∈ [12, 13, 14]) :
    Reads optionals True (answers.returnTypes (choosing (first :: rest)) none) ((first :: rest).map type) := by
  have values : (returnsOfAll (choosing (first :: rest))).filterMap id = (first :: rest).map valueAt := by
    rw [choosingReturns, List.filterMap_map]
    exact congrFun List.filterMap_eq_map (first :: rest)
  have typed : Reads optionals True (((first :: rest).map valueAt).mapM (answers.typeOfExpr · none))
      ((first :: rest).map type) := by
    rw [List.mapM_map]
    exact readsEach fun i member => (readsExprType (e := valueAt i) (noted i member).1).lift fun _ => by decide
  have valued : (returnsOfAll (choosing (first :: rest))).any (·.isNone) = false := by
    rw [choosingReturns]
    simp
  have widened : Reads optionals True (((first :: rest).map type).mapM fun t => do widenFor (← regular t) none)
      ((first :: rest).map type) := by
    suffices each : ∀ t ∈ (first :: rest).map type, Reads optionals True (do widenFor (← regular t) none) (id t) by
      have all := readsEach each
      rwa [List.map_id] at all
    · intro t member
      obtain ⟨i, there, rfl⟩ := List.mem_map.mp member
      obtain ⟨⟨a, form, stale⟩, plain⟩ := optionalsWidened _ (noted i there).2
      have same : Reads optionals True (regular (type i)) (type i) := by
        refine (readsInfo True _).bind ?_
        simp only [form, stale, Bool.false_eq_true, if_false]
        exact Reads.pure _
      have single : Reads optionals True (isUnion (type i)) false := by
        refine (readsForm True _).bind ?_
        rw [form]
        exact Reads.pure false
      have stays : optionals.widenPart (type i) = type i := by
        simp only [State.widenPart, plain, Option.getD_none]
      refine same.bind (Reads.get fun kept opened => single.bind ?_)
      change Reads optionals True (pure (ite _ (type i) (optionals.widenPart (type i)))) (type i)
      rw [stays, ite_self]
      exact Reads.pure _
  refine (values ▸ typed.bind ?_ :)
  simp only [valued, choosingEnds, Bool.or_self, Bool.false_eq_true, if_false]
  exact widened

theorem optionalsAnswerable : Answerable optionals depthLimit [12, 13] where
  resolved := optionalsResolved
  steady a left b right := by
    refine steadyShallow ?_
    revert a b
    decide
  enough a left b right := by
    refine ⟨[(.assignable, 12, 13), (.assignable, 13, 12), (.assignable, 12, 12), (.assignable, 13, 13),
      (.assignable, numberType, numberType)], ?_, ?_, List.nil_subset _, by decide⟩
    · revert a b
      decide
    · unfold State.Raises
      decide

theorem optionalsNoted : ∀ i ∈ [1, 2, 3], optionals.nodeTypes[i]? = some (i + 11) ∧ i + 11 ∈ [12, 13, 14] := by
  intro i member
  simp only [optionals, Std.HashMap.getElem?_insert]
  revert i
  decide

end Fragment.Typing
