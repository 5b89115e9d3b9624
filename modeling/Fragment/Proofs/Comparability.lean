import Fragment.Proofs.RelationCache
import Fragment.Proofs.Replies
import Mathlib

/-! What is assignable is comparable.
The two relations share their rules but for a few branches, and each of these asks less of comparable
types: flags, optional properties, excess properties, and one part of a union in place of all. -/
namespace Fragment.Typing

namespace Plan

variable {α : Type} {p q : RelationKey → Bool} {f g : α → Plan} {xs : List α}

theorem holdsAny (answer : RelationKey → Bool) (f : α → Plan) (xs : List α) :
    (Plan.any f xs).holds answer = xs.any fun x => (f x).holds answer := by
  induction xs with
  | nil => rfl
  | cons x xs ih => rw [List.any_cons, ← ih]; rfl

theorem allCarries (each : ∀ x, (f x).holds p = true → (g x).holds q = true)
    (held : (Plan.all f xs).holds p = true) : (Plan.all g xs).holds q = true := by
  rw [holdsAll, List.all_eq_true] at held ⊢
  exact fun x member => each x (held x member)

theorem anyCarries (each : ∀ x, (f x).holds p = true → (g x).holds q = true)
    (held : (Plan.any f xs).holds p = true) : (Plan.any g xs).holds q = true := by
  rw [holdsAny, List.any_eq_true] at held ⊢
  obtain ⟨x, member, holds⟩ := held
  exact ⟨x, member, each x holds⟩

theorem bothCarries {a b c d : Plan} (left : a.holds p = true → c.holds q = true)
    (right : b.holds p = true → d.holds q = true) (held : (both a b).holds p = true) :
    (both c d).holds q = true := by
  unfold holds at held ⊢
  simp only [Bool.and_eq_true] at held ⊢
  exact ⟨left held.1, right held.2⟩

theorem eitherCarries {a b c d : Plan} (left : a.holds p = true → c.holds q = true)
    (right : b.holds p = true → d.holds q = true) (held : (either a b).holds p = true) :
    (either c d).holds q = true := by
  unfold holds at held ⊢
  simp only [Bool.or_eq_true] at held ⊢
  exact held.imp left right

end Plan

/-- Where one rule decides the other does, and it lets through at least as much. -/
abbrev Relaxes : Option Bool → Option Bool → Prop := Option.Rel fun b c => b = true → c = true

namespace Relaxes

theorem refl (b : Option Bool) : Relaxes b b := by
  cases b with
  | none => exact .none
  | some b => exact .some id

theorem barred {b c : Bool} (no : b = false) : Relaxes (some b) (some c) :=
  .some fun yes => nomatch no.symm.trans yes

theorem ite {p : Prop} [Decidable p] {a b c d : Option Bool} (yes : Relaxes a c) (no : Relaxes b d) :
    Relaxes (if p then a else b) (if p then c else d) := by
  by_cases h : p
  · simpa [h] using yes
  · simpa [h] using no

end Relaxes

namespace State

/-- No union is without parts. -/
def Inhabited (st : State) : Prop := ∀ t, (st.typeInfo t).form ≠ .union []

/-- What is true of comparability, and what is assignable. -/
noncomputable def loosened (st : State) : RelationKey → Bool
  | (r, a, b) => st.truth (r, a, b) || st.truth (.assignable, a, b)

variable {st : State} {source target : TypeId}

theorem loosenedOf {a b : TypeId} (accepted : st.truth (.assignable, a, b) = true) :
    st.loosened (.comparable, a, b) = true := by
  simp [loosened, accepted]

/- Flags that decide one relation decide the other, and what they let through stays. -/
theorem numbersRelaxed (st : State) (source target : TypeId) :
    Relaxes (st.numbersRelated .assignable source target) (st.numbersRelated .comparable source target) := by
  unfold numbersRelated
  dsimp only
  repeat' apply Relaxes.ite
  all_goals first
    | exact .refl _
    | exact .barred rfl

theorem flagsRelaxed (st : State) (source target : TypeId) :
    Relaxes (st.simplyRelated .assignable source target) (st.simplyRelated .comparable source target) := by
  have numbers := st.numbersRelaxed source target
  unfold simplyRelated
  dsimp only
  iterate 7 refine .ite (.refl _) ?_
  generalize st.numbersRelated .assignable source target = asked at numbers ⊢
  generalize st.numbersRelated .comparable source target = relaxed at numbers ⊢
  cases numbers with
  | none =>
    refine .ite (.refl _) (.ite (.barred rfl) (.ite (.barred rfl) ?_))
    exact .refl _
  | some each => exact .some each

/-- A signature that can stand for another where values are assigned can where they are compared. -/
theorem signatureRelaxed (st : State) (source target : SignatureId)
    (held : (st.signaturePlan .assignable source target).holds st.truth = true) :
    (st.signaturePlan .comparable source target).holds st.loosened = true := by
  revert held
  unfold signaturePlan
  split
  · rename_i s t _ _
    by_cases tooMany : (!t.hasRest && decide (s.least > t.parameters.length)) = true
    · unfold Plan.holds
      simp [tooMany]
    · simp only [tooMany, Bool.false_eq_true, ↓reduceIte]
      refine Plan.bothCarries (Plan.allCarries fun _ => Plan.eitherCarries loosenedOf loosenedOf) ?_
      by_cases void : (st.typeInfo (st.resultType target)).flags.meets TypeFlags.void = true
      · simp [void, Plan.holds]
      · simp only [void, Bool.false_eq_true, ↓reduceIte]
        exact loosenedOf
  · intro held
    cases held

/- Comparable types may leave a property out that is not optional in the target. -/
theorem propertyRelaxed (st : State) (source : TypeId) (wanted : SymbolId)
    (held : (st.propertyPlan .assignable source wanted).holds st.truth = true) :
    (st.propertyPlan .comparable source wanted).holds st.loosened = true := by
  revert held
  unfold propertyPlan
  split
  · exact id
  · rename_i x _
    simp only [decide_true, Bool.and_true, reduceCtorEq, decide_false, Bool.and_false, Bool.false_eq_true, ↓reduceIte]
    by_cases barred : ((st.symbol x).isOptional && !(st.symbol wanted).isOptional) = true
    · unfold Plan.holds
      simp [barred]
    · simp only [barred, Bool.false_eq_true, ↓reduceIte]
      exact loosenedOf

theorem membersRelaxed (st : State) (source target : TypeId)
    (held : (st.membersPlan .assignable source target).holds st.truth = true) :
    (st.membersPlan .comparable source target).holds st.loosened = true :=
  Plan.bothCarries (Plan.allCarries (st.propertyRelaxed source))
    (Plan.allCarries fun t => Plan.anyCarries fun s => st.signatureRelaxed s t) held

theorem objectRelaxed (st : State) (source target : TypeId)
    (held : (st.objectPlan .assignable source target).holds st.truth = true) :
    (st.objectPlan .comparable source target).holds st.loosened = true := by
  revert held
  unfold objectPlan
  split
  · rename_i a given b wanted _ _
    by_cases same : a = b
    · simp only [same, ↓reduceIte]
      exact Plan.allCarries fun _ => loosenedOf
    · simp only [same, ↓reduceIte]
      exact st.membersRelaxed source target
  · exact loosenedOf
  · intro held
    cases held
  · exact st.membersRelaxed source target

theorem plainRelaxed (st : State) (source target : TypeId)
    (held : (st.plainPlan .assignable source target).holds st.truth = true) :
    (st.plainPlan .comparable source target).holds st.loosened = true := by
  revert held
  unfold plainPlan
  split_ifs
  · exact id
  · exact id
  · exact st.objectRelaxed (st.wrapperOf source) target
  · exact st.objectRelaxed source target
  · exact id

/- Of a union all parts have to be assignable, while one comparable part is enough: there is one. -/
theorem structureRelaxed (inhabited : st.Inhabited)
    (held : (st.structurePlan .assignable source target).holds st.truth = true) :
    (st.structurePlan .comparable source target).holds st.loosened = true := by
  revert held
  unfold structurePlan
  split
  · rename_i types form
    simp only [reduceCtorEq, ↓reduceIte, Plan.holdsAll, Plan.holdsAny, List.all_eq_true, List.any_eq_true]
    intro each
    obtain ⟨first, rest, rfl⟩ := List.exists_cons_of_ne_nil fun none => inhabited source (none ▸ form)
    exact ⟨first, List.mem_cons_self .., loosenedOf (each first (List.mem_cons_self ..))⟩
  · exact Plan.anyCarries fun _ => loosenedOf
  · exact loosenedOf
  · exact id
  · exact id
  · exact Plan.allCarries fun _ => loosenedOf
  · exact Plan.eitherCarries (Plan.anyCarries fun _ => loosenedOf) (st.objectRelaxed source target)
  · exact st.plainRelaxed source target

theorem planRelaxed (inhabited : st.Inhabited)
    (held : (st.plan (.assignable, source, target)).holds st.truth = true) :
    (st.plan (.comparable, source, target)).holds st.loosened = true := by
  have flags := st.flagsRelaxed source target
  revert held
  unfold plan
  by_cases same : source = target
  · simp only [same, ↓reduceIte]
    exact id
  · simp only [same, ↓reduceIte, reduceCtorEq, decide_false, decide_true, Bool.false_and, Bool.true_and, Bool.false_eq_true]
    generalize st.simplyRelated .assignable source target = asked at flags ⊢
    generalize st.simplyRelated .comparable source target = relaxed at flags ⊢
    cases flags with
    | some each => exact each
    | none =>
      dsimp only
      split_ifs
      · intro held
        cases held
      · exact structureRelaxed inhabited

/-- By the rules what is assignable is comparable, also where types mention themselves. -/
theorem comparableOfAccepts (inhabited : st.Inhabited) (accepts : st.Accepts source target) :
    st.Holds (.comparable, source, target) := by
  refine ⟨st.loosened, ?_, loosenedOf ((st.truthIff _).mpr accepts)⟩
  rintro ⟨r, a, b⟩ member
  cases known : st.truth (r, a, b) with
  | true =>
    exact (st.plan _).holdsMono (fun k holds => by simp [loosened, holds]) (st.truthConsistent _ known)
  | false =>
    have assigned : st.truth (.assignable, a, b) = true := by simpa [loosened, known] using member
    cases r with
    | assignable => cases known.symm.trans assigned
    | comparable => exact planRelaxed inhabited (st.truthConsistent _ assigned)

end State

section Replies

variable {st st' : State} {history : List RelationKey}

theorem readsRegular {enough : Prop} {t : TypeId} (received : st.isFresh t = false) :
    Reads st enough (Check.regular t) t := by
  refine Reads.bind (readsInfo _ t) ?_
  unfold State.isFresh at received
  cases form : (st.typeInfo t).form with
  | anonymous a =>
    rw [form] at received
    simp only [received, Bool.false_eq_true, ↓reduceIte]
    exact Reads.pure t
  | _ => exact Reads.pure t

/-- An equality test of types of which one is comparable to the other reports nothing. -/
theorem equalityWithin (resolved : st.Resolved) {source target : TypeId} (mark : Source.Mark)
    (receivedS : st.isFresh source = false) (receivedT : st.isFresh target = false)
    (alike : st.Holds (.comparable, source, target) ∨ st.Holds (.comparable, target, source)) :
    Within st (Faithful st) False [] (answers.equalityType mark source target) fun t => t = booleanType := by
  have compared (a b : TypeId) : Within st (Faithful st) False [] (answers.comparable a b)
      fun yes => st.Holds (.comparable, a, b) → yes = true :=
    ((relateFits resolved depthLimit (.comparable, a, b) [] List.nodup_nil (by simp)).weaken False.elim
      fun _ fits => fits).bind fun _ fits => Within.pure fun holds => fits.1 ((st.truthIff _).mpr holds)
  have decided : Within st (Faithful st) False [] (do
      let l ← Check.regular source
      let r ← Check.regular target
      if !(← answers.comparable l r) then
        if !(← answers.comparable r l) then
          let shownLeft ← answers.operandText source
          let shownRight ← answers.operandText target
          Check.error mark (.noOverlap shownLeft shownRight)
      return booleanType) fun t => t = booleanType := by
    refine (readsRegular receivedS).within ((readsRegular receivedT).within ?_)
    refine (compared source target).bind fun forth held => ?_
    cases forth with
    | true => exact Within.pure rfl
    | false =>
      refine (compared target source).bind fun back held' => ?_
      rcases alike with holds | holds
      · cases held holds
      · cases held' holds
        exact Within.pure rfl
  refine (readsFlag _ source _).within ?_
  cases (st.typeInfo source).flags.meets (TypeFlags.any ||| TypeFlags.voidLike) with
  | true => exact Within.pure rfl
  | false =>
    refine (readsFlag _ target _).within ?_
    cases (st.typeInfo target).flags.meets (TypeFlags.any ||| TypeFlags.voidLike) with
    | true => exact Within.pure rfl
    | false => exact decided

/-- What is assignable by the rules is comparable by the rules, whether or not types mention
themselves. So where the first question is answered with yes, and no question that it leads to and that
leads back to itself fails, the second is settled as yes, and no equality test of the two is reported
whatever was asked before. -/
theorem assignableComparable (resolved : st.Resolved) (unasked : st.relations = {}) (idle : st.relating = [])
    (inhabited : st.Inhabited) {source target : TypeId} :
    (st.Accepts source target → st.Holds (.comparable, source, target)) ∧
    ((answers.askAll history).run st = .ok ((), st') → st.Steady (.assignable, source, target) →
      answers.reply st' (.assignable, source, target) = .ok true →
      st.Settles (.comparable, source, target) true ∧
      (st.isFresh source = false → st.isFresh target = false → ∀ other st'' mark t out,
        (answers.askAll other).run st = .ok ((), st'') →
        (answers.equalityType mark source target).run st'' = .ok (t, out) ∨
          (answers.equalityType mark target source).run st'' = .ok (t, out) →
        t = booleanType ∧ out.diagnostics = st.diagnostics)) := by
  refine ⟨State.comparableOfAccepts inhabited, fun asked steady yes => ?_⟩
  have fits := (repliesFit resolved unasked idle asked _).1 true yes
  have holds := State.comparableOfAccepts inhabited ((acceptsIff steady fits).mp rfl)
  refine ⟨settlesOfHolds resolved unasked idle holds, ?_⟩
  intro receivedS receivedT other st'' mark t out after ran
  obtain ⟨kept, rfl, faithful⟩ := askedFaithful resolved unasked idle after
  rcases ran with ran | ran
  · obtain ⟨_, rfl, -, is⟩ := (equalityWithin resolved mark receivedS receivedT (.inl holds)).ran faithful ran
    exact ⟨is, rfl⟩
  · obtain ⟨_, rfl, -, is⟩ := (equalityWithin resolved mark receivedT receivedS (.inr holds)).ran faithful ran
    exact ⟨is, rfl⟩

end Replies

section Cases

theorem inhabitedOfTables {st : State} (parts : (st.types.all fun info => match info.form with
    | .union types => !types.isEmpty
    | _ => true) = true) : st.Inhabited := by
  intro t empty
  have known := typeInfoEvery (fun info member => Array.all_eq_true_iff_forall_mem.mp parts info member) rfl t
  rw [empty] at known
  cases known

/- `A` is assignable to `E`, both of which mention themselves, and so the two can be compared. -/
theorem circleComparable : answers.reply circles (.assignable, 12, 16) = .ok true ∧
    answers.reply circles (.comparable, 12, 16) = .ok true := by
  have closed (r : Relation) : ∀ a ∈ [(r, 12, 16), (r, 13, 16)],
      ∀ b ∈ (circles.plan a).questions, b ∈ [(r, 12, 16), (r, 13, 16)] := by
    cases r <;> decide
  have holds : ∀ a ∈ [(Relation.assignable, 12, 16), (.assignable, 13, 16)], circles.Holds a := by
    intro a member
    refine ⟨fun k => k = (.assignable, 12, 16) || k = (.assignable, 13, 16), fun k inside => ?_, by simpa using member⟩
    simp only [Bool.or_eq_true, decide_eq_true_eq] at inside
    rcases inside with rfl | rfl <;> decide
  have steady := steadyOfClosed (closed .assignable) holds (List.mem_cons_self ..)
  have yes : answers.reply circles (.assignable, 12, 16) = .ok true := okOfSome (by decide)
  have started : (answers.askAll []).run circles = .ok ((), circles) := rfl
  obtain ⟨settled, -⟩ :=
    (assignableComparable circlesResolved rfl rfl (inhabitedOfTables (by decide +kernel))).2 started steady yes
  exact ⟨yes, (settled [] circles started).2 ⟨_, List.mem_cons_self .., closed .comparable, List.nil_subset _, by decide⟩⟩

/-- Two functions, `B` of `O` and `D` of a type that is given, beside the objects `O` that have a `D`
and a number. Texts have a `B`, and numbers have a `B` and a number. -/
def wrapped (taken : TypeId) : State :=
  let property (name : String) (type : TypeId) : Symbol :=
    { flags := SymbolFlags.property, name, type := some type }
  let interface (name : String) (declared : TypeId) : Symbol :=
    { flags := SymbolFlags.interface, name, declaredType := some declared }
  let object (form : Form) (properties : List (String × SymbolId)) : TypeInfo :=
    { flags := TypeFlags.object, form, members := some { properties } }
  let function (g : SignatureId) : TypeInfo :=
    { flags := TypeFlags.object, form := .anonymous {}, members := some { signatures := [g] } }
  let signature (x : SymbolId) : Signature :=
    { node := { mark := markAt 0, params := [], result := none }, parameters := [x], least := 1, hasRest := false,
      result := some voidType }
  let names : Std.HashMap String SymbolId := ({} : Std.HashMap String SymbolId).insert "undefined" undefinedSymbol
  { State.initial with
    types := initialTypes ++ #[object (.interface []) [("f", 1)], function 0, function 1,
      object (.anonymous {}) [("f", 4), ("n", 5)], object (.interface []) [("f", 1), ("n", 5)],
      { flags := TypeFlags.union, form := .union [stringType, numberType] }]
    symbols := State.initial.symbols ++ #[property "f" 13, property "x" 15, property "x" taken, property "f" 14,
      property "n" numberType, interface "String" 12, interface "Number" 16]
    signatures := #[signature 2, signature 3]
    unions := ({} : Std.HashMap (List TypeId × String) TypeId).insert ([stringType, numberType], "") 17
    scopes := #[{ parent := none, names := (names.insert "String" 6).insert "Number" 7 }] }

theorem wrappedResolved {taken : TypeId} (known : taken ∈ [stringType, 17]) : (wrapped taken).Resolved := by
  simp only [List.mem_cons, List.not_mem_nil, or_false] at known
  rcases known with rfl | rfl <;> exact resolvedOfWorked (by decide +kernel) rfl

set_option maxRecDepth 20000 in
/- While it is open whether texts are an `O`, a `B` counts as a `D`. This is kept although texts are no
`O`, and nothing is kept about how the two compare. -/
theorem assignedNotComparable :
    ¬∀ (st st' : State) (history : List RelationKey) (source target : TypeId), st.Resolved → st.relations = {} →
      st.relating = [] → st.Inhabited → (answers.askAll history).run st = .ok ((), st') →
      answers.reply st' (.assignable, source, target) = .ok true →
      answers.reply st' (.comparable, source, target) = .ok true := by
  intro always
  have assigned : (do
      let after ← (answers.askAll [(.assignable, stringType, 15)]).run (wrapped stringType)
      answers.reply after.2 (.assignable, 13, 14)) = .ok true := okOfSome (by cbv)
  have compared : (do
      let after ← (answers.askAll [(.assignable, stringType, 15)]).run (wrapped stringType)
      answers.reply after.2 (.comparable, 13, 14)) = .ok false := okOfSome (by cbv)
  cases asked : (answers.askAll [(.assignable, stringType, 15)]).run (wrapped stringType) with
  | error fault =>
    rw [asked] at assigned
    cases assigned
  | ok after =>
    rw [asked] at assigned compared
    have same := always _ after.2 _ 13 14 (wrappedResolved (List.mem_cons_self ..)) rfl rfl
      (inhabitedOfTables (by decide +kernel)) asked assigned
    cases compared.symm.trans same

end Cases

end Fragment.Typing
