import Fragment.Proofs.RelationRead

/-! Answers about relations, and what earlier questions leave behind.
A kept answer is never a wrong refusal, and it is the right answer for every question that leads to
no circle of questions that fails. Hence earlier questions do not change such answers. -/
namespace Fragment.Typing

section Plans

variable {st : State} {inv : KeptAnswers → Prop} {enough good : Prop} {opened : List RelationKey}
  {answer : RelationKey → Bool} {q : Queries} {explain : Bool} {α β : Type}

/- A conjunction that stops at its first refusal. -/
theorem Within.both {m : Check α} {f : α → Check β} {p : α → Bool} {q : β → Bool} {v w : Bool}
    (head : Within st inv enough opened m fun a => Fits good v (p a))
    (next : ∀ a, p a = true → Within st inv enough opened (f a) fun b => Fits good w (q b))
    (stop : ∀ a, p a = false → Within st inv enough opened (f a) fun b => q b = false) :
    Within st inv enough opened (m >>= f) fun b => Fits good (v && w) (q b) := by
  refine head.bind fun a fits => ?_
  cases first : p a with
  | true =>
    refine (next a first).weaken id fun b rest => ⟨fun h => ?_, fun h => ?_⟩
    · simp only [Bool.and_eq_true] at h
      exact rest.1 h.2
    · rw [rest.2 h, ← fits.2 h, first, Bool.true_and]
  | false =>
    refine (stop a first).weaken id fun b refused => ⟨fun h => ?_, fun h => ?_⟩
    · simp only [Bool.and_eq_true] at h
      rw [fits.1 h.1] at first
      contradiction
    · rw [refused, ← fits.2 h, first, Bool.false_and]

/- A disjunction that stops at its first success. -/
theorem Within.either {m : Check α} {f : α → Check β} {p : α → Bool} {q : β → Bool} {v w : Bool}
    (head : Within st inv enough opened m fun a => Fits good v (p a))
    (stop : ∀ a, p a = true → Within st inv enough opened (f a) fun b => q b = true)
    (next : ∀ a, p a = false → Within st inv enough opened (f a) fun b => Fits good w (q b)) :
    Within st inv enough opened (m >>= f) fun b => Fits good (v || w) (q b) := by
  refine head.bind fun a fits => ?_
  cases first : p a with
  | true =>
    refine (stop a first).weaken id fun b held => ⟨fun _ => held, fun h => ?_⟩
    rw [held, ← fits.2 h, first, Bool.true_or]
  | false =>
    refine (next a first).weaken id fun b rest => ⟨fun h => ?_, fun h => ?_⟩
    · rcases Bool.or_eq_true .. ▸ h with h | h
      · rw [fits.1 h] at first
        contradiction
      · exact rest.1 h
    · rw [rest.2 h, ← fits.2 h, first, Bool.false_or]

theorem withinAllHold {ask : α → Check Bool} {f : α → Plan} {xs : List α}
    (each : ∀ x ∈ xs, Within st inv enough opened (ask x) (Fits good ((f x).holds answer))) :
    Within st inv enough opened (allHold ask xs) (Fits good ((Plan.all f xs).holds answer)) := by
  induction xs with
  | nil => exact Within.pure (fitsSelf good true)
  | cons x xs ih =>
    refine Within.both (p := id) (q := id) (each x (List.mem_cons_self ..)) ?_ ?_
    · rintro _ rfl
      exact ih fun y member => each y (List.mem_cons_of_mem x member)
    · rintro _ rfl
      exact Within.pure rfl

theorem withinAnyHolds {ask : α → Check Bool} {f : α → Plan} {xs : List α}
    (each : ∀ x ∈ xs, Within st inv enough opened (ask x) (Fits good ((f x).holds answer))) :
    Within st inv enough opened (anyHolds ask xs) (Fits good ((Plan.any f xs).holds answer)) := by
  induction xs with
  | nil => exact Within.pure (fitsSelf good false)
  | cons x xs ih =>
    refine Within.either (p := id) (q := id) (each x (List.mem_cons_self ..)) ?_ ?_
    · rintro _ rfl
      exact Within.pure rfl
    · rintro _ rfl
      exact ih fun y member => each y (List.mem_cons_of_mem x member)

theorem withinFirstRefusal {ask : α → Check Outcome} {f : α → Plan} {xs : List α}
    (each : ∀ x ∈ xs, Within st inv enough opened (ask x) fun o => Fits good ((f x).holds answer) o.holds) :
    Within st inv enough opened (firstRefusal ask xs)
      fun o => Fits good ((Plan.all f xs).holds answer) o.holds := by
  induction xs with
  | nil => exact Within.pure (fitsSelf good true)
  | cons x xs ih =>
    refine Within.both (p := Outcome.holds) (each x (List.mem_cons_self ..)) ?_ ?_
    · intro o held
      simp only [held, ↓reduceIte]
      exact ih fun y member => each y (List.mem_cons_of_mem x member)
    · intro o refused
      simp only [refused, Bool.false_eq_true, ↓reduceIte]
      exact Within.pure refused

/-- Some questions are answered well, with reasons only if reasons are asked for. -/
def Answered (st : State) (inv : KeptAnswers → Prop) (enough good : Prop) (opened : List RelationKey)
    (answer : RelationKey → Bool) (q : Queries) (explain : Bool) (ks : List RelationKey) : Prop :=
  ∀ k ∈ ks, ∀ e, (e = true → explain = true) → Within st inv enough opened (q.relate k.1 e k.2.1 k.2.2)
    fun o => Fits good (answer k) o.holds

/-- Types can be written, if reasons are asked for. -/
def Written (st : State) (inv : KeptAnswers → Prop) (enough : Prop) (opened : List RelationKey) (q : Queries)
    (explain : Bool) : Prop :=
  explain = true → ∀ t, Within st inv enough opened (q.textOf t) fun _ => True

theorem refusesWithin (written : Written st inv enough opened q explain) (source target : TypeId)
    (message : String → String → Message) :
    Within st inv enough opened (q.refuse explain source target message) fun o => o.holds = false := by
  cases explain with
  | false => exact Within.pure rfl
  | true =>
    refine (written rfl source).bind fun _ _ => ?_
    exact (written rfl target).bind fun _ _ => Within.pure rfl

theorem questionsAll {f : α → Plan} {xs : List α} {x : α} (member : x ∈ xs) :
    (f x).questions ⊆ (Plan.all f xs).questions := by
  induction xs with
  | nil => simp at member
  | cons y xs ih =>
    intro k inside
    rcases List.mem_cons.mp member with rfl | member
    · exact List.mem_append_left _ inside
    · exact List.mem_append_right _ (ih member inside)

theorem questionsAny {f : α → Plan} {xs : List α} {x : α} (member : x ∈ xs) :
    (f x).questions ⊆ (Plan.any f xs).questions := by
  induction xs with
  | nil => simp at member
  | cons y xs ih =>
    intro k inside
    rcases List.mem_cons.mp member with rfl | member
    · exact List.mem_append_left _ inside
    · exact List.mem_append_right _ (ih member inside)

/- A question asked for its truth value alone. -/
theorem Answered.asked {ks : List RelationKey} {r : Relation} {source target : TypeId}
    (answered : Answered st inv enough good opened answer q explain ks) (member : (r, source, target) ∈ ks) :
    Within st inv enough opened (do return (← q.relate r false source target).holds)
      (Fits good (answer (r, source, target))) :=
  (answered _ member false (by simp)).bind fun _ fits => Within.pure fits

theorem relatedSignatures (resolved : st.Resolved) (looks : Looks st enough q) {r : Relation}
    {a b : TypeId} {source target : SignatureId} (given : source ∈ st.signaturesOf a)
    (wanted : target ∈ st.signaturesOf b)
    (answered : Answered st inv enough good opened answer q explain
      (st.signaturePlan r source target).questions) :
    Within st inv enough opened (q.signatureRelated r source target)
      (Fits good ((st.signaturePlan r source target).holds answer)) := by
  obtain ⟨s, foundS, resultS, typedS⟩ := resolved.signatures a source given
  obtain ⟨t, foundT, resultT, typedT⟩ := resolved.signatures b target wanted
  refine (readsSignature _ foundS).within ?_
  refine (readsSignature _ foundT).within ?_
  unfold State.signaturePlan at answered ⊢
  simp only [foundS, foundT] at answered ⊢
  cases tooMany : !t.hasRest && decide (s.least > t.parameters.length) with
  | true => exact Within.pure (fitsSelf good false)
  | false =>
    simp only [tooMany, Bool.false_eq_true, ↓reduceIte] at answered
    have left := fun k inside => answered k (List.mem_append_left _ inside)
    have right := fun k inside => answered k (List.mem_append_right _ inside)
    refine Within.both (p := id) (q := id) (withinAllHold ?_) ?_ ?_
    · rintro ⟨x, y⟩ member
      have inside := questionsAll (f := fun pair => Plan.either
        (.ask (r, st.valueType pair.2, st.valueType pair.1)) (.ask (r, st.valueType pair.1, st.valueType pair.2))) member
      obtain ⟨inS, inT⟩ := List.of_mem_zip member
      refine (looks.valueType x (typedS x inS)).within ?_
      refine (looks.valueType y (typedT y inT)).within ?_
      refine Within.either (p := Outcome.holds) (q := id)
        (left (r, st.valueType y, st.valueType x) (inside ?_) false (by simp)) ?_ ?_
      · exact List.mem_append_left _ (List.mem_singleton.mpr rfl)
      · intro o held
        simp only [held, ↓reduceIte]
        exact Within.pure rfl
      · intro o refused
        simp only [refused, Bool.false_eq_true, ↓reduceIte]
        exact Answered.asked left (inside (List.mem_append_right _ (List.mem_singleton.mpr rfl)))
    · rintro _ rfl
      refine (looks.result target t foundT resultT).within ?_
      refine (readsFlag _ _ _).within ?_
      cases void : (st.typeInfo (st.resultType target)).flags.meets TypeFlags.void with
      | true => exact Within.pure (fitsSelf good true)
      | false =>
        simp only [void, Bool.false_eq_true, ↓reduceIte] at right
        refine (looks.result source s foundS resultS).within ?_
        exact Answered.asked right (List.mem_singleton.mpr rfl)
    · rintro _ rfl
      exact Within.pure rfl

theorem propertyTyped (resolved : st.Resolved) {t : TypeId} {name : String} {x : SymbolId}
    (found : st.propertyOf? t name = some x) : (st.symbol x).type.isSome = true := by
  unfold State.propertyOf? at found
  generalize (if (st.typeInfo t).flags.meets TypeFlags.primitive then st.wrapperOf t else t) = owner at found
  obtain ⟨before, after, same, -⟩ := List.lookup_eq_some_iff.mp found
  have member : (name, x) ∈ (st.membersOf owner).properties := by simp [same]
  exact resolved.properties owner x (List.mem_map.mpr ⟨(name, x), member, rfl⟩)

theorem relatedProperties (resolved : st.Resolved) (looks : Looks st enough q)
    (written : Written st inv enough opened q explain) {r : Relation} {source target : TypeId}
    {wanted : SymbolId} (plain : ∀ types, (st.typeInfo source).form ≠ .union types)
    (typed : (st.symbol wanted).type.isSome = true)
    (answered : Answered st inv enough good opened answer q explain
      (st.propertyPlan r source wanted).questions) :
    Within st inv enough opened (q.propertyRelated r explain source target wanted)
      fun o => Fits good ((st.propertyPlan r source wanted).holds answer) o.holds := by
  have refused : ∀ message, Within st inv enough opened (q.refuse explain source target message)
      fun o => Fits good false o.holds :=
    fun message => (refusesWithin written _ _ message).weaken id fun o no => no ▸ fitsSelf good false
  refine (readsSymbol _ wanted).within ?_
  refine (looks.property source _ plain).within ?_
  unfold State.propertyPlan at answered ⊢
  cases found : st.propertyOf? source (st.symbol wanted).name with
  | none =>
    cases optional : (st.symbol wanted).isOptional with
    | true => exact Within.pure (fitsSelf good true)
    | false => exact refused _
  | some x =>
    simp only [found] at answered
    refine (readsSymbol _ x).within ?_
    refine (readsSymbol _ wanted).within ?_
    cases barred : ((st.symbol x).isOptional && !(st.symbol wanted).isOptional) && decide (r = .assignable) with
    | true =>
      simp only [barred, ↓reduceIte]
      exact refused _
    | false =>
      simp only [barred, Bool.false_eq_true, ↓reduceIte] at answered ⊢
      refine (looks.valueType x (propertyTyped resolved found)).within ?_
      refine (looks.valueType wanted typed).within ?_
      refine (answered _ (List.mem_singleton.mpr rfl) false (by simp)).bind fun o fits => ?_
      cases held : o.holds with
      | true =>
        rw [held] at fits
        exact Within.pure fits
      | false =>
        rw [held] at fits
        cases explain with
        | false => exact Within.pure fits
        | true =>
          refine (answered _ (List.mem_singleton.mpr rfl) true id).bind fun _ _ => ?_
          refine (refusesWithin written _ _ _).bind fun last no => Within.pure ?_
          show Fits good _ last.holds
          rw [no]
          exact fits

theorem relatedMembers (resolved : st.Resolved) (looks : Looks st enough q)
    (written : Written st inv enough opened q explain) {r : Relation} {source target : TypeId}
    (plainS : ∀ types, (st.typeInfo source).form ≠ .union types)
    (plainT : ∀ types, (st.typeInfo target).form ≠ .union types)
    (answered : Answered st inv enough good opened answer q explain
      (st.membersPlan r source target).questions) :
    Within st inv enough opened (q.membersRelated r explain source target)
      fun o => Fits good ((st.membersPlan r source target).holds answer) o.holds := by
  have left := fun k inside => answered k (List.mem_append_left _ inside)
  have right := fun k inside => answered k (List.mem_append_right _ inside)
  refine (readsProperties looks plainT).within ?_
  refine Within.both (p := Outcome.holds) (withinFirstRefusal fun x member => ?_) ?_ ?_
  · refine relatedProperties resolved looks written plainS (resolved.properties target x member) ?_
    exact fun k inside => left k (questionsAll member inside)
  · intro o held
    simp only [held, Bool.not_true, Bool.false_eq_true, ↓reduceIte]
    refine (readsSignatures looks plainT).within ?_
    have covered : Within st inv enough opened
        (allHold (fun t => anyHolds (q.signatureRelated r · t) (st.signaturesOf source))
          (st.signaturesOf target))
        (Fits good ((Plan.all (fun t => .any (st.signaturePlan r · t) (st.signaturesOf source))
          (st.signaturesOf target)).holds answer)) := by
      refine withinAllHold fun t wanted => withinAnyHolds fun s given => ?_
      refine relatedSignatures resolved looks given wanted fun k inside => right k ?_
      exact questionsAll wanted (questionsAny given inside)
    cases wanted : st.signaturesOf target with
    | nil => exact Within.pure (fitsSelf good true)
    | cons g gs =>
      rw [wanted] at covered
      refine (readsSignatures looks plainS).within ?_
      refine covered.bind fun b fits => ?_
      cases b with
      | true => exact Within.pure fits
      | false => exact (refusesWithin written _ _ _).weaken id fun o no => no ▸ fits
  · intro o refused
    simp only [refused, Bool.not_false, ↓reduceIte]
    exact Within.pure refused

theorem relatedObjects (resolved : st.Resolved) (looks : Looks st enough q)
    (written : Written st inv enough opened q explain) {r : Relation} {source target : TypeId}
    (plainS : ∀ types, (st.typeInfo source).form ≠ .union types)
    (plainT : ∀ types, (st.typeInfo target).form ≠ .union types)
    (answered : Answered st inv enough good opened answer q explain
      (st.objectPlan r source target).questions) :
    Within st inv enough opened (q.objectRelated r explain source target)
      fun o => Fits good ((st.objectPlan r source target).holds answer) o.holds := by
  have members : Answered st inv enough good opened answer q explain (st.membersPlan r source target).questions →
      Within st inv enough opened (q.membersRelated r explain source target)
        fun o => Fits good ((st.membersPlan r source target).holds answer) o.holds :=
    relatedMembers resolved looks written plainS plainT
  refine (readsForm _ source).within ?_
  refine (readsForm _ target).within ?_
  unfold State.objectPlan at answered ⊢
  revert answered
  cases (st.typeInfo source).form with
  | reference a given =>
    cases (st.typeInfo target).form with
    | reference b wanted =>
      intro answered
      by_cases same : a = b
      · simp only [same, ↓reduceIte] at answered ⊢
        have arguments : Within st inv enough opened
            (firstRefusal (fun pair => q.relate r explain pair.1 pair.2) (given.zip wanted))
            fun o => Fits good
              ((Plan.all (fun pair => .ask (r, pair.1, pair.2)) (given.zip wanted)).holds answer) o.holds := by
          refine withinFirstRefusal ?_
          rintro ⟨x, y⟩ member
          exact answered (r, x, y) (questionsAll (f := fun pair => .ask (r, pair.1, pair.2)) member
            (List.mem_singleton.mpr rfl)) explain id
        refine arguments.bind fun o fits => ?_
        cases held : o.holds with
        | true =>
          rw [held] at fits
          exact Within.pure fits
        | false =>
          rw [held] at fits
          refine (refusesWithin written _ _ _).bind fun last no => Within.pure ?_
          show Fits good _ last.holds
          rw [no]
          exact fits
      · simp only [same, ↓reduceIte] at answered ⊢
        exact members answered
    | array element => exact fun _ => Within.pure (fitsSelf good false)
    | _ => exact members
  | array a =>
    cases (st.typeInfo target).form with
    | array b => exact fun answered => answered (r, a, b) (List.mem_singleton.mpr rfl) explain id
    | _ => exact members
  | _ =>
    cases (st.typeInfo target).form with
    | array element => exact fun _ => Within.pure (fitsSelf good false)
    | _ => exact members

theorem interfacePlain {name : String} {t : TypeId} (found : st.globalInterface? name = some t) :
    ∃ params, (st.typeInfo t).form = .interface params := by
  unfold State.globalInterface? at found
  split at found
  · contradiction
  · split at found
    · contradiction
    · dsimp only at found
      split at found
      · rename_i params form
        split at found
        · cases Option.some.inj found
          exact ⟨params, form⟩
        · contradiction
      · contradiction

theorem wrapperNoUnion (resolved : st.Resolved) {t : TypeId}
    (plain : ∀ types, (st.typeInfo t).form ≠ .union types) :
    ∀ types, (st.typeInfo (st.wrapperOf t)).form ≠ .union types := by
  have named : ∀ name types,
      (st.typeInfo ((st.globalInterface? name).getD emptyObjectType)).form ≠ .union types := by
    intro name types
    cases found : st.globalInterface? name with
    | none => simp [resolved.empty]
    | some i =>
      obtain ⟨params, form⟩ := interfacePlain found
      simp [form]
  unfold State.wrapperOf
  dsimp only
  split
  · exact named "String"
  · split
    · exact named "Number"
    · split
      · exact named "Boolean"
      · exact plain

/- The relation between types that are neither unions, intersections nor type parameters. -/
theorem relatedPlain (resolved : st.Resolved) (looks : Looks st enough q)
    (written : Written st inv enough opened q explain) {r : Relation} {source target : TypeId}
    (plainS : ∀ types, (st.typeInfo source).form ≠ .union types)
    (plainT : ∀ types, (st.typeInfo target).form ≠ .union types)
    (answered : Answered st inv enough good opened answer q explain
      (st.plainPlan r source target).questions) :
    Within st inv enough opened (do
        let s ← Check.flags source
        if !(← Check.hasFlag target TypeFlags.object) then return { holds := false }
        if s.meets TypeFlags.primitive then
          let apparent ← q.apparent source
          if apparent = source then return { holds := false }
          q.objectRelated r explain apparent target
        else if s.meets TypeFlags.object then q.objectRelated r explain source target
        else return { holds := false })
      fun o => Fits good ((st.plainPlan r source target).holds answer) o.holds := by
  have readsFlags : Reads st enough (Check.flags source) (st.typeInfo source).flags := fun _ _ => .inl rfl
  refine readsFlags.within ?_
  refine (readsFlag _ target _).within ?_
  unfold State.plainPlan at answered ⊢
  cases object : (st.typeInfo target).flags.meets TypeFlags.object with
  | false => exact Within.pure (fitsSelf good false)
  | true =>
    simp only [object, Bool.not_true, Bool.false_eq_true, ↓reduceIte] at answered ⊢
    cases primitive : (st.typeInfo source).flags.meets TypeFlags.primitive with
    | true =>
      simp only [primitive, ↓reduceIte] at answered ⊢
      refine (looks.apparent source (wrapperPlain resolved primitive)).within ?_
      by_cases same : st.wrapperOf source = source
      · simp only [same, ↓reduceIte]
        exact Within.pure (fitsSelf good false)
      · simp only [same, ↓reduceIte] at answered ⊢
        exact relatedObjects resolved looks written (wrapperNoUnion resolved plainS) plainT answered
    | false =>
      simp only [primitive, Bool.false_eq_true, ↓reduceIte] at answered ⊢
      cases flagged : (st.typeInfo source).flags.meets TypeFlags.object with
      | true =>
        simp only [flagged, ↓reduceIte] at answered ⊢
        exact relatedObjects resolved looks written plainS plainT answered
      | false => exact Within.pure (fitsSelf good false)

theorem relatedSome {types : List TypeId} (ask : TypeId → RelationKey)
    (answered : Answered st inv enough good opened answer q explain
      (Plan.any (fun p => .ask (ask p)) types).questions) :
    Within st inv enough opened
      (anyHolds (fun p => do return (← q.relate (ask p).1 false (ask p).2.1 (ask p).2.2).holds) types)
      (Fits good ((Plan.any (fun p => .ask (ask p)) types).holds answer)) := by
  refine withinAnyHolds fun p member => Answered.asked answered ?_
  exact questionsAny (f := fun p => .ask (ask p)) member (List.mem_singleton.mpr rfl)

theorem relatedEach {types : List TypeId} (ask : TypeId → RelationKey)
    (answered : Answered st inv enough good opened answer q explain
      (Plan.all (fun p => .ask (ask p)) types).questions) :
    Within st inv enough opened
      (firstRefusal (fun p => q.relate (ask p).1 explain (ask p).2.1 (ask p).2.2) types)
      fun o => Fits good ((Plan.all (fun p => .ask (ask p)) types).holds answer) o.holds := by
  refine withinFirstRefusal fun p member => answered (ask p) ?_ explain id
  exact questionsAll (f := fun p => .ask (ask p)) member (List.mem_singleton.mpr rfl)

/- A target that is a union: some part of it has to take the source. -/
theorem relatedUnion (written : Written st inv enough opened q explain) {r : Relation}
    {source target : TypeId} {types : List TypeId}
    (answered : Answered st inv enough good opened answer q explain
      (Plan.any (fun t => .ask (r, source, t)) types).questions) :
    Within st inv enough opened (do
        if (← anyHolds (fun t => do return (← q.relate r false source t).holds) types) then
          return { holds := true }
        q.refuse explain source target .notAssignable)
      fun o => Fits good ((Plan.any (fun t => .ask (r, source, t)) types).holds answer) o.holds := by
  refine (relatedSome (fun p => (r, source, p)) answered).bind fun b fits => ?_
  cases b with
  | true => exact Within.pure fits
  | false => exact (refusesWithin written _ _ _).weaken id fun o no => no ▸ fits

theorem relatedStructures (resolved : st.Resolved) (looks : Looks st enough q)
    (written : Written st inv enough opened q explain) {r : Relation} {source target : TypeId}
    (answered : Answered st inv enough good opened answer q explain
      (st.structurePlan r source target).questions) :
    Within st inv enough opened (q.structurallyRelated r explain source target)
      fun o => Fits good ((st.structurePlan r source target).holds answer) o.holds := by
  refine (readsForm _ source).within ?_
  refine (readsForm _ target).within ?_
  unfold State.structurePlan at answered ⊢
  revert answered
  cases formS : (st.typeInfo source).form with
  | union types =>
    intro answered
    by_cases comparable : r = .comparable
    · simp only [comparable, ↓reduceIte] at answered ⊢
      exact (relatedSome (fun p => (.comparable, p, target)) answered).bind fun b fits => Within.pure fits
    · simp only [comparable, ↓reduceIte] at answered ⊢
      exact relatedEach (fun p => (r, p, target)) answered
  | typeParameter bound =>
    cases formT : (st.typeInfo target).form with
    | union types => exact relatedUnion written
    | _ =>
      cases bound with
      | none => exact fun _ => Within.pure (fitsSelf good false)
      | some bound =>
        exact fun answered => answered (r, bound, target) (List.mem_singleton.mpr rfl) explain id
  | intersection given =>
    cases formT : (st.typeInfo target).form with
    | union types => exact relatedUnion written
    | typeParameter bound => exact fun _ => Within.pure (fitsSelf good false)
    | intersection types => exact relatedEach (fun p => (r, source, p))
    | _ =>
      intro answered
      have left := fun k inside => answered k (List.mem_append_left _ inside)
      have right := fun k inside => answered k (List.mem_append_right _ inside)
      refine Within.either (p := id) (relatedSome (fun p => (r, p, target)) left) ?_ ?_
      · rintro _ rfl
        exact Within.pure rfl
      · rintro _ rfl
        exact relatedObjects resolved looks written (by simp [formS]) (by simp [formT]) right
  | _ =>
    cases formT : (st.typeInfo target).form with
    | union types => exact relatedUnion written
    | typeParameter bound => exact fun _ => Within.pure (fitsSelf good false)
    | intersection types => exact relatedEach (fun p => (r, source, p))
    | _ => exact relatedPlain resolved looks written (by simp [formS]) (by simp [formT])

end Plans

section Answers

variable {st : State}

/-- Levels enough for a question while others are open: `list` has all questions that can come up. -/
def Enough (st : State) (n : Nat) (opened : List RelationKey) (k : RelationKey) : Prop :=
  ∃ list : List RelationKey, k ∈ list ∧ (∀ a ∈ list, ∀ b, st.Raises a b → b ∈ list) ∧
    opened ⊆ list ∧ list.length + 4 ≤ n + opened.length

theorem Enough.deep {n : Nat} {opened : List RelationKey} {k : RelationKey} (distinct : opened.Nodup)
    (enough : Enough st n opened k) : 4 ≤ n := by
  obtain ⟨list, -, -, inside, bound⟩ := enough
  have fewer : opened.length ≤ list.length := List.Nodup.length_le_of_subset distinct inside
  omega

theorem Enough.raised {n : Nat} {opened : List RelationKey} {k k' : RelationKey}
    (enough : Enough st (n + 1) opened k) (raised : st.Raises k k') : Enough st n (k :: opened) k' := by
  obtain ⟨list, member, closed, inside, bound⟩ := enough
  refine ⟨list, closed k member k' raised, closed, List.cons_subset.mpr ⟨member, inside⟩, ?_⟩
  simp only [List.length_cons]
  omega

instance : Std.TransOrd Relation where
  isLE_trans {a b c} := by cases a <;> cases b <;> cases c <;> decide
  eq_swap {a b} := by cases a <;> cases b <;> decide

instance : Std.TransCmp RelationKey.order := by
  unfold RelationKey.order
  infer_instance

theorem orderEq {a b : RelationKey} (same : RelationKey.order a b = .eq) : a = b := by
  simp only [RelationKey.order, compareLex_eq_eq, compareOn, Nat.compare_eq_eq] at same
  obtain ⟨relation, source, target⟩ := same
  refine Prod.ext ?_ (Prod.ext source target)
  revert relation
  cases a.1 <;> cases b.1 <;> decide

theorem faithfulInsert {kept : KeptAnswers} {k : RelationKey} {b : Bool}
    (faithful : Faithful st kept) (fits : Fits (st.Steady k) (st.truth k) b) :
    Faithful st (kept.insert k b) := by
  intro other answer found
  rw [Std.TreeMap.getElem?_insert] at found
  split at found
  · rename_i same
    cases orderEq same
    cases Option.some.inj found
    exact fits
  · exact faithful other answer found

/-- The state once a question has been answered. -/
def State.answered (s : State) (k : RelationKey) (b : Bool) : State :=
  { s with relating := s.relating.erase k, relations := s.relations.insert k b }

theorem keptRelatedRun (q : Queries) (r : Relation) (explain : Bool) (source target : TypeId)
    (kept : KeptAnswers) (opened : List RelationKey) :
    (q.keptRelated r explain source target).run (st.asking kept opened) =
      match (if explain then none else kept[(r, source, target)]?) with
      | some b => .ok ({ holds := b }, st.asking kept opened)
      | none =>
        if opened.contains (r, source, target) then .ok ({ holds := true }, st.asking kept opened)
        else do
          let (o, s) ← (q.structurallyRelated r explain source target).run
            (st.asking kept ((r, source, target) :: opened))
          if explain then return (o, { s with relating := s.relating.erase (r, source, target) })
          else return (o, s.answered (r, source, target) o.holds) := by
  unfold Queries.keptRelated
  rw [StateT.run_bind]
  show (match (if explain = true then none else kept[(r, source, target)]?) with
    | some b => _ | none => _ : Check Outcome).run _ = _
  cases (if explain = true then none else kept[(r, source, target)]?) with
  | some b => rfl
  | none =>
    rw [StateT.run_bind]
    show (if opened.contains (r, source, target) = true then _ else _ : Check Outcome).run _ = _
    cases opened.contains (r, source, target) with
    | true => rfl
    | false => cases explain <;> rfl

section Kept

variable {inv : KeptAnswers → Prop} {enough good : Prop} {opened : List RelationKey}
  {answer : RelationKey → Bool} {q : Queries} {explain : Bool} {r : Relation} {source target : TypeId}

/- An open question is looked into under itself. -/
theorem keptRelatedWithin (resolved : st.Resolved) (looks : Looks st enough q)
    (written : Written st inv enough ((r, source, target) :: opened) q explain)
    (known : explain = false → ∀ kept b, inv kept → kept[(r, source, target)]? = some b →
      Fits good ((st.structurePlan r source target).holds answer) b)
    (repeated : (r, source, target) ∈ opened →
      Fits good ((st.structurePlan r source target).holds answer) true)
    (keeps : explain = false → ∀ kept b, inv kept →
      Fits good ((st.structurePlan r source target).holds answer) b → inv (kept.insert (r, source, target) b))
    (below : (r, source, target) ∉ opened →
      Answered st inv enough good ((r, source, target) :: opened) answer q explain
        (st.structurePlan r source target).questions) :
    Within st inv enough opened (q.keptRelated r explain source target)
      fun o => Fits good ((st.structurePlan r source target).holds answer) o.holds := by
  intro kept sound
  rw [keptRelatedRun]
  cases found : (if explain then none else kept[(r, source, target)]?) with
  | some b =>
    cases explain with
    | true => cases found
    | false => exact .inl ⟨_, kept, rfl, sound, known rfl kept b sound found⟩
  | none =>
    by_cases open' : (r, source, target) ∈ opened
    · simp only [List.contains_iff_mem.mpr open', ↓reduceIte]
      exact .inl ⟨_, kept, rfl, sound, repeated open'⟩
    · have absent : opened.contains (r, source, target) = false := by simpa using open'
      simp only [absent, Bool.false_eq_true, ↓reduceIte]
      rcases relatedStructures resolved looks written (below open') kept sound with
        ⟨o, after, ok, sound, fits⟩ | ⟨short, fault, failed⟩
      · rw [ok]
        cases explain with
        | true =>
          refine .inl ⟨o, after, ?_, sound, fits⟩
          show Except.ok (o, _) = _
          simp [State.asking]
        | false =>
          refine .inl ⟨o, after.insert (r, source, target) o.holds, ?_, keeps rfl after _ sound fits, fits⟩
          show Except.ok (o, _) = _
          simp [State.answered, State.asking]
      · rw [failed]
        exact .inr ⟨short, fault, rfl⟩

/- Identity, flags and excess properties come before the structure of the types. -/
theorem computeRelatedWithin (looks : Looks st enough q)
    (kept : st.plan (r, source, target) = st.structurePlan r source target →
      Within st inv enough opened (q.keptRelated r explain source target)
        fun o => Fits good ((st.plan (r, source, target)).holds answer) o.holds) :
    Within st inv enough opened (q.computeRelated r explain source target)
      fun o => Fits good ((st.plan (r, source, target)).holds answer) o.holds := by
  have known (b : Bool) (planned : st.plan (r, source, target) = .known b) :
      Fits good ((st.plan (r, source, target)).holds answer) b := by
    rw [planned]
    exact fitsSelf good b
  unfold Queries.computeRelated
  by_cases same : source = target
  · simp only [same, ↓reduceIte] at known ⊢
    exact Within.pure (known true (by simp [State.plan]))
  · simp only [same, ↓reduceIte]
    refine Within.get fun _ => ?_
    show Within st inv _ opened (match st.simplyRelated r source target with | some b => _ | none => _) _
    cases simple : st.simplyRelated r source target with
    | some b => exact Within.pure (known b (by simp [State.plan, same, simple]))
    | none =>
      refine Within.get fun _ => ?_
      show Within st inv _ opened
        (if (decide (r = .assignable) && st.isFresh source) = true then _ else _) _
      cases fresh : decide (r = .assignable) && st.isFresh source with
      | false => exact kept (by simp [State.plan, same, simple, fresh])
      | true =>
        have isFresh : st.isFresh source = true := (Bool.and_eq_true .. ▸ fresh).2
        refine (readsExcess looks target isFresh).within ?_
        cases excess : st.excess? source target with
        | some x => exact Within.pure (known false (by simp [State.plan, same, simple, fresh, excess]))
        | none => exact kept (by simp [State.plan, same, simple, excess])

end Kept

theorem relateFits (resolved : st.Resolved) (n : Nat) (k : RelationKey) (opened : List RelationKey)
    (distinct : opened.Nodup) (leads : ∀ x ∈ opened, Relation.TransGen st.Raises x k) :
    Within st (Faithful st) (Enough st n opened k) opened
      ((Queries.ofDepth n).relate k.1 false k.2.1 k.2.2)
      fun o => Fits (st.Steady k) (st.truth k) o.holds := by
  induction n generalizing k opened with
  | zero =>
    intro kept faithful
    exact .inr ⟨fun enough => by have := enough.deep distinct; omega, _, rfl⟩
  | succ n ih =>
    obtain ⟨r, source, target⟩ := k
    have looks : Looks st (Enough st (n + 1) opened (r, source, target)) (Queries.ofDepth n) :=
      looksDepth resolved fun enough => by
        have := enough.deep distinct
        omega
    rw [← st.truthPlan]
    refine computeRelatedWithin looks fun planned => ?_
    have value : (st.structurePlan r source target).holds st.truth = st.truth (r, source, target) := by
      rw [← planned, st.truthPlan]
    rw [planned]
    refine keptRelatedWithin resolved looks (by simp [Written]) ?_ ?_ ?_ ?_
    · intro _ kept b faithful found
      rw [value]
      exact faithful _ b found
    · -- The question has led back to itself: where it is steady it holds.
      intro repeated
      refine ⟨fun _ => rfl, fun steady => ?_⟩
      rw [value]
      exact ((st.truthIff _).mpr (steady _ .refl (leads _ repeated))).symm
    · intro _ kept b faithful fits
      rw [value] at fits
      exact faithfulInsert faithful fits
    · rw [← planned]
      intro fresh k' raised e plain
      cases e with
      | true => cases plain rfl
      | false =>
        refine (ih k' ((r, source, target) :: opened) (List.nodup_cons.mpr ⟨fresh, distinct⟩) ?_).weaken
          (fun enough => enough.raised raised) fun o fits => fits.narrow fun steady => steady.raised raised
        intro x member
        rcases List.mem_cons.mp member with rfl | member
        · exact .single raised
        · exact (leads x member).tail raised

/-- Asks some questions one after the other. -/
def Queries.askAll (q : Queries) (ks : List RelationKey) : Check Unit :=
  ks.forM fun k => discard <| q.relate k.1 false k.2.1 k.2.2

/-- The answer to one question. -/
def Queries.reply (q : Queries) (s : State) (k : RelationKey) : Except Fault Bool :=
  (fun (o, _) => o.holds) <$> (q.relate k.1 false k.2.1 k.2.2).run s

theorem askedWithin (resolved : st.Resolved) (n : Nat) (ks : List RelationKey) :
    Within st (Faithful st) False [] ((Queries.ofDepth n).askAll ks) fun _ => True := by
  induction ks with
  | nil => exact Within.pure trivial
  | cons k ks ih =>
    have first := relateFits resolved n k [] List.nodup_nil (by simp)
    have done : Within st (Faithful st) False [] (discard ((Queries.ofDepth n).relate k.1 false k.2.1 k.2.2))
        fun _ => True :=
      (first.weaken False.elim fun _ _ => trivial).bind fun _ _ => Within.pure trivial
    exact done.bind fun _ _ => ih

theorem replyFits (resolved : st.Resolved) {n : Nat} {k : RelationKey}
    {kept : KeptAnswers} (faithful : Faithful st kept) :
    (∃ b, (Queries.ofDepth n).reply (st.asking kept []) k = .ok b ∧ Fits (st.Steady k) (st.truth k) b) ∨
      (¬Enough st n [] k ∧ ∃ f, (Queries.ofDepth n).reply (st.asking kept []) k = .error f) := by
  rcases relateFits resolved n k [] List.nodup_nil (by simp) kept faithful with
    ⟨o, after, ok, -, fits⟩ | ⟨short, fault, failed⟩
  · refine .inl ⟨o.holds, ?_, fits⟩
    unfold Queries.reply
    rw [ok]
    rfl
  · refine .inr ⟨short, fault, ?_⟩
    unfold Queries.reply
    rw [failed]
    rfl

end Answers

/-- Earlier questions leave an answer as it is without them, if it has to be yes or if no question
that it leads to and that leads back to itself fails. The answer is given if there are levels
enough for the questions that can come up. -/
theorem earlierQuestionsKeepAnswer {st st' : State} {history : List RelationKey} {k : RelationKey}
    (resolved : st.Resolved) (unasked : st.relations = {}) (idle : st.relating = [])
    (asked : (answers.askAll history).run st = .ok ((), st')) (sound : st.Holds k ∨ st.Steady k) :
    (∀ b b', answers.reply st' k = .ok b → answers.reply st k = .ok b' → b = b') ∧
      (Enough st depthLimit [] k → ∃ b, answers.reply st' k = .ok b ∧ answers.reply st k = .ok b) := by
  have start : st = st.asking {} [] := by
    unfold State.asking
    rw [← unasked, ← idle]
  have nothing : Faithful st {} := by
    intro other b found
    simp at found
  have right : ∀ {b}, Fits (st.Steady k) (st.truth k) b → b = st.truth k := by
    intro b fits
    rcases sound with holds | steady
    · have yes := (st.truthIff k).mpr holds
      rw [fits.1 yes, yes]
    · exact fits.2 steady
  obtain ⟨kept, rfl, faithful⟩ : ∃ kept, st' = st.asking kept [] ∧ Faithful st kept := by
    rcases askedWithin resolved depthLimit history {} nothing with
      ⟨_, after, ok, faithful, -⟩ | ⟨-, fault, failed⟩
    · rw [← start] at ok
      have same := Except.ok.inj (asked.symm.trans ok)
      exact ⟨after, (Prod.mk.inj same).2, faithful⟩
    · rw [← start] at failed
      cases asked.symm.trans failed
  have before := replyFits resolved (n := depthLimit) (k := k) nothing
  have after := replyFits resolved (n := depthLimit) (k := k) faithful
  rw [← start] at before
  constructor
  · intro b b' given given'
    rcases after with ⟨c, ok, fits⟩ | ⟨-, fault, failed⟩
    · rcases before with ⟨c', ok', fits'⟩ | ⟨-, fault, failed⟩
      · cases given.symm.trans ok
        cases given'.symm.trans ok'
        rw [right fits, right fits']
      · cases given'.symm.trans failed
    · cases given.symm.trans failed
  · intro enough
    rcases after with ⟨c, ok, fits⟩ | ⟨short, -⟩
    · rcases before with ⟨c', ok', fits'⟩ | ⟨short, -⟩
      · exact ⟨c, ok, by rw [right fits, ← right fits']; exact ok'⟩
      · exact absurd enough short
    · exact absurd enough short

/-- Five interfaces: `A` and `B` mention each other, as do `C` and `D`, and `E` mentions itself. -/
def circles : State :=
  let interface (properties : List (String × SymbolId)) : TypeInfo :=
    { flags := TypeFlags.object, form := .interface [], members := some { properties } }
  let property (name : String) (type : TypeId) : Symbol :=
    { flags := SymbolFlags.property, name, type := some type }
  { State.initial with
    types := initialTypes ++ #[interface [("x", 1), ("y", 2)], interface [("x", 3)],
      interface [("x", 4), ("y", 5)], interface [("x", 6)], interface [("x", 7)]]
    symbols := State.initial.symbols ++ #[property "x" 13, property "y" numberType, property "x" 12,
      property "x" 15, property "y" stringType, property "x" 14, property "x" 16] }

theorem typeInfoEvery {st : State} {P : TypeInfo → Prop} (each : ∀ info ∈ st.types, P info)
    (other : P (intrinsic TypeFlags.any "any")) (t : TypeId) : P (st.typeInfo t) := by
  unfold State.typeInfo
  rw [Array.getD_eq_getD_getElem?]
  cases found : st.types[t]? with
  | none => exact other
  | some info => exact each info (Array.mem_of_getElem? found)

/-- A table entry that questions can look at: its members are known, only symbols below a number are
among them, and it is neither called nor a type parameter. -/
structure TypeInfo.Listed (count : Nat) (info : TypeInfo) : Prop where
  object : info.isObject = true → info.members.isSome = true
  intersection : ∀ types, info.form = .intersection types → info.members.isSome = true
  parameter : ∀ bound, info.form ≠ .typeParameter bound
  properties : ∀ x ∈ (info.members.getD {}).properties.map (·.2), x < count
  signatures : (info.members.getD {}).signatures = []

/-- Tables in which everything has been worked out, without interfaces among the symbols. -/
theorem resolvedOfTables {st : State} (types : ∀ info ∈ st.types, info.Listed st.symbols.size)
    (symbols : ∀ x < st.symbols.size, (st.symbol x).type.isSome = true ∧
      (st.symbol x).flags.meets SymbolFlags.interface = false)
    (empty : (st.typeInfo emptyObjectType).form = .anonymous {}) : st.Resolved := by
  have listed : ∀ t, (st.typeInfo t).Listed st.symbols.size :=
    typeInfoEvery types ⟨by decide, by simp [intrinsic], by simp [intrinsic], by simp [intrinsic], rfl⟩
  refine ⟨fun t known => ?_, fun t x member => ?_, fun t g member => ?_, fun x flagged => ?_,
    fun t bound form => ?_, empty⟩
  · rcases known with object | ⟨parts, form⟩
    · exact (listed t).object object
    · exact (listed t).intersection parts form
  · exact (symbols x ((listed t).properties x member)).1
  · rw [State.signaturesOf, State.membersOf, (listed t).signatures] at member
    cases member
  · by_cases small : x < st.symbols.size
    · rw [(symbols x small).2] at flagged
      contradiction
    · have none : st.symbol x = { flags := 0, name := "" } := by
        unfold State.symbol
        rw [Array.getD_eq_getD_getElem?, Array.getElem?_eq_none (Nat.le_of_not_lt small)]
        rfl
      rw [none] at flagged
      cases flagged
  · exact absurd form ((listed t).parameter bound)

theorem circlesResolved : circles.Resolved := by
  refine resolvedOfTables (fun info member => ?_) (by decide) rfl
  simp only [circles, initialTypes, intrinsic, List.append_toArray, List.cons_append, List.nil_append,
    List.mem_toArray, List.mem_cons, List.not_mem_nil, or_false] at member
  rcases member with rfl | rfl | rfl | rfl | rfl | rfl | rfl | rfl | rfl | rfl | rfl | rfl | rfl | rfl |
    rfl | rfl | rfl <;> exact ⟨by decide, by simp, by simp, by decide, rfl⟩

theorem okOfSome {α : Type} {result : Except Fault α} {a : α} (given : result.toOption = some a) :
    result = .ok a := by
  cases result with
  | error fault => cases given
  | ok b =>
    cases Option.some.inj given
    rfl

/- `A` is an `E` and so is `B`: the two questions bear each other out. After the question whether `A`
is a `C`, which is not, the answer is still given and the same. -/
theorem circleKeepsAnswer : ∃ st' b, (answers.askAll [(.assignable, 12, 14)]).run circles = .ok ((), st') ∧
    answers.reply st' (.assignable, 12, 16) = .ok b ∧
    answers.reply circles (.assignable, 12, 16) = .ok b := by
  have raised : ∀ a ∈ [(Relation.assignable, 12, 16), (.assignable, 13, 16)],
      ∀ b ∈ (circles.plan a).questions, b ∈ [(Relation.assignable, 12, 16), (.assignable, 13, 16)] := by
    decide
  have holds : circles.Holds (.assignable, 12, 16) := by
    refine ⟨fun k => k = (.assignable, 12, 16) || k = (.assignable, 13, 16), fun k member => ?_, rfl⟩
    simp only [Bool.or_eq_true, decide_eq_true_eq] at member
    rcases member with rfl | rfl <;> decide
  have given : ((answers.askAll [(.assignable, 12, 14)]).run circles).toOption.isSome = true := by
    decide
  obtain ⟨⟨_, st'⟩, found⟩ := Option.isSome_iff_exists.mp given
  have asked := okOfSome found
  have kept := earlierQuestionsKeepAnswer circlesResolved rfl rfl asked (.inl holds)
  obtain ⟨b, after, before⟩ := kept.2 ⟨_, List.mem_cons_self .., raised, List.nil_subset _, by decide⟩
  exact ⟨st', b, asked, after, before⟩

/- Whether `B` is a `D` depends on whether `A` is a `C`: while that was open the answer was yes, and
this is kept although `A` is not a `C`. -/
theorem keptAnswerMisleads :
    ¬∀ (st st' : State) (history : List RelationKey) (k : RelationKey), st.Resolved →
      st.relations = {} → st.relating = [] → (answers.askAll history).run st = .ok ((), st') →
      answers.reply st' k = answers.reply st k := by
  intro always
  have fresh : answers.reply circles (.assignable, 13, 15) = .ok false :=
    okOfSome (by decide)
  have later : (do
      let after ← (answers.askAll [(.assignable, 12, 14)]).run circles
      answers.reply after.2 (.assignable, 13, 15)) = .ok true := okOfSome (by decide)
  cases asked : (answers.askAll [(.assignable, 12, 14)]).run circles with
  | error fault =>
    rw [asked] at later
    cases later
  | ok after =>
    rw [asked] at later
    have same := always circles after.2 _ (.assignable, 13, 15) circlesResolved rfl rfl asked
    rw [fresh] at same
    cases later.symm.trans same

/-! Asking whether one type can be assigned to another -/

section Assigning

variable {st : State}

/-- By the rules a value of one type can be given to the other. -/
def State.Accepts (st : State) (a b : TypeId) : Prop := st.Holds (.assignable, a, b)

theorem assignableFits (resolved : st.Resolved) (n : Nat) (a b : TypeId) :
    Within st (Faithful st) (Enough st n [] (.assignable, a, b)) [] ((Queries.ofDepth n).assignable a b)
      (Fits (st.Steady (.assignable, a, b)) (st.truth (.assignable, a, b))) :=
  (relateFits resolved n (.assignable, a, b) [] List.nodup_nil (by simp)).bind fun _ fits => Within.pure fits

theorem acceptsIff {a b : TypeId} {yes : Bool} (steady : st.Steady (.assignable, a, b))
    (fits : Fits (st.Steady (.assignable, a, b)) (st.truth (.assignable, a, b)) yes) : yes = true ↔ st.Accepts a b := by
  rw [State.Accepts, ← st.truthIff, ← fits.2 steady]

/-- Every type is assignable to itself. -/
theorem acceptsSelf (st : State) (t : TypeId) : st.Accepts t t := by
  rw [State.Accepts, ← st.truthIff, ← st.truthPlan]
  unfold Plan.holds
  simp [State.plan]

/-- A question about object types of plain properties is settled after one step. -/
theorem steadyShallow {st : State} {k : RelationKey}
    (shallow : ∀ a ∈ (st.plan k).questions, (st.plan a).questions = []) : st.Steady k := by
  intro far path circle
  -- Nothing comes up in the plan of what comes up in that of `k`.
  have settled (a : RelationKey) (raised : st.Raises k a) (b : RelationKey) : ¬st.Raises a b := by
    unfold State.Raises
    rw [shallow a raised]
    exact List.not_mem_nil
  obtain ⟨next, first, rest⟩ := Relation.TransGen.head'_iff.mp circle
  rcases Relation.ReflTransGen.cases_head path with rfl | ⟨a, raised, onward⟩
  · rcases Relation.ReflTransGen.cases_head rest with rfl | ⟨b, more, -⟩
    · exact absurd first (settled _ first _)
    · exact absurd more (settled _ first _)
  · rcases Relation.ReflTransGen.cases_head onward with rfl | ⟨b, more, -⟩
    · exact absurd first (settled _ raised _)
    · exact absurd more (settled _ raised _)

/-- A mark of which only the number counts. -/
def markAt (id : Nat) : Source.Mark := ⟨id, ⟨⟨1, 1⟩, ⟨1, 1⟩⟩⟩

end Assigning

end Fragment.Typing
