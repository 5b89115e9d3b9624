import Fragment.Proofs.EmissionKept
import Fragment.Proofs.Printing

/-! Questions about what has been worked out.
Where members, the types of symbols and the results of signatures are known, asking for them and for relations between
types changes nothing but the answers that are kept about relations. So nothing is reported. -/
namespace Fragment.Typing

open Check

/-- The same knowledge but for what is kept about relations. -/
def State.Unmoved (st s : State) : Prop := ∃ kept opened, s = st.asking kept opened

section Unmoved

variable {st : State} {enough : Prop} {α β : Type}

theorem State.Unmoved.refl (st : State) : st.Unmoved st := ⟨st.relations, st.relating, rfl⟩

/-- What follows a look at what is known may count on what is found. -/
theorem Reads.thenUnmoved {m : Check α} {f : α → Check β} {v : α} (first : Reads st False m v)
    (rest : Keeps st.Unmoved (f v)) : Keeps st.Unmoved (m >>= f) where
  keeps s b s' unmoved run := by
    obtain ⟨kept, opened, rfl⟩ := unmoved
    obtain ⟨a, t, step, run⟩ := runBind run
    obtain ⟨rfl, rfl⟩ := first.ran step
    exact rest.keeps _ _ _ ⟨kept, opened, rfl⟩ run

theorem Reads.unmoved {m : Check α} {v : α} (reads : Reads st enough m v) : Keeps st.Unmoved m where
  keeps s a s' unmoved run := by
    obtain ⟨kept, opened, rfl⟩ := unmoved
    exact ⟨kept, opened, (reads.ran run).2⟩

theorem getUnmoved {f : State → Check β} (rest : ∀ kept opened, Keeps st.Unmoved (f (st.asking kept opened))) :
    Keeps st.Unmoved (get >>= f) := by
  refine .get fun s unmoved => ?_
  obtain ⟨kept, opened, rfl⟩ := unmoved
  exact rest kept opened

/-- An answer about a relation is kept, or a question is begun or ended. -/
theorem relationsUnmoved (st : State) (relations : State → KeptAnswers) (relating : State → List RelationKey) :
    Keeps st.Unmoved (modify fun s => { s with relations := relations s, relating := relating s }) := by
  refine .modified fun s unmoved => ?_
  obtain ⟨kept, opened, rfl⟩ := unmoved
  exact ⟨_, _, rfl⟩

end Unmoved

section Relations

variable {st : State} {q : Queries} {r : Relation}

theorem refusedUnmoved (source target : TypeId) (message : String → String → Message) :
    Keeps st.Unmoved (q.refuse false source target message) := by
  unfold Queries.refuse
  exact pureKeeps _

variable (resolved : st.Resolved) (looks : Looks st False q)
  [answered : ∀ r source target, Keeps st.Unmoved (q.relate r false source target)]

include resolved looks answered

theorem signatureUnmoved {a b : TypeId} {source target : SignatureId} (given : source ∈ st.signaturesOf a)
    (wanted : target ∈ st.signaturesOf b) : Keeps st.Unmoved (q.signatureRelated r source target) := by
  obtain ⟨s, foundS, resultS, typedS⟩ := resolved.signatures a source given
  obtain ⟨t, foundT, resultT, typedT⟩ := resolved.signatures b target wanted
  refine (readsSignature _ foundS).thenUnmoved ((readsSignature _ foundT).thenUnmoved ?_)
  split
  · exact pureKeeps _
  · refine Keeps.bind (.allHold ?_) fun ok => ?_
    · rintro ⟨x, y⟩ member
      obtain ⟨inS, inT⟩ := List.of_mem_zip member
      refine (looks.valueType x (typedS x inS)).thenUnmoved ((looks.valueType y (typedT y inT)).thenUnmoved ?_)
      infer_instance
    · split
      · exact pureKeeps _
      · refine (looks.result target t foundT resultT).thenUnmoved ((readsFlag _ _ _).thenUnmoved ?_)
        split
        · exact pureKeeps _
        · exact (looks.result source s foundS resultS).thenUnmoved inferInstance

theorem propertyUnmoved {source target : TypeId} {wanted : SymbolId}
    (plain : ∀ types, (st.typeInfo source).form ≠ .union types) (typed : (st.symbol wanted).type.isSome = true) :
    Keeps st.Unmoved (q.propertyRelated r false source target wanted) := by
  refine (readsSymbol _ wanted).thenUnmoved ((looks.property source _ plain).thenUnmoved ?_)
  cases found : st.propertyOf? source (st.symbol wanted).name with
  | none =>
    dsimp only
    split
    · exact pureKeeps _
    · exact refusedUnmoved _ _ _
  | some x =>
    refine (readsSymbol _ x).thenUnmoved ((readsSymbol _ wanted).thenUnmoved ?_)
    split
    · exact refusedUnmoved _ _ _
    · refine (looks.valueType x (propertyTyped resolved found)).thenUnmoved ?_
      refine (looks.valueType wanted typed).thenUnmoved ((answered r _ _).bind fun o => ?_)
      split <;> exact pureKeeps _

theorem membersUnmoved {source target : TypeId} (plainS : ∀ types, (st.typeInfo source).form ≠ .union types)
    (plainT : ∀ types, (st.typeInfo target).form ≠ .union types) :
    Keeps st.Unmoved (q.membersRelated r false source target) := by
  have properties : Keeps st.Unmoved
      (firstRefusal (q.propertyRelated r false source target) (st.propertiesOf target)) :=
    .firstRefusal fun x member => propertyUnmoved resolved looks plainS (resolved.properties target x member)
  refine (readsProperties looks plainT).thenUnmoved (properties.bind fun o => ?_)
  split
  · exact pureKeeps _
  · refine (readsSignatures looks plainT).thenUnmoved ?_
    split
    · exact pureKeeps _
    · have signatures : Keeps st.Unmoved
          (allHold (fun t => anyHolds (q.signatureRelated r · t) (st.signaturesOf source)) (st.signaturesOf target)) :=
        .allHold fun t wanted => .anyHolds fun s given => signatureUnmoved resolved looks given wanted
      refine (readsSignatures looks plainS).thenUnmoved (signatures.bind fun covered => ?_)
      split
      · exact pureKeeps _
      · exact refusedUnmoved _ _ _

theorem objectUnmoved {source target : TypeId} (plainS : ∀ types, (st.typeInfo source).form ≠ .union types)
    (plainT : ∀ types, (st.typeInfo target).form ≠ .union types) :
    Keeps st.Unmoved (q.objectRelated r false source target) := by
  have members := membersUnmoved (r := r) resolved looks plainS plainT
  refine (readsForm _ source).thenUnmoved ((readsForm _ target).thenUnmoved ?_)
  split
  · split
    · refine .bind inferInstance fun o => ?_
      split
      · exact pureKeeps _
      · exact (refusedUnmoved _ _ _).bind fun _ => pureKeeps _
    · exact members
  · exact answered r _ _
  · exact pureKeeps _
  · exact members

/-- Types that are neither unions, intersections nor type parameters. -/
theorem plainUnmoved {source target : TypeId} (plainS : ∀ types, (st.typeInfo source).form ≠ .union types)
    (plainT : ∀ types, (st.typeInfo target).form ≠ .union types) : Keeps st.Unmoved (do
      let s ← flags source
      if !(← hasFlag target TypeFlags.object) then return { holds := false }
      if s.meets TypeFlags.primitive then
        let apparent ← q.apparent source
        if apparent = source then return { holds := false }
        q.objectRelated r false apparent target
      else if s.meets TypeFlags.object then q.objectRelated r false source target
      else return { holds := false }) := by
  have flags : Reads st False (Check.flags source) (st.typeInfo source).flags := fun _ _ => .inl rfl
  have object := objectUnmoved (r := r) resolved looks plainS plainT
  refine flags.thenUnmoved ((readsFlag _ target _).thenUnmoved ?_)
  split
  · exact pureKeeps _
  · split
    · refine (looks.apparent source (wrapperPlain resolved ‹_›)).thenUnmoved ?_
      split
      · exact pureKeeps _
      · exact objectUnmoved resolved looks (wrapperNoUnion resolved plainS) plainT
    · split
      · exact object
      · exact pureKeeps _

theorem structureUnmoved (source target : TypeId) : Keeps st.Unmoved (q.structurallyRelated r false source target) := by
  have someTarget (types : List TypeId) : Keeps st.Unmoved (do
      if (← anyHolds (fun t => do return (← q.relate r false source t).holds) types) then return { holds := true }
      q.refuse false source target .notAssignable) := by
    refine .bind inferInstance fun holds => ?_
    split
    · exact pureKeeps _
    · exact refusedUnmoved _ _ _
  refine (readsForm _ source).thenUnmoved ((readsForm _ target).thenUnmoved ?_)
  cases formS : (st.typeInfo source).form with
  | union types =>
    dsimp only
    split <;> infer_instance
  | typeParameter bound =>
    cases formT : (st.typeInfo target).form with
    | union types => exact someTarget types
    | _ => cases bound <;> dsimp only <;> infer_instance
  | intersection given =>
    cases formT : (st.typeInfo target).form with
    | union types => exact someTarget types
    | typeParameter bound => exact pureKeeps _
    | intersection types => exact firstRefusalKeeps _ _
    | _ =>
      refine .bind inferInstance fun holds => ?_
      split
      · exact pureKeeps _
      · exact objectUnmoved resolved looks (by simp [formS]) (by simp [formT])
  | _ =>
    cases formT : (st.typeInfo target).form with
    | union types => exact someTarget types
    | typeParameter bound => exact pureKeeps _
    | intersection types => exact firstRefusalKeeps _ _
    | _ => exact plainUnmoved resolved looks (by simp [formS]) (by simp [formT])

theorem computeRelatedUnmoved (source target : TypeId) : Keeps st.Unmoved (q.computeRelated r false source target) := by
  have structures := structureUnmoved (r := r) resolved looks source target
  have kept : Keeps st.Unmoved (q.keptRelated r false source target) := by
    have begun := relationsUnmoved st (·.relations) fun s => (r, source, target) :: s.relating
    have ended := relationsUnmoved st (·.relations) fun s => s.relating.erase (r, source, target)
    have noted (holds : Bool) :=
      relationsUnmoved st (fun s => s.relations.insert (r, source, target) holds) (·.relating)
    unfold Queries.keptRelated
    refine .bind inferInstance fun s => ?_
    simp only [Bool.false_eq_true, ↓reduceIte]
    cases s.relations[(r, source, target)]? with
    | some b => exact pureKeeps _
    | none =>
      refine .bind inferInstance fun s => ?_
      split
      · exact pureKeeps _
      · refine begun.bind fun _ => structures.bind fun o => ended.bind fun _ => ?_
        exact (noted o.holds).bind fun _ => pureKeeps _
  unfold Queries.computeRelated
  split
  · exact pureKeeps _
  · refine getUnmoved fun _ _ => ?_
    split
    · exact pureKeeps _
    · refine getUnmoved fun _ _ => ?_
      split
      next fresh =>
        have isFresh : st.isFresh source = true := (Bool.and_eq_true .. ▸ fresh).2
        refine (readsExcess looks target isFresh).thenUnmoved ?_
        split
        · exact pureKeeps _
        · exact kept
      next => exact kept

end Relations

/-- A question about a relation changes only what is kept about relations, at every level. -/
theorem relateUnmoved {st : State} (resolved : st.Resolved) (n : Nat) (r : Relation) (source target : TypeId) :
    Keeps st.Unmoved ((Queries.ofDepth n).relate r false source target) := by
  induction n generalizing r source target with
  | zero => exact ⟨fun _ _ _ _ run => by cases run⟩
  | succ n ih => exact computeRelatedUnmoved resolved (looksDepth resolved False.elim) source target

end Fragment.Typing
