import Fragment.Proofs.ObjectsApart

/-! Replies after any questions, and tables on which every question can be worked out. -/
namespace Fragment.Typing

section Replies

variable {st st' : State} {history : List RelationKey}

/-- After any questions an answer fits, and there is one if there are levels enough. -/
theorem repliesFit (resolved : st.Resolved) (unasked : st.relations = {}) (idle : st.relating = [])
    (asked : (answers.askAll history).run st = .ok ((), st')) (k : RelationKey) :
    (∀ b, answers.reply st' k = .ok b → Fits (st.Steady k) (st.truth k) b) ∧
      (Enough st depthLimit [] k → ∃ b, answers.reply st' k = .ok b) := by
  obtain ⟨kept, rfl, faithful⟩ := askedFaithful resolved unasked idle asked
  rcases replyFits resolved (n := depthLimit) (k := k) faithful with ⟨b, ok, fits⟩ | ⟨short, fault, failed⟩
  · refine ⟨fun b' given => ?_, fun _ => ⟨b, ok⟩⟩
    cases given.symm.trans ok
    exact fits
  · exact ⟨fun b given => (nomatch given.symm.trans failed), fun enough => absurd enough short⟩

/-- Whatever is asked before, the question is answered with `v`, if there are levels enough. -/
def State.Settles (st : State) (k : RelationKey) (v : Bool) : Prop :=
  ∀ history st', (answers.askAll history).run st = .ok ((), st') →
    (∀ b, answers.reply st' k = .ok b → b = v) ∧ (Enough st depthLimit [] k → answers.reply st' k = .ok v)

/-- What holds is answered with yes. -/
theorem settlesOfHolds (resolved : st.Resolved) (unasked : st.relations = {}) (idle : st.relating = [])
    {k : RelationKey} (holds : st.Holds k) : st.Settles k true := by
  intro history st' asked
  obtain ⟨fits, given⟩ := repliesFit resolved unasked idle asked k
  have yes (b : Bool) (ok : answers.reply st' k = .ok b) : b = true := (fits b ok).1 ((st.truthIff k).mpr holds)
  refine ⟨yes, fun enough => ?_⟩
  obtain ⟨b, ok⟩ := given enough
  exact yes b ok ▸ ok

/-- What does not depend on the order of questions is answered by the rules. -/
theorem settlesOfSteady (resolved : st.Resolved) (unasked : st.relations = {}) (idle : st.relating = [])
    {k : RelationKey} (steady : st.Steady k) : st.Settles k (st.truth k) := by
  intro history st' asked
  obtain ⟨fits, given⟩ := repliesFit resolved unasked idle asked k
  refine ⟨fun b ok => (fits b ok).2 steady, fun enough => ?_⟩
  obtain ⟨b, ok⟩ := given enough
  exact (fits b ok).2 steady ▸ ok

/-- Where all that a question leads to holds, nothing is left to the order of questions. -/
theorem steadyOfClosed {list : List RelationKey} {k : RelationKey}
    (closed : ∀ a ∈ list, ∀ b ∈ (st.plan a).questions, b ∈ list) (holds : ∀ a ∈ list, st.Holds a)
    (member : k ∈ list) : st.Steady k := by
  intro far path circle
  refine holds far ?_
  clear circle
  induction path with
  | refl => exact member
  | tail _ raised inside => exact closed _ inside _ raised

end Replies

section Tables

/-- The symbol's type has been worked out. -/
def State.typed (st : State) (x : SymbolId) : Bool := (st.symbol x).type.isSome

/-- The signature is known with the types of its parameters and of its result. -/
def State.called (st : State) (g : SignatureId) : Bool :=
  (st.signature? g).any fun sig => sig.result.isSome && sig.parameters.all st.typed

/-- All that questions about a type look at has been worked out. -/
def State.worked (st : State) (info : TypeInfo) : Bool :=
  let m := info.members.getD {}
  (m.properties.all fun p => st.typed p.2) && m.signatures.all st.called &&
    match info.form with
    | .typeParameter _ => false
    | .intersection _ => info.members.isSome
    | _ => !info.isObject || info.members.isSome

/-- Whether the tables have everything that questions look at. -/
def State.tablesWorked (st : State) : Bool :=
  st.types.all st.worked &&
    st.symbols.all fun x => !x.flags.meets SymbolFlags.interface || x.declaredType.isSome

theorem resolvedOfWorked {st : State} (worked : st.tablesWorked = true)
    (empty : (st.typeInfo emptyObjectType).form = .anonymous {}) : st.Resolved := by
  obtain ⟨types, symbols⟩ := (Bool.and_eq_true ..).mp worked
  have entry : ∀ t, st.worked (st.typeInfo t) = true :=
    typeInfoEvery (fun info member => Array.all_eq_true_iff_forall_mem.mp types info member) rfl
  have inner (t : TypeId) : (st.propertiesOf t).all st.typed = true ∧ (st.signaturesOf t).all st.called = true := by
    have known := entry t
    simp only [State.worked, Bool.and_eq_true] at known
    refine ⟨?_, known.1.2⟩
    rw [State.propertiesOf, List.all_map]
    exact known.1.1
  refine ⟨fun t known => ?_, fun t x member => ?_, fun t g member => ?_, fun x flagged => ?_,
    fun t bound form => ?_, empty⟩
  · have last := (Bool.and_eq_true .. ▸ entry t).2
    rcases known with object | ⟨parts, form⟩
    · split at last
      · cases last
      · exact last
      · simpa [object] using last
    · simpa [form] using last
  · exact List.all_eq_true.mp (inner t).1 x member
  · have known := List.all_eq_true.mp (inner t).2 g member
    unfold State.called at known
    cases found : st.signature? g with
    | none => simp [found] at known
    | some sig =>
      simp only [found, Option.any_some, Bool.and_eq_true, List.all_eq_true] at known
      exact ⟨sig, rfl, known⟩
  · by_cases small : x < st.symbols.size
    · have known := Array.all_eq_true_iff_forall_mem.mp symbols (st.symbol x) (by
        simp [State.symbol, Array.getD_eq_getD_getElem?, small])
      simpa [flagged] using known
    · have none : st.symbol x = { flags := 0, name := "" } := by
        simp [State.symbol, Array.getD_eq_getD_getElem?, Array.getElem?_eq_none (Nat.le_of_not_lt small)]
      rw [none] at flagged
      cases flagged
  · have known := entry t
    simp [State.worked, form] at known

end Tables

end Fragment.Typing
