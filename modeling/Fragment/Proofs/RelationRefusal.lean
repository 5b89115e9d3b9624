import Fragment.Proofs.RelationCache

/-! Refusals are justified.
A set of questions is borne out if one step of the rules affirms each of them when the set itself
answers the questions that come up. Whatever was asked before, was broken off or is still open, no
question of such a set is refused: no kept answer and no open question ever stands against it. -/
namespace Fragment.Typing

/-- The queries with questions about two types left to a set. -/
def Queries.answering (q : Queries) (R : RelationKey → Bool) : Queries :=
  { q with relate := fun r _ source target => return { holds := R (r, source, target) } }

namespace State

def StepAffirms (st : State) (R : RelationKey → Bool) (k : RelationKey) : Prop :=
  ∃ o s, ((answers.answering R).computeRelated k.1 false k.2.1 k.2.2).run (st.asking {} []) = .ok (o, s) ∧
    o.holds = true

def BornOut (st : State) (R : RelationKey → Bool) : Prop := ∀ k, R k = true → st.StepAffirms R k

/-- Types can be written as text without making new ones. -/
def TextsMade (st : State) : Prop := ∀ n t kept opened text s,
  ((Queries.ofDepth n).textOf t).run (st.asking kept opened) = .ok (text, s) → s = st.asking kept opened

end State

section Steps

variable {st : State}

/- One step of the code, with a set for the answers below, does what the plan says. The only answer
that the step keeps is its own. -/
theorem stepFollowsPlan (resolved : st.Resolved) (R : RelationKey → Bool) (k : RelationKey) :
    Within st (fun kept => ∀ b, kept[k]? = some b → Fits True ((st.plan k).holds R) b) True []
      ((answers.answering R).computeRelated k.1 false k.2.1 k.2.2)
      fun o => Fits True ((st.plan k).holds R) o.holds := by
  obtain ⟨r, source, target⟩ := k
  have deep : Looks st True answers := looksDepth resolved fun _ => by decide
  have looks : Looks st True (answers.answering R) :=
    ⟨deep.members, deep.valueType, deep.result, deep.apparent, deep.property⟩
  refine computeRelatedWithin looks fun planned => ?_
  rw [planned]
  refine keptRelatedWithin resolved looks (by simp [Written]) ?_ (by simp) ?_ ?_
  · intro _ kept b sound found
    exact sound b found
  · intro _ kept b sound fits c found
    rw [Std.TreeMap.getElem?_insert_self] at found
    cases Option.some.inj found
    exact fits
  · intro _ k' _ e _
    exact Within.pure (fitsSelf True (R k'))

theorem stepAffirmsIff (resolved : st.Resolved) (R : RelationKey → Bool) (k : RelationKey) :
    st.StepAffirms R k ↔ (st.plan k).holds R = true := by
  rcases stepFollowsPlan resolved R k {} (by simp) with ⟨o, after, ok, -, fits⟩ | ⟨short, -⟩
  · have value : o.holds = (st.plan k).holds R := fits.2 trivial
    constructor
    · rintro ⟨o', s, ok', held⟩
      cases ok.symm.trans ok'
      rw [← value, held]
    · intro planned
      exact ⟨o, _, ok, value.trans planned⟩
  · exact absurd trivial short

theorem bornOutHolds (resolved : st.Resolved) {R : RelationKey → Bool} {k : RelationKey}
    (bornOut : st.BornOut R) (member : R k = true) : st.Holds k :=
  ⟨R, fun other inside => (stepAffirmsIff resolved R other).mp (bornOut other inside), member⟩

end Steps

/-- The states of the relater between and inside of questions. A question that is broken off leaves
what the questions inside of it have found: it is opened, they are asked, and it is closed. -/
inductive Reached (st : State) : State → Prop where
  | start : Reached st (st.asking {} [])
  | asked {s s' n r source target o} (before : Reached st s)
      (ran : ((Queries.ofDepth n).relate r false source target).run s = .ok (o, s')) : Reached st s'
  | explained {s s' n r source target o} (texts : st.TextsMade) (before : Reached st s)
      (ran : ((Queries.ofDepth n).relate r true source target).run s = .ok (o, s')) : Reached st s'
  | opens {s} (k : RelationKey) (before : Reached st s) : Reached st { s with relating := k :: s.relating }
  | closes {s} (k : RelationKey) (before : Reached st s) :
      Reached st { s with relating := s.relating.erase k }

/-- No question that holds has been refused for good. -/
def Justified (st : State) (kept : KeptAnswers) : Prop := ∀ k, kept[k]? = some false → ¬st.Holds k

section Refusals

variable {st : State} {kept : KeptAnswers} {k : RelationKey} {b : Bool}

theorem Justified.fits (justified : Justified st kept) (found : kept[k]? = some b) :
    Fits False (st.truth k) b := by
  refine ⟨fun holds => ?_, False.elim⟩
  cases b with
  | true => rfl
  | false => exact absurd ((st.truthIff k).mp holds) (justified k found)

theorem Justified.insert (justified : Justified st kept) (fits : Fits False (st.truth k) b) :
    Justified st (kept.insert k b) := by
  intro other refused holds
  rw [Std.TreeMap.getElem?_insert] at refused
  split at refused
  · rename_i same
    cases orderEq same
    cases Option.some.inj refused
    cases fits.1 ((st.truthIff _).mpr holds)
  · exact justified other refused holds

/- What is open already counts as held, so an open question cannot make a refusal either. -/
theorem relateJustified (resolved : st.Resolved) {explain : Bool} (texts : explain = true → st.TextsMade)
    (n : Nat) (k : RelationKey) (opened : List RelationKey) :
    Within st (Justified st) False opened ((Queries.ofDepth n).relate k.1 explain k.2.1 k.2.2)
      fun o => Fits False (st.truth k) o.holds := by
  induction n generalizing k opened explain with
  | zero => exact fun kept _ => .inr ⟨id, _, rfl⟩
  | succ n ih =>
    obtain ⟨r, source, target⟩ := k
    have looks : Looks st False (Queries.ofDepth n) := looksDepth resolved False.elim
    have written : ∀ opened, Written st (Justified st) False opened (Queries.ofDepth n) explain := by
      intro opened asked t kept justified
      cases ran : ((Queries.ofDepth n).textOf t).run (st.asking kept opened) with
      | ok result =>
        refine .inl ⟨result.1, kept, ?_, justified, trivial⟩
        rw [← texts asked n t kept opened result.1 result.2 ran]
      | error fault => exact .inr ⟨id, fault, rfl⟩
    rw [← st.truthPlan]
    refine computeRelatedWithin looks fun planned => ?_
    have value : (st.structurePlan r source target).holds st.truth = st.truth (r, source, target) := by
      rw [← planned, st.truthPlan]
    rw [planned]
    refine keptRelatedWithin resolved looks (written _) ?_ ?_ ?_ ?_
    · intro _ kept b justified found
      rw [value]
      exact justified.fits found
    · exact fun _ => ⟨fun _ => rfl, False.elim⟩
    · intro _ kept b justified fits
      rw [value] at fits
      exact justified.insert fits
    · intro _ k' _ e only
      exact ih (fun asked => texts (only asked)) k' _

theorem relateLeaves (resolved : st.Resolved) {n : Nat} {r : Relation} {explain : Bool}
    {source target : TypeId} {opened : List RelationKey} {o : Outcome} {s : State}
    (ran : ((Queries.ofDepth n).relate r explain source target).run (st.asking kept opened) = .ok (o, s))
    (texts : explain = true → st.TextsMade) (justified : Justified st kept) :
    ∃ after, s = st.asking after opened ∧ Justified st after ∧
      (st.Holds (r, source, target) → o.holds = true) := by
  rcases relateJustified resolved texts n (r, source, target) opened kept justified with
    ⟨o', after, ok, justified, fits⟩ | ⟨-, fault, failed⟩
  · cases ran.symm.trans ok
    exact ⟨after, rfl, justified, fun holds => fits.1 ((st.truthIff _).mpr holds)⟩
  · cases ran.symm.trans failed

theorem reachedJustified (resolved : st.Resolved) {s : State} (reached : Reached st s) :
    ∃ kept opened, s = st.asking kept opened ∧ Justified st kept := by
  induction reached with
  | start => exact ⟨{}, [], rfl, by simp [Justified]⟩
  | asked before ran ih =>
    obtain ⟨kept, opened, rfl, justified⟩ := ih
    obtain ⟨after, rfl, justified, -⟩ := relateLeaves resolved ran (fun asked => nomatch asked) justified
    exact ⟨after, opened, rfl, justified⟩
  | explained texts before ran ih =>
    obtain ⟨kept, opened, rfl, justified⟩ := ih
    obtain ⟨after, rfl, justified, -⟩ := relateLeaves resolved ran (fun _ => texts) justified
    exact ⟨after, opened, rfl, justified⟩
  | opens k before ih =>
    obtain ⟨kept, opened, rfl, justified⟩ := ih
    exact ⟨kept, k :: opened, rfl, justified⟩
  | closes k before ih =>
    obtain ⟨kept, opened, rfl, justified⟩ := ih
    exact ⟨kept, opened.erase k, rfl, justified⟩

end Refusals

theorem bornOutNeverRefused {st s : State} {R : RelationKey → Bool} {k : RelationKey} {n : Nat} {b : Bool}
    (resolved : st.Resolved) (bornOut : st.BornOut R) (member : R k = true) (reached : Reached st s)
    (replied : (Queries.ofDepth n).reply s k = .ok b) : b = true := by
  have holds := bornOutHolds resolved bornOut member
  obtain ⟨kept, opened, rfl, justified⟩ := reachedJustified resolved reached
  unfold Queries.reply at replied
  cases ran : ((Queries.ofDepth n).relate k.1 false k.2.1 k.2.2).run (st.asking kept opened) with
  | error fault =>
    rw [ran] at replied
    cases replied
  | ok result =>
    obtain ⟨after, -, -, affirmed⟩ := relateLeaves resolved ran (fun asked => nomatch asked) justified
    rw [ran] at replied
    cases replied
    exact affirmed holds

/- `A` is an `E` because `B` is one, and the other way round. The answer is yes also after the
question whether `A` is a `C` and while it is open whether `B` is an `E`. -/
theorem circleNeverRefused : ∃ s, Reached circles s ∧
    answers.reply { s with relating := (.assignable, 13, 16) :: s.relating } (.assignable, 12, 16) = .ok true := by
  have bornOut : circles.BornOut fun k => k = (.assignable, 12, 16) || k = (.assignable, 13, 16) := by
    intro k member
    rw [stepAffirmsIff circlesResolved]
    simp only [Bool.or_eq_true, decide_eq_true_eq] at member
    rcases member with rfl | rfl <;> decide
  have given : (do
      let result ← (answers.relate .assignable false 12 14).run (circles.asking {} [])
      answers.reply { result.2 with relating := (.assignable, 13, 16) :: result.2.relating }
        (.assignable, 12, 16)).toOption.isSome = true := by
    decide
  cases ran : (answers.relate .assignable false 12 14).run (circles.asking {} []) with
  | error fault =>
    rw [ran] at given
    cases given
  | ok result =>
    have reached : Reached circles result.2 := .asked .start ran
    rw [ran] at given
    obtain ⟨b, found⟩ := Option.isSome_iff_exists.mp given
    have replied := okOfSome found
    have yes := bornOutNeverRefused circlesResolved bornOut rfl (.opens _ reached) replied
    exact ⟨result.2, reached, yes ▸ replied⟩

end Fragment.Typing
