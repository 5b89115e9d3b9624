import Fragment.Proofs.RelationCache
import Fragment.Proofs.Growing
import Mathlib.Data.List.Forall2

/-! Calls of functions with several signatures.
Arguments are looked at once, with the parameters of the first signature that takes their number in view. So a signature
that takes the arguments where it is the only one can refuse them where it is not. It takes them there too if what is
expected of the arguments makes no difference to them. -/
namespace Fragment.Typing

open Source (Expr Mark)
open Check

/-- Whether an expression has the same type whatever is expected of it. -/
def ignoresContext : Expr → Bool
  | .object _ properties => properties.isEmpty
  | .array _ elements => elements.isEmpty
  | .binary _ .and left right | .binary _ .or left right => ignoresContext left && ignoresContext right
  | .conditional _ _ yes no => ignoresContext yes && ignoresContext no
  | .arrow .. => false
  | _ => true

theorem ignoringInsensitive {e : Expr} (free : ignoresContext e = true) : isContextSensitive e = false := by
  fun_induction ignoresContext e with
  | case1 _ properties =>
    obtain rfl := List.isEmpty_iff.mp free
    rfl
  | case2 _ elements =>
    obtain rfl := List.isEmpty_iff.mp free
    rfl
  | case5 _ _ yes no left right =>
    simp only [Bool.and_eq_true] at free
    unfold isContextSensitive
    simp [left free.1, right free.2]
  | case6 => cases free
  | case3 | case4 => rfl
  | case7 e object array and' or' conditional arrow =>
    unfold isContextSensitive
    split
    · exact absurd rfl (arrow _ _ _ _ _)
    · exact absurd rfl (object _ _)
    · exact absurd rfl (array _ _)
    · exact absurd rfl (conditional _ _ _ _)
    · rfl

theorem typesAlike (n : Nat) {e : Expr} (free : ignoresContext e = true) (expected other : Option TypeId) :
    (Queries.ofDepth n).typeOfExpr e expected = (Queries.ofDepth n).typeOfExpr e other := by
  induction n generalizing e expected other with
  | zero => rfl
  | succ n ih =>
    have fresh : (Queries.ofDepth n).freshExprType e expected = (Queries.ofDepth n).freshExprType e other := by
      cases e with
      | object _ properties =>
        obtain rfl := List.isEmpty_iff.mp free
        rfl
      | array _ elements =>
        obtain rfl := List.isEmpty_iff.mp free
        unfold Queries.freshExprType
        simp [Queries.arrayType]
      | binary mark op left right =>
        cases op with
        | and | or =>
          unfold ignoresContext at free
          simp only [Bool.and_eq_true] at free
          have inner (l : TypeId) := ih free.2 (expected.or (some l)) (other.or (some l))
          unfold Queries.freshExprType Queries.binaryType
          simp only [ih free.1 expected other, inner]
        | _ => rfl
      | conditional _ test yes no =>
        unfold ignoresContext at free
        simp only [Bool.and_eq_true] at free
        unfold Queries.freshExprType
        simp only [ih free.1 expected other, ih free.2 expected other]
      | arrow => cases free
      | _ => rfl
    change (Queries.ofDepth n).computeExprType e expected = (Queries.ofDepth n).computeExprType e other
    unfold Queries.computeExprType
    rw [fresh]

/-! Signatures whose parameters are known -/

namespace State

/-- A signature and the types of its parameters are known. -/
def Knows (st : State) (g : SignatureId) : Prop :=
  ∃ sig, st.signature? g = some sig ∧ ∀ x ∈ sig.parameters, (st.symbol x).type.isSome = true

/-- The type that an argument at a position has to have, if the signature takes one there. -/
def typeAt? (st : State) (g : SignatureId) (index : Nat) : Option TypeId :=
  (st.signature? g).bind fun sig =>
    if sig.hasRest && decide (sig.parameters.length ≤ index + 1) then
      match sig.parameters.getLast? with
      | some x => match (st.typeInfo (st.valueType x)).form with
        | .array element => some element
        | _ => some anyType
      | none => some anyType
    else (sig.parameters[index]?).map st.valueType

/-- The type that an argument at a position has to have. -/
def wanted (st : State) (g : SignatureId) (index : Nat) : TypeId := (st.typeAt? g index).getD anyType

/-- The signatures that take a number of arguments. -/
def takers (st : State) (count : Nat) (gs : List SignatureId) : List SignatureId :=
  gs.filter fun g => (st.signature? g).any (·.takes count)

variable {s t : State}

theorem Continues.knows (before : s.Continues t) {g : SignatureId} (known : s.Knows g) : t.Knows g := by
  obtain ⟨sig, found, typed⟩ := known
  obtain ⟨result, found⟩ := before.signed g sig found
  exact ⟨{ sig with result }, found, fun x member => before.typed x (typed x member)⟩

theorem Continues.takes (before : s.Continues t) {g : SignatureId} (known : s.Knows g) (count : Nat) :
    (t.signature? g).any (·.takes count) = (s.signature? g).any (·.takes count) := by
  obtain ⟨sig, found, -⟩ := known
  obtain ⟨result, later⟩ := before.signed g sig found
  rw [found, later]
  rfl

end State

section Signatures

variable {st : State} {n : Nat} {g : SignatureId}

theorem readsTypeAt (known : st.Knows g) (index : Nat) :
    Reads st (1 ≤ n) ((Queries.ofDepth n).typeAt g index) (st.typeAt? g index) := by
  obtain ⟨sig, found, typed⟩ := known
  refine (readsSignature _ found).bind ?_
  rw [State.typeAt?, found, Option.bind_some]
  split
  next rest =>
    cases last : sig.parameters.getLast? with
    | none => exact Reads.pure _
    | some x =>
      refine (readsValueType (typed x (List.mem_of_getLast? last))).bind ((readsForm _ _).bind ?_)
      dsimp only
      cases (st.typeInfo (st.valueType x)).form <;> exact Reads.pure _
  next =>
    cases here : sig.parameters[index]? with
    | none => exact Reads.pure _
    | some x => exact (readsValueType (typed x (List.mem_of_getElem? here))).bind (Reads.pure _)

theorem readsArgumentType (known : st.Knows g) (index : Nat) :
    Reads st (1 ≤ n) ((Queries.ofDepth n).argumentType g index) (st.wanted g index) :=
  (readsTypeAt known index).bind (Reads.pure _)

/-- A signature that takes a number of arguments has a type for each of them. -/
theorem takenTyped {count index : Nat} (takes : (st.signature? g).any (·.takes count) = true) (inside : index < count) :
    st.typeAt? g index = some (st.wanted g index) := by
  obtain ⟨sig, found, takes⟩ := (Option.any_eq_true _ _).mp takes
  suffices (st.typeAt? g index).isSome by
    obtain ⟨t, same⟩ := Option.isSome_iff_exists.mp this
    rw [State.wanted, same, Option.getD_some]
  rw [State.typeAt?, found, Option.bind_some]
  split
  next rest => repeat' first | rfl | split
  next plain =>
    simp only [Signature.takes, Bool.and_eq_true, Bool.or_eq_true, decide_eq_true_eq] at takes
    have within : index < sig.parameters.length := by
      rcases takes.2 with rest | most
      · simp only [rest, Bool.true_and, decide_eq_true_eq] at plain
        omega
      · omega
    simp [within]

/-- The signatures that a call looks at. -/
theorem signaturesRun {gs : List SignatureId} (known : ∀ g ∈ gs, st.Knows g) (count : Nat) :
    ∃ infos : List (SignatureId × Signature),
      (gs.mapM fun g => return (g, ← signature g) : Check _).run st = .ok (infos, st) ∧
        (infos.filter fun r => r.2.takes count).map (·.1) = st.takers count gs := by
  induction gs with
  | nil => exact ⟨[], rfl, rfl⟩
  | cons g gs ih =>
    rw [List.forall_mem_cons] at known
    obtain ⟨infos, ran, same⟩ := ih known.2
    obtain ⟨sig, found, -⟩ := known.1
    refine ⟨(g, sig) :: infos, ?_, ?_⟩
    · have first : (do return (g, ← signature g) : Check _).run st = .ok ((g, sig), st) := by
        rw [runThen ((readsSignature True found).known trivial)]
        rfl
      rw [List.mapM_cons, runThen first, runThen ran]
      rfl
    · unfold State.takers at same ⊢
      rw [List.filter_cons, List.filter_cons, found, Option.any_some]
      split
      · rw [List.map_cons, same]
      · exact same

end Signatures

/-! Arguments that are free of what is expected -/

/-- The types of arguments of which nothing is expected. -/
def Queries.freeTypes (q : Queries) (args : List (Expr × Nat)) : Check (List (Option TypeId × Nat)) :=
  args.mapM fun a => return (some (← q.typeOfExpr a.1 none), a.2)

/-- The types of arguments with the parameters of a signature in view. -/
def Queries.typesFor (q : Queries) (g : SignatureId) (args : List (Expr × Nat)) : Check (List (Option TypeId × Nat)) :=
  args.mapM fun (arg, index) => do
    if isContextSensitive arg then return (none, index)
    return (some (← q.typeOfExpr arg (← q.typeAt g index)), index)

section Arguments

variable {st : State} {n : Nat} {g : SignatureId} {args : List (Expr × Nat)}

instance typeOfContinues (s : State) (n : Nat) (e : Expr) (expected : Option TypeId) :
    Keeps s.Continues ((Queries.ofDepth n).typeOfExpr e expected) := (depthLevel n).typeOfExpr e e.labelledAny expected

theorem typesForFree (free : ∀ a ∈ args, ignoresContext a.1 = true) (known : st.Knows g) {s : State}
    (before : st.Continues s) :
    ((Queries.ofDepth (n + 1)).typesFor g args).run s = ((Queries.ofDepth (n + 1)).freeTypes args).run s := by
  induction args generalizing s with
  | nil => rfl
  | cons a args ih =>
    rw [List.forall_mem_cons] at free
    obtain ⟨arg, index⟩ := a
    let free' : Check (Option TypeId × Nat) := do return (some (← (Queries.ofDepth (n + 1)).typeOfExpr arg none), index)
    have first : (do
        if isContextSensitive arg then return (none, index)
        return (some (← (Queries.ofDepth (n + 1)).typeOfExpr arg (← (Queries.ofDepth (n + 1)).typeAt g index)), index) :
        Check (Option TypeId × Nat)).run s = free'.run s := by
      have reads := (readsTypeAt (n := n + 1) (before.knows known) index).known (by omega)
      rw [ignoringInsensitive free.1]
      simp only [Bool.false_eq_true, if_false]
      rw [StateT.run_bind, reads]
      change (do
        return (some (← (Queries.ofDepth (n + 1)).typeOfExpr arg (s.typeAt? g index)), index) : Check _).run s = _
      rw [typesAlike (n + 1) free.1 _ none]
    unfold Queries.typesFor Queries.freeTypes
    rw [List.mapM_cons, List.mapM_cons, StateT.run_bind, StateT.run_bind, first]
    change (free'.run s >>= fun r => _) = (free'.run s >>= fun r => _)
    cases ran : free'.run s with
    | error fault => rfl
    | ok r =>
      have keeps : Keeps s.Continues free' := by
        dsimp only [free']
        infer_instance
      have after : st.Continues r.2 := before.trans (keeps.keeps s r.1 r.2 (.refl s) ran)
      change ((Queries.ofDepth (n + 1)).typesFor g args >>= fun rest => pure (r.1 :: rest)).run r.2 =
        ((Queries.ofDepth (n + 1)).freeTypes args >>= fun rest => pure (r.1 :: rest)).run r.2
      rw [StateT.run_bind, StateT.run_bind, ih free.2 after]

/-- The types of arguments are noted. -/
theorem freeTypesNoted {s s' : State} {types : List (Option TypeId × Nat)}
    (run : ((Queries.ofDepth n).freeTypes args).run s = .ok (types, s')) :
    s.Continues s' ∧
      List.Forall₂ (fun a r => ∃ t, r = (some t, a.2) ∧ s'.nodeTypes[a.1.mark.id]? = some t) args types := by
  induction args generalizing s types with
  | nil =>
    cases run
    exact ⟨.refl _, .nil⟩
  | cons a args ih =>
    unfold Queries.freeTypes at run
    rw [List.mapM_cons] at run
    obtain ⟨r, u, first, run⟩ := runBind run
    obtain ⟨rest, v, others, run⟩ := runBind run
    obtain ⟨t, u, typed, first⟩ := runBind first
    cases first
    cases run
    obtain ⟨after, noted⟩ := ih others
    have before := (typeOfContinues s n a.1 none).keeps s t u (.refl s) typed
    exact ⟨before.trans after, .cons ⟨t, rfl, after.noted _ t (typeNoted typed)⟩ noted⟩

end Arguments

/-! Choosing a signature -/

/-- Where the types of arguments are known, it can be asked whether signatures take them, and for one of these
signatures it is decided. -/
structure Settled (st : State) (n : Nat) (types : List (Option TypeId × Nat)) (gs : List SignatureId)
    (g : SignatureId) : Prop where
  resolved : st.Resolved
  faithful : Faithful st st.relations
  idle : st.relating = []
  steady : ∀ t index, (some t, index) ∈ types → st.Steady (.assignable, t, st.wanted g index)
  enough : ∀ h ∈ gs, ∀ t index, (some t, index) ∈ types → Enough st n [] (.assignable, t, st.wanted h index)

theorem Settled.alone {st : State} {n : Nat} {types : List (Option TypeId × Nat)} {gs : List SignatureId}
    {g : SignatureId} (settled : Settled st n types gs g) (among : g ∈ gs) : Settled st n types [g] g :=
  { settled with enough := fun _ member => List.mem_singleton.mp member ▸ settled.enough g among }

/-- A signature takes arguments of some types. -/
def State.Fitting (st : State) (types : List (Option TypeId × Nat)) (g : SignatureId) : Prop :=
  ∀ t index, (some t, index) ∈ types → st.Accepts t (st.wanted g index)

section Choosing

variable {st : State} {n : Nat} {g : SignatureId} {types : List (Option TypeId × Nat)}

theorem fitsWithin (resolved : st.Resolved) (known : st.Knows g) (deep : 1 ≤ n)
    (enough : ∀ t index, (some t, index) ∈ types → Enough st n [] (.assignable, t, st.wanted g index)) :
    Within st (Faithful st) True [] ((Queries.ofDepth n).fitsArguments types g) fun yes =>
      (∀ t index, (some t, index) ∈ types → st.Steady (.assignable, t, st.wanted g index)) →
        (yes = true ↔ st.Fitting types g) := by
  induction types with
  | nil => exact Within.pure fun _ => ⟨fun _ => nofun, fun _ => rfl⟩
  | cons r types ih =>
    obtain ⟨type, index⟩ := r
    have rest := ih fun t i member => enough t i (List.mem_cons_of_mem _ member)
    cases type with
    | none =>
      have held : Within st (Faithful st) True [] (pure true) fun yes => yes = true := Within.pure rfl
      refine held.bind fun b held => ?_
      subst held
      refine rest.weaken id fun yes fits steady => ?_
      rw [fits fun t i member => steady t i (List.mem_cons_of_mem _ member)]
      simp [State.Fitting]
    | some t =>
      have asked : Within st (Faithful st) True [] (do
          (Queries.ofDepth n).assignable t (← (Queries.ofDepth n).argumentType g index))
          (Fits (st.Steady (.assignable, t, st.wanted g index)) (st.truth (.assignable, t, st.wanted g index))) := by
        refine Reads.within ((readsArgumentType known index).lift fun _ => deep) ?_
        exact (assignableFits resolved n t _).weaken (fun _ => enough t index List.mem_cons_self) fun _ => id
      refine Within.bind asked fun b fits => ?_
      have split (all : ∀ t' i, (some t', i) ∈ (some t, index) :: types → st.Accepts t' (st.wanted g i)) :=
        all t index List.mem_cons_self
      cases b with
      | false =>
        refine Within.pure fun steady => ⟨nofun, fun all => ?_⟩
        exact (acceptsIff (steady t index List.mem_cons_self) fits).mpr (split all)
      | true =>
        refine rest.weaken id fun yes later steady => ?_
        have accepted := (acceptsIff (steady t index List.mem_cons_self) fits).mp rfl
        rw [later fun t i member => steady t i (List.mem_cons_of_mem _ member)]
        refine ⟨fun all t' i member => ?_, fun all t' i member => all t' i (List.mem_cons_of_mem _ member)⟩
        rcases List.mem_cons.mp member with same | member
        · cases same
          exact accepted
        · exact all t' i member

/-- If one of the signatures takes the arguments, one is chosen. -/
theorem choiceWithin {gs : List SignatureId} (resolved : st.Resolved) (deep : 1 ≤ n) (known : ∀ h ∈ gs, st.Knows h)
    (enough : ∀ h ∈ gs, ∀ t index, (some t, index) ∈ types → Enough st n [] (.assignable, t, st.wanted h index))
    (steady : ∀ t index, (some t, index) ∈ types → st.Steady (.assignable, t, st.wanted g index)) (among : g ∈ gs)
    (fitting : st.Fitting types g) :
    Within st (Faithful st) True [] ((Queries.ofDepth n).firstFitting types gs) fun r => ∃ h ∈ gs, r = some h := by
  induction gs with
  | nil => cases among
  | cons h gs ih =>
    rw [List.forall_mem_cons] at known enough
    refine Within.bind (fitsWithin resolved known.1 deep enough.1) fun b fits => ?_
    cases b with
    | true => exact Within.pure ⟨h, List.mem_cons_self, rfl⟩
    | false =>
      rcases List.mem_cons.mp among with rfl | among
      · exact absurd ((fits steady).mpr fitting) Bool.false_ne_true
      · refine (ih known.2 enough.2 among).weaken id fun r ⟨h', member, same⟩ => ?_
        exact ⟨h', List.mem_cons_of_mem h member, same⟩

end Choosing

/-! What a call reports -/

theorem countTells (mark : Mark) (count : Nat) (signatures : List Signature) :
    Telling (Queries.reportCount mark count signatures) := by
  unfold Queries.reportCount
  dsimp only
  split <;> exact Telling.report _ _ _

section Reports

variable {st : State} {n : Nat} {g : SignatureId} {args : List (Expr × Nat)} {types : List (Option TypeId × Nat)}

/-- Either one type is found to be assignable to another, or it is reported that it is not. -/
theorem assignableRun {a b : TypeId} {mark : Mark} {message : String → String → Message} {s s' : State} {ok : Bool}
    (run : ((Queries.ofDepth n).checkAssignable a b mark message).run s = .ok (ok, s')) :
    ok = true ∧ ((Queries.ofDepth n).assignable a b).run s = .ok (true, s') ∨ s.Tells s' := by
  have (s : State) := depthLevel (I := s.Continues) n
  obtain ⟨held, t, asked, run⟩ := runBind run
  cases held with
  | true =>
    cases run
    exact .inl ⟨rfl, asked⟩
  | false =>
    have before := (Queries.assignableKeeps (I := s.Continues) a b).keeps s false t (.refl s) asked
    refine .inr (before.thenTells ?_)
    refine (Telling.last fun failure => ?_) t ok s' run
    split
    · refine .last fun x => .last fun wanted => ?_
      exact .first (Telling.report _ _ _)
    · refine .last fun source => .last fun left => .last fun right => ?_
      exact .first (Telling.report _ _ _)

instance checkArgumentsContinues (s : State) (g : SignatureId) (reporting : Bool) (args : List (Expr × Nat)) :
    Keeps s.Continues ((Queries.ofDepth n).checkArguments g reporting args) :=
  have := depthLevel (I := s.Continues) n
  Queries.checkArgumentsKeeps g reporting fun a _ => a.1.labelledAny

/-- Of arguments that a signature refuses one is reported. -/
theorem refusedTells (resolved : st.Resolved) (known : st.Knows g) {count : Nat}
    (takes : (st.signature? g).any (·.takes count) = true) (inside : ∀ a ∈ args, a.2 < count)
    (noted : List.Forall₂ (fun a r => ∃ t, r = (some t, a.2) ∧ st.nodeTypes[a.1.mark.id]? = some t) args types)
    (steady : ∀ t index, (some t, index) ∈ types → st.Steady (.assignable, t, st.wanted g index))
    (refused : ¬st.Fitting types g) {kept : KeptAnswers} (faithful : Faithful st kept) {s' : State}
    (run : ((Queries.ofDepth n).checkArguments g true args).run (st.asking kept []) = .ok ((), s')) :
    (st.asking kept []).Tells s' := by
  induction noted generalizing kept with
  | nil => exact absurd (fun _ _ => nofun) refused
  | @cons a r args types first noted ih =>
    obtain ⟨arg, index⟩ := a
    obtain ⟨t, rfl, typed⟩ := first
    rw [List.forall_mem_cons] at inside
    unfold Queries.checkArguments at run
    obtain ⟨wanted, u, asked, run⟩ := runBind run
    obtain ⟨rfl, rfl⟩ := (readsTypeAt known index).ran asked
    obtain ⟨given, u, told, run⟩ := runBind run
    obtain ⟨rfl, rfl⟩ := (readsExprType typed).ran told
    rw [takenTyped takes inside.1] at run
    obtain ⟨ok, u, checked, run⟩ := runBind run
    rcases assignableRun checked with ⟨rfl, asked⟩ | tells
    · obtain ⟨after, rfl, faithful, fits⟩ := (assignableFits resolved n given _).ran faithful asked
      have accepted := (acceptsIff (steady given index List.mem_cons_self) fits).mp rfl
      -- Answers that are kept are not diagnostics.
      change (st.asking after []).Tells s'
      refine ih inside.2 (fun t i member => steady t i (List.mem_cons_of_mem _ member)) ?_ faithful run
      refine fun fitting => refused fun t i member => ?_
      rcases List.mem_cons.mp member with same | member
      · cases same
        exact accepted
      · exact fitting t i member
    · exact tells.thenContinues ((checkArgumentsContinues _ g ok args).keeps _ _ _ (.refl _) run)

end Reports

/-! Calls -/

section Calls

variable {st : State} {n : Nat} {mark callee : Mark} {args : List Expr} {gs : List SignatureId}

/-- A loop that does nothing for each element does nothing. -/
theorem forIdle {α : Type} {xs : List α} {f : α → PUnit → Check (ForInStep PUnit)}
    (idle : ∀ x ∈ xs, f x ⟨⟩ = pure (.yield ⟨⟩)) : forIn xs ⟨⟩ f = pure ⟨⟩ := by
  induction xs with
  | nil => rfl
  | cons x xs ih =>
    rw [List.forall_mem_cons] at idle
    rw [List.forIn_cons, idle.1, pure_bind]
    exact ih idle.2

/-- A call that no signature takes is reported. -/
theorem untakenTells (known : ∀ g ∈ gs, st.Knows g) (untaken : st.takers args.length gs = []) {r : Option SignatureId}
    {s : State} (run : ((Queries.ofDepth n).resolveCall mark callee args gs).run st = .ok (r, s)) : st.Tells s := by
  obtain ⟨infos, looked, taking⟩ := signaturesRun known args.length
  rw [untaken] at taking
  unfold Queries.resolveCall at run
  dsimp only at run
  rw [runThen looked, taking] at run
  have counted := countTells mark args.length (infos.map (·.2))
  cases gs with
  | nil => exact (counted.first (f := fun _ => pure none)) st r s run
  | cons g gs =>
    have (s : State) (_ : Unit) : Keeps s.Continues (do
        (Queries.ofDepth n).checkArguments g false args.zipIdx
        return some g : Check (Option SignatureId)) := by
      infer_instance
    exact counted.first st r s run

/-- A call that signatures take looks at the arguments, and then for the first signature that they fit. -/
theorem takenRun (plain : ∀ e ∈ args, isContextSensitive e = false) (known : ∀ g ∈ gs, st.Knows g)
    {context : SignatureId} {others : List SignatureId} (taken : st.takers args.length gs = context :: others) :
    ((Queries.ofDepth n).resolveCall mark callee args gs).run st = (do
      let types ← (Queries.ofDepth n).typesFor context args.zipIdx
      match (← (Queries.ofDepth n).firstFitting types (context :: others)) with
      | none =>
        if others.isEmpty then (Queries.ofDepth n).checkArguments context true args.zipIdx
        else
          error callee .noOverload
          (Queries.ofDepth n).checkArguments context false args.zipIdx
        return some context
      | some chosen => return some chosen : Check (Option SignatureId)).run st := by
  obtain ⟨infos, looked, taking⟩ := signaturesRun known args.length
  rw [taken] at taking
  unfold Queries.resolveCall
  dsimp only
  rw [runThen looked, taking]
  change ((Queries.ofDepth n).typesFor context args.zipIdx >>= _).run st = _
  congr 2
  funext types
  congr 1
  funext choice
  cases choice with
  | none => rfl
  | some chosen =>
    dsimp only
    rw [forIdle fun a member => if_neg (by simp [plain a.1 (List.fst_mem_of_mem_zipIdx member)])]
    rfl

/-- The arguments of a call are looked at with the parameters of a signature that takes their number. -/
theorem takersFree {context : SignatureId} {others : List SignatureId} (free : ∀ e ∈ args, ignoresContext e = true)
    (known : ∀ g ∈ gs, st.Knows g) (taken : st.takers args.length gs = context :: others) :
    ((Queries.ofDepth (n + 1)).typesFor context args.zipIdx).run st =
      ((Queries.ofDepth (n + 1)).freeTypes args.zipIdx).run st :=
  have among : context ∈ gs := List.mem_of_mem_filter (taken ▸ List.mem_cons_self)
  typesForFree (fun a member => free a.1 (List.fst_mem_of_mem_zipIdx member)) (known context among) (.refl st)

theorem settledAsking {types : List (Option TypeId × Nat)} {g : SignatureId} (settled : Settled st n types gs g) :
    st = st.asking st.relations [] := by
  rw [State.asking, ← settled.idle]

/-- The only signature of a call of which nothing is reported takes the arguments and is chosen. Besides the arguments
only answers about relations are noted. -/
theorem quietKept {g : SignatureId} (free : ∀ e ∈ args, ignoresContext e = true) (known : st.Knows g)
    (settled : ∀ types t, ((Queries.ofDepth (n + 1)).freeTypes args.zipIdx).run st = .ok (types, t) →
      Settled t (n + 1) types [g] g)
    {r : Option SignatureId} {s : State}
    (alone : ((Queries.ofDepth (n + 1)).resolveCall mark callee args [g]).run st = .ok (r, s)) (quiet : ¬st.Tells s) :
    (st.signature? g).any (·.takes args.length) = true ∧ r = some g ∧ ∃ types t kept,
      ((Queries.ofDepth (n + 1)).freeTypes args.zipIdx).run st = .ok (types, t) ∧ t.Fitting types g ∧
        s = t.asking kept [] := by
  have single : ∀ h ∈ [g], st.Knows h := fun h member => List.mem_singleton.mp member ▸ known
  have takes : (st.signature? g).any (·.takes args.length) = true := by
    by_contra untaken
    exact quiet (untakenTells single (by simp [State.takers, untaken]) alone)
  have taken : st.takers args.length [g] = [g] := by simp [State.takers, takes]
  rw [takenRun (fun e member => ignoringInsensitive (free e member)) single taken] at alone
  obtain ⟨types, t, typed, alone⟩ := runBind alone
  rw [takersFree free single taken] at typed
  obtain ⟨before, noted⟩ := freeTypesNoted typed
  have decided := settled types t typed
  have start := settledAsking decided
  have knownThen := before.knows known
  obtain ⟨choice, u, chosen, alone⟩ := runBind alone
  unfold Queries.firstFitting at chosen
  obtain ⟨yes, v, asked, chosen⟩ := runBind chosen
  rw [start] at asked
  obtain ⟨after, rfl, sound, fits⟩ := (fitsWithin decided.resolved knownThen (by omega)
    (decided.enough g List.mem_cons_self)).ran decided.faithful asked
  cases yes with
  | true =>
    cases chosen
    cases alone
    exact ⟨takes, rfl, types, t, after, typed, (fits decided.steady).mp rfl, rfl⟩
  | false =>
    cases chosen
    obtain ⟨_, w, checked, alone⟩ := runBind alone
    cases alone
    have refused : ¬t.Fitting types g := fun fitting => Bool.false_ne_true ((fits decided.steady).mpr fitting)
    refine absurd (before.thenTells ?_) quiet
    exact refusedTells decided.resolved knownThen (before.takes known _ ▸ takes)
      (fun a member => List.snd_lt_of_mem_zipIdx member) noted decided.steady refused sound checked

/-- The only signature of a call of which nothing is reported takes the arguments. -/
theorem quietFits {g : SignatureId} (free : ∀ e ∈ args, ignoresContext e = true) (known : st.Knows g)
    (settled : ∀ types t, ((Queries.ofDepth (n + 1)).freeTypes args.zipIdx).run st = .ok (types, t) →
      Settled t (n + 1) types [g] g)
    {r : Option SignatureId} {s : State}
    (alone : ((Queries.ofDepth (n + 1)).resolveCall mark callee args [g]).run st = .ok (r, s)) (quiet : ¬st.Tells s) :
    (st.signature? g).any (·.takes args.length) = true ∧ ∃ types t,
      ((Queries.ofDepth (n + 1)).freeTypes args.zipIdx).run st = .ok (types, t) ∧ t.Fitting types g ∧
        t.Continues s := by
  obtain ⟨takes, -, types, t, kept, typed, fitting, rfl⟩ := quietKept free known settled alone quiet
  exact ⟨takes, types, t, typed, fitting, (State.Continues.refl t).same rfl rfl rfl rfl⟩

/-- A call that a signature takes without a word when it is the only one is taken without a word among more signatures,
if the types of its arguments do not depend on what is expected of them. -/
theorem addedSignaturesAccept {g : SignatureId} (free : ∀ e ∈ args, ignoresContext e = true)
    (known : ∀ h ∈ gs, st.Knows h) (among : g ∈ gs)
    (settled : ∀ types t, ((Queries.ofDepth (n + 1)).freeTypes args.zipIdx).run st = .ok (types, t) →
      Settled t (n + 1) types gs g)
    {r : Option SignatureId} {s : State}
    (alone : ((Queries.ofDepth (n + 1)).resolveCall mark callee args [g]).run st = .ok (r, s))
    (quiet : ∀ file, s.reported file = st.reported file) :
    ∃ h ∈ gs, ∃ s', ((Queries.ofDepth (n + 1)).resolveCall mark callee args gs).run st = .ok (some h, s') ∧
      ∀ file, s'.reported file = st.reported file := by
  obtain ⟨takes, types, t, typed, fitting, rest⟩ := quietFits free (known g among)
    (fun types t typed => (settled types t typed).alone among) alone fun ⟨file, more⟩ => by simp [quiet] at more
  have decided := settled types t typed
  have before := (freeTypesNoted typed).1
  have taking : g ∈ st.takers args.length gs := List.mem_filter.mpr ⟨among, takes⟩
  have from' : st.takers args.length gs ⊆ gs := fun _ => List.mem_of_mem_filter
  obtain ⟨context, others, taken⟩ := List.exists_cons_of_ne_nil (List.ne_nil_of_mem taking)
  rw [taken] at taking from'
  have choice := choiceWithin decided.resolved (by omega) (fun h member => before.knows (known h (from' member)))
    (fun h member => decided.enough h (from' member)) decided.steady taking fitting
  rcases choice t.relations decided.faithful with ⟨_, after, ran, -, h, member, rfl⟩ | ⟨short, -⟩
  · refine ⟨h, from' member, t.asking after [], ?_, fun file => ?_⟩
    · rw [← settledAsking decided] at ran
      rw [takenRun (fun e member => ignoringInsensitive (free e member)) known taken,
        runThen ((takersFree free known taken).trans typed), runThen ran]
      rfl
    · -- What the call alone has not reported was not reported for the arguments either.
      have shorter := (rest.reported file).length_le
      rw [quiet] at shorter
      exact ((before.reported file).eq_of_length_le shorter).symm
  · exact absurd trivial short

end Calls

/-! Functions of numbers and of truth values, and of lists of them -/

/-- The types `number[]`, `true[]` and `boolean[]`, and signatures with a parameter of `number`, `boolean`, `number[]`
and `true[]`. -/
def overloads (nodeTypes : Std.HashMap Nat TypeId) : State :=
  let list (element : TypeId) : TypeInfo := { flags := TypeFlags.object, form := .array element, members := some {} }
  let parameter (type : TypeId) : Symbol := { flags := SymbolFlags.functionVariable, name := "a", type := some type }
  let taking (x : SymbolId) : Signature :=
    { node := { mark := markAt 0, params := [], result := none, body := .none }, parameters := [x], least := 1,
      hasRest := false }
  { State.initial with
    types := initialTypes ++ #[list numberType, list trueType, list booleanType]
    symbols := State.initial.symbols ++ #[parameter numberType, parameter booleanType, parameter 12, parameter 13]
    signatures := #[taking 1, taking 2, taking 3, taking 4]
    arrays := ((({} : Std.HashMap TypeId TypeId).insert numberType 12).insert trueType 13).insert booleanType 14
    nodeTypes }

/-- `true` -/
def holding : Expr := .boolean (markAt 1) true

/-- `[true]` -/
def holdingList : Expr := .array (markAt 2) [holding]

theorem overloadsResolved (nodeTypes : Std.HashMap Nat TypeId) : (overloads nodeTypes).Resolved := by
  have symbols : ∀ x < (overloads {}).symbols.size, ((overloads {}).symbol x).type.isSome = true ∧
      ((overloads {}).symbol x).flags.meets SymbolFlags.interface = false := by decide
  refine resolvedOfTables (fun info member => ?_) symbols rfl
  change info ∈ (overloads {}).types at member
  change info.Listed (overloads {}).symbols.size
  simp only [overloads, initialTypes, intrinsic, List.append_toArray, List.cons_append, List.nil_append,
    List.mem_toArray, List.mem_cons, List.not_mem_nil, or_false] at member
  rcases member with rfl | rfl | rfl | rfl | rfl | rfl | rfl | rfl | rfl | rfl | rfl | rfl | rfl | rfl |
    rfl <;> exact ⟨by decide, by simp, by simp, by decide, rfl⟩

/-- Nothing has been reported. -/
def State.silent (st : State) : Bool := st.diagnostics.isEmpty

theorem silentReports {st : State} (silent : st.silent = true) (file : String) : st.reported file = [] :=
  Std.HashMap.getD_of_isEmpty silent

/-- How a run ends, and whether nothing has been reported then. -/
def outcome {α : Type} (result : Except Fault (α × State)) : Option (α × Bool) :=
  result.toOption.map fun r => (r.1, r.2.silent)

theorem ofOutcome {α : Type} {result : Except Fault (α × State)} {a : α} {silent : Bool}
    (given : outcome result = some (a, silent)) : ∃ s, result = .ok (a, s) ∧ s.silent = silent := by
  obtain ⟨⟨b, s⟩, found, same⟩ := Option.map_eq_some_iff.mp given
  cases same
  exact ⟨s, okOfSome found, rfl⟩

theorem holdingTyped {nodeTypes : Std.HashMap Nat TypeId} (missing : nodeTypes[1]? = none) (n : Nat)
    (expected : Option TypeId) : ((Queries.ofDepth (n + 1)).typeOfExpr holding expected).run (overloads nodeTypes) =
      .ok (trueType, overloads (nodeTypes.insert 1 trueType)) := by
  rw [typeOfUnnoted missing]
  rfl

theorem holdingFree (n : Nat) : ((Queries.ofDepth (n + 1)).freeTypes [holding].zipIdx).run (overloads {}) =
    .ok ([(some trueType, 0)], overloads (({} : Std.HashMap Nat TypeId).insert 1 trueType)) := by
  have first : (do return (some (← (Queries.ofDepth (n + 1)).typeOfExpr holding none), 0) :
      Check (Option TypeId × Nat)).run (overloads {}) =
        .ok ((some trueType, 0), overloads (({} : Std.HashMap Nat TypeId).insert 1 trueType)) := by
    rw [runThen (holdingTyped Std.HashMap.getElem?_empty n none)]
    rfl
  rw [Queries.freeTypes, List.zipIdx_cons, List.mapM_cons, runThen first]
  rfl

theorem overloadsKnown (nodeTypes : Std.HashMap Nat TypeId) {g : SignatureId} (there : g < 4) :
    (overloads nodeTypes).Knows g := by
  match g, there with
  | 0, _ | 1, _ | 2, _ | 3, _ => exact ⟨_, rfl, fun x member => by obtain rfl := List.mem_singleton.mp member; rfl⟩

/-- A signature for numbers before it does not keep one for truth values from being chosen. -/
theorem numbersAdded : ∃ h ∈ [0, 1], ∃ s',
    (answers.resolveCall (markAt 3) (markAt 4) [holding] [0, 1]).run (overloads {}) = .ok (some h, s') ∧ ∀ file, s'.reported file = (overloads {}).reported file := by
  have known : ∀ h ∈ [0, 1], (overloads {}).Knows h := fun h member => overloadsKnown {} (by revert h; decide)
  have free : ∀ e ∈ [holding], ignoresContext e = true := by decide
  obtain ⟨s, alone, quiet⟩ : ∃ s, ((Queries.ofDepth (999 + 1)).resolveCall (markAt 3) (markAt 4) [holding] [1]).run
      (overloads {}) = .ok (some 1, s) ∧ s.silent = true := by
    have taken : (overloads {}).takers [holding].length [1] = [1] := by decide
    have single : ∀ h ∈ [1], (overloads {}).Knows h := fun h member => known h (List.mem_cons_of_mem 0 member)
    rw [takenRun (by decide) single taken, runThen ((takersFree free single taken).trans (holdingFree 999))]
    refine ofOutcome ?_
    decide
  refine addedSignaturesAccept (n := 999) (g := 1) free known (by decide) (fun types t typed => ?_) alone fun file => ?_
  · rw [holdingFree 999] at typed
    cases typed
    refine ⟨overloadsResolved _, fun k b found => by simp [overloads, State.initial] at found, rfl, ?_, ?_⟩
    · intro t index member
      cases List.mem_singleton.mp member
      exact steadyShallow (by decide)
    · intro h among t index member
      cases List.mem_singleton.mp member
      refine ⟨[(.assignable, trueType, numberType), (.assignable, trueType, booleanType)], ?_, ?_, List.nil_subset _,
        by decide⟩
      · revert h
        decide
      · unfold State.Raises
        decide
  · rw [silentReports quiet, silentReports rfl]

/-- What is expected of the elements of a list of which something is expected. -/
def State.elementOf? (st : State) (expected : TypeId) : Option TypeId :=
  (st.parts expected).findSome? fun part => match (st.typeInfo part).form with
    | .array element => some element
    | _ => none

theorem arrayTypeRun (q : Queries) (elements : List Expr) (expected : TypeId) (st : State) :
    (q.arrayType elements (some expected)).run st = (do
      let types ← elements.mapM fun e => do
        widenFor (← q.typeOfExpr e (st.elementOf? expected)) (st.elementOf? expected)
      if types.isEmpty then arrayOf neverType else arrayOf (← union types) : Check TypeId).run st := by
  unfold Queries.arrayType
  rw [runGet]
  rfl

/-- `[true]` is a list of what becomes of `true` where elements of the expected list are expected. -/
theorem listTyped (n : Nat) {expected wanted element list : TypeId}
    (wants : (overloads {}).elementOf? expected = some wanted)
    (widens : (do union [← widenFor trueType (some wanted)]).run
      (overloads (({} : Std.HashMap Nat TypeId).insert 1 trueType)) =
        .ok (element, overloads (({} : Std.HashMap Nat TypeId).insert 1 trueType)))
    (there : (overloads {}).arrays[element]? = some list) :
    ((Queries.ofDepth (n + 2)).typeOfExpr holdingList (some expected)).run (overloads {}) =
      .ok (list, overloads ((({} : Std.HashMap Nat TypeId).insert 1 trueType).insert 2 list)) := by
  have found (notes : Std.HashMap Nat TypeId) :
      (arrayOf element).run (overloads notes) = .ok (list, overloads notes) := by
    have known : (overloads notes).arrays[element]? = some list := there
    unfold arrayOf
    rw [runGet, known]
    rfl
  have made : ((Queries.ofDepth (n + 1)).freshExprType holdingList (some expected)).run (overloads {}) =
      .ok (list, overloads (({} : Std.HashMap Nat TypeId).insert 1 trueType)) := by
    change ((Queries.ofDepth (n + 1)).arrayType [holding] (some expected)).run (overloads {}) = _
    obtain ⟨widened, s, first, rest⟩ := runBind widens
    rw [arrayTypeRun, wants]
    simp only [List.mapM_cons, List.mapM_nil, bind_assoc, pure_bind, List.isEmpty_cons, Bool.false_eq_true, if_false]
    rw [runThen (holdingTyped Std.HashMap.getElem?_empty n _), runThen first, runThen rest, found]
  rw [typeOfUnnoted Std.HashMap.getElem?_empty, runThen made]
  rfl

/-- Arguments whose types are noted are not looked at again. -/
theorem lookedAt {st : State} {n : Nat} {g : SignatureId} (known : st.Knows g) {args : List (Expr × Nat)}
    (noted : ∀ a ∈ args, ∃ t, st.nodeTypes[a.1.mark.id]? = some t) :
    ((Queries.ofDepth (n + 1)).checkArguments g false args).run st = .ok ((), st) := by
  induction args with
  | nil => rfl
  | cons a args ih =>
    rw [List.forall_mem_cons] at noted
    obtain ⟨arg, index⟩ := a
    obtain ⟨t, typed⟩ := noted.1
    unfold Queries.checkArguments
    rw [runThen ((readsTypeAt known index).known (by omega)), runThen ((readsExprType typed).known (by omega))]
    exact ih noted.2

theorem listTypes (n : Nat) {g : SignatureId} {expected list : TypeId} {s : State} (there : g < 4)
    (wanted : (overloads {}).typeAt? g 0 = some expected)
    (typed : ((Queries.ofDepth (n + 1)).typeOfExpr holdingList (some expected)).run (overloads {}) = .ok (list, s)) :
    ((Queries.ofDepth (n + 1)).typesFor g [holdingList].zipIdx).run (overloads {}) = .ok ([(some list, 0)], s) := by
  have reads := (readsTypeAt (n := n + 1) (overloadsKnown {} there) 0).known (by omega)
  rw [wanted] at reads
  have first : (do return (some (← (Queries.ofDepth (n + 1)).typeOfExpr holdingList
      (← (Queries.ofDepth (n + 1)).typeAt g 0)), 0) : Check (Option TypeId × Nat)).run (overloads {}) =
        .ok ((some list, 0), s) := by
    rw [runThen reads, runThen typed]
    rfl
  rw [Queries.typesFor, List.zipIdx_cons, List.mapM_cons]
  exact (runThen first).trans rfl

/-- Where a list of numbers is expected first, `[true]` is taken to be a list of truth values, and then the signature
that takes a list of `true` does not take it: it is reported that no signature fits. -/
theorem laterSignatureMissed :
    (∃ s, (answers.resolveCall (markAt 3) (markAt 4) [holdingList] [3]).run (overloads {}) = .ok (some 3, s) ∧
      ∀ file, s.reported file = (overloads {}).reported file) ∧
    ∃ r s, (answers.resolveCall (markAt 3) (markAt 4) [holdingList] [2, 3]).run (overloads {}) = .ok (r, s) ∧
      (overloads {}).Tells s := by
  have known (gs : List SignatureId) (there : ∀ g ∈ gs, g < 4) : ∀ g ∈ gs, (overloads {}).Knows g :=
    fun g member => overloadsKnown {} (there g member)
  have list (element list : TypeId) (there : (element, list) ∈ [(trueType, 13), (booleanType, 14)]) :
      (overloads {}).arrays[element]? = some list := by
    simp only [overloads, Std.HashMap.getElem?_insert]
    simp only [List.mem_cons, Prod.mk.injEq, List.not_mem_nil, or_false] at there
    rcases there with ⟨rfl, rfl⟩ | ⟨rfl, rfl⟩ <;> decide
  constructor
  · have typed := listTypes 999 (g := 3) (by decide) rfl (listTyped 998 rfl rfl (list trueType 13 (by decide)))
    have run : ∃ s, ((Queries.ofDepth 1000).resolveCall (markAt 3) (markAt 4) [holdingList] [3]).run (overloads {}) =
        .ok (some 3, s) ∧ s.silent = true := by
      rw [takenRun (by decide) (known [3] (by decide)) (show _ = [3] by decide), runThen typed]
      refine ofOutcome ?_
      decide
    exact run.imp fun s ⟨ran, quiet⟩ => ⟨ran, fun file => by rw [silentReports quiet, silentReports rfl]⟩
  · have typed := listTypes 999 (g := 2) (by decide) rfl (listTyped 998 rfl rfl (list booleanType 14 (by decide)))
    have refusal : outcome (((Queries.ofDepth 1000).firstFitting [(some 14, 0)] [2, 3]).run
        (overloads ((({} : Std.HashMap Nat TypeId).insert 1 trueType).insert 2 14))) = some (none, true) := by
      decide
    obtain ⟨s, refused, -⟩ := ofOutcome refusal
    obtain ⟨s', told⟩ : ∃ s', (error (markAt 4) .noOverload).run s = .ok ((), s') := ⟨_, rfl⟩
    let typing := overloads ((({} : Std.HashMap Nat TypeId).insert 1 trueType).insert 2 14)
    have start : (overloads {}).Continues typing :=
      ⟨fun _ => List.prefix_refl _, fun _ => id, fun _ sig found => ⟨sig.result, found⟩,
        fun id t found => by simp [overloads] at found⟩
    have := depthLevel (I := typing.Continues) 1000
    have before : typing.Continues s := (Queries.firstFittingKeeps _ _).keeps typing none s (.refl typing) refused
    have after : typing.Continues s' := (continuesReports (markAt 4) .noOverload []).keeps s () s' before told
    have looked : ((Queries.ofDepth 1000).checkArguments 2 false [holdingList].zipIdx).run s' = .ok ((), s') := by
      refine lookedAt (n := 999) (after.knows (overloadsKnown _ (by decide))) fun a member => ?_
      obtain rfl := List.mem_singleton.mp member
      exact ⟨14, after.noted 2 14 Std.HashMap.getElem?_insert_self⟩
    refine ⟨some 2, s', ?_, (start.trans before).thenTells (Telling.report _ _ _ _ _ _ told)⟩
    change ((Queries.ofDepth 1000).resolveCall (markAt 3) (markAt 4) [holdingList] [2, 3]).run (overloads {}) = _
    rw [takenRun (by decide) (known [2, 3] (by decide)) (show _ = [2, 3] by decide), runThen typed, runThen refused]
    exact (runThen told).trans ((runThen looked).trans rfl)

end Fragment.Typing
