import Fragment.Proofs.Overloads
import Fragment.Proofs.UnionParts

/-! Calls through unions of functions.
A union can be called if each of its parts has one signature, all with as many parameters, and then the
signature of the first part stands for all. Only its parameters and its result are looked at: the other
parts are not asked whether they take the arguments. -/
namespace Fragment.Typing

open Source (Expr Mark)
open Check

namespace State

/-- How many parameters a signature has. -/
def arity (st : State) (g : SignatureId) : Nat := ((st.signature? g).map (·.parameters.length)).getD 0

/-- The number of parameters of the only signature among some. -/
def onlyArity? (st : State) : List SignatureId → Option Nat
  | [g] => some (st.arity g)
  | _ => none

/-- The signatures of a union. -/
def unionSignatures (st : State) (types : List TypeId) : List SignatureId :=
  match types with
  | [] => []
  | first :: rest =>
    let count := st.onlyArity? (st.signaturesOf first)
    if count.isSome && rest.all (fun p => st.onlyArity? (st.signaturesOf p) == count) then st.signaturesOf first
    else []

theorem onlyAritySome {st : State} {gs : List SignatureId} {count : Nat} (only : st.onlyArity? gs = some count) :
    ∃ g, gs = [g] ∧ st.arity g = count := by
  unfold onlyArity? at only
  split at only
  · next g => exact ⟨g, rfl, Option.some.inj only⟩
  · cases only

/-- The signature of a union is that of its first part, and each part has one with as many parameters. -/
theorem unionSignaturesCases (st : State) (types : List TypeId) : st.unionSignatures types = [] ∨
    ∃ first rest g, types = first :: rest ∧ st.signaturesOf first = [g] ∧ st.unionSignatures types = [g] ∧
      ∀ p ∈ types, ∃ h, st.signaturesOf p = [h] ∧ st.arity h = st.arity g := by
  cases types with
  | nil => exact .inl rfl
  | cons first rest =>
    unfold unionSignatures
    dsimp only
    split
    · next alike =>
      simp only [Bool.and_eq_true, List.all_eq_true, beq_iff_eq, Option.isSome_iff_exists] at alike
      obtain ⟨⟨count, only⟩, others⟩ := alike
      obtain ⟨g, single, arity⟩ := onlyAritySome only
      refine .inr ⟨first, rest, g, rfl, single, single, fun p member => ?_⟩
      rcases List.mem_cons.mp member with rfl | member
      · exact ⟨g, single, rfl⟩
      · obtain ⟨h, same, arity'⟩ := onlyAritySome ((others p member).trans only)
        exact ⟨h, same, arity'.trans arity.symm⟩
    · exact .inl rfl

end State

section Reading

variable {st : State} {n : Nat} {types : List TypeId} {f : TypeId}

theorem readsMap {α β : Type} {enough : Prop} {xs : List α} {m : α → Check β} {v : α → β}
    (each : ∀ x ∈ xs, Reads st enough (m x) (v x)) : Reads st enough (xs.mapM m) (xs.map v) := by
  induction xs with
  | nil => exact Reads.pure []
  | cons x xs ih =>
    rw [List.forall_mem_cons] at each
    rw [List.mapM_cons]
    exact each.1.bind ((ih each.2).bind (Reads.pure _))

theorem readsUnionSignatures (resolved : st.Resolved) (form : (st.typeInfo f).form = .union types) :
    Reads st (1 ≤ n) ((Queries.ofDepth n).signatures f) (st.unionSignatures types) := by
  refine (readsForm _ f).bind ?_
  rw [form]
  have all : Reads st (1 ≤ n) (types.mapM fun p => return (← (Queries.ofDepth n).members p).signatures)
      (types.map st.signaturesOf) :=
    readsMap fun p _ => (readsMembers resolved p).bind (Reads.pure _)
  refine all.bind ?_
  have counts : Reads st (1 ≤ n) ((types.map st.signaturesOf).mapM fun
      | [g] => return some (← signature g).parameters.length
      | _ => return none) ((types.map st.signaturesOf).map st.onlyArity?) := by
    refine readsMap fun gs member => ?_
    obtain ⟨p, -, rfl⟩ := List.mem_map.mp member
    split
    · next g single =>
      obtain ⟨sig, found, -⟩ := resolved.signatures p g (single ▸ List.mem_singleton_self g)
      have arity : st.onlyArity? (st.signaturesOf p) = some sig.parameters.length := by
        simp [single, State.onlyArity?, State.arity, found]
      rw [arity]
      exact (readsSignature _ found).bind (Reads.pure _)
    · next other =>
      rw [State.onlyArity?.eq_2 _ _ other]
      exact Reads.pure none
  refine counts.bind ?_
  unfold State.unionSignatures
  cases types with
  | nil => exact Reads.pure []
  | cons first rest =>
    simp only [List.map_cons, List.map_map, List.all_cons, List.all_map, beq_self_eq_true, Bool.true_and]
    exact Reads.pure _

end Reading

section Calls

variable {st : State} {n : Nat} {mark : Mark} {callee : Expr} {args : List Expr} {types : List TypeId} {f : TypeId}

/-- A call of something without signatures is reported. -/
theorem uncallableTells (mark : Mark) (f : TypeId) : Telling (do
    report mark .notCallable [(Message.noCallSignatures (← (Queries.ofDepth n).textOf f)).text]
    for arg in args do discard <| (Queries.ofDepth n).typeOfExpr arg none
    return (none : Option SignatureId)) := by
  have (s : State) := depthLevel (I := s.Continues) n
  refine .last fun text => ?_
  have (s : State) (_ : Unit) : Keeps s.Continues (do
      for arg in args do discard <| (Queries.ofDepth n).typeOfExpr arg none
      return (none : Option SignatureId)) := .bind (.forIn fun e _ _ => inferInstance) inferInstance
  exact Telling.first (Telling.report _ _ _)

/-- A call through a union of which nothing is reported is resolved with the signature of the first part. -/
theorem unionChosen (flags : (st.typeInfo f).flags = TypeFlags.union) (form : (st.typeInfo f).form = .union types)
    (resolved : st.Resolved) {choice : Option SignatureId} {s : State}
    (run : ((Queries.ofDepth (n + 2)).chosenSignature mark callee.mark args f).run st = .ok (choice, s))
    (quiet : ¬st.Tells s) : ∃ first rest g, types = first :: rest ∧ st.signaturesOf first = [g] ∧
      st.unionSignatures types = [g] ∧
      (∀ p ∈ types, ∃ h, st.signaturesOf p = [h] ∧ st.arity h = st.arity g) ∧
      ((Queries.ofDepth (n + 2)).resolveCall mark callee.mark args [g]).run st = .ok (choice, s) := by
  have behind : st.wrapperOf f = f := by
    unfold State.wrapperOf
    rw [flags]
    rfl
  have apparent := (readsApparent (n := n + 2) resolved (t := f) (by simp [form])).known (by omega)
  have looked := (readsUnionSignatures (n := n + 2) resolved form).known (by omega)
  rw [behind] at apparent
  unfold Queries.chosenSignature at run
  rw [runThen apparent, runThen looked] at run
  rcases st.unionSignaturesCases types with none | ⟨first, rest, g, rfl, single, only, alike⟩
  · rw [none] at run
    exact absurd (uncallableTells _ _ _ _ _ run) quiet
  · rw [only] at run
    exact ⟨first, rest, g, rfl, single, only, alike, run⟩

theorem calledPlain (flags : (st.typeInfo f).flags = TypeFlags.union) {mark : Mark} {called : TypeId} {s : State}
    (run : (Queries.calledType mark f).run st = .ok (called, s)) : st.Tells s ∨ (called = f ∧ s = st) := by
  have other : (hasFlag f TypeFlags.voidLike).run st = .ok (false, st) := by
    have plain : (st.typeInfo f).flags.meets TypeFlags.voidLike = false := by
      rw [flags]
      rfl
    exact congrArg (fun b => Except.ok (b, st)) plain
  have defined : (containsUndefined f).run st = .ok (st.somePart f TypeFlags.voidLike, st) := rfl
  unfold Queries.calledType at run
  rw [runThen defined, runThen other] at run
  cases undefined : st.somePart f TypeFlags.voidLike with
  | false =>
    rw [undefined] at run
    cases run
    exact .inr ⟨rfl, rfl⟩
  | true =>
    rw [undefined] at run
    exact .inl (Telling.first (Telling.report _ _ _) _ _ _ run)

/-- A signature that takes as many arguments as another, wants the same of them and has the same result. -/
structure State.Alike (st : State) (count : Nat) (g h : SignatureId) : Prop where
  least : ∀ sig, st.signature? h = some sig → sig.least ≤ count
  bounded : ∀ sig, st.signature? g = some sig → sig.hasRest = false
  wanted : ∀ index < count, st.wanted h index = st.wanted g index
  result : st.resultType h = st.resultType g

theorem State.Continues.arity {s t : State} (before : s.Continues t) {g : SignatureId} {sig : Signature}
    (found : s.signature? g = some sig) : t.arity g = s.arity g := by
  obtain ⟨result, later⟩ := before.signed g sig found
  simp [State.arity, found, later]

theorem givenInside {looked : List (Expr × Nat)} {given : List (Option TypeId × Nat)} {count : Nat}
    (seen : List.Forall₂ (fun a r => ∃ t, r = (some t, a.2) ∧ st.nodeTypes[a.1.mark.id]? = some t) looked given)
    (inside : ∀ a ∈ looked, a.2 < count) : ∀ r ∈ given, r.2 < count := by
  induction seen with
  | nil => nofun
  | cons first _ ih =>
    obtain ⟨t, rfl, -⟩ := first
    rw [List.forall_mem_cons] at inside ⊢
    exact ⟨inside.1, ih inside.2⟩

/-- What is alike takes the same arguments and gives the same result. -/
theorem State.Alike.suits {count : Nat} {g h : SignatureId} {given : List (Option TypeId × Nat)}
    (alike : st.Alike count g h) (arity : st.arity h = st.arity g) (found : (st.signature? h).isSome = true)
    (takes : (st.signature? g).any (·.takes count) = true) (fitting : st.Fitting given g)
    (inside : ∀ r ∈ given, r.2 < count) :
    (st.signature? h).any (·.takes count) = true ∧ st.Fitting given h ∧ st.Accepts (st.resultType h) (st.resultType g) := by
  obtain ⟨sig, foundG, takes⟩ := (Option.any_eq_true _ _).mp takes
  obtain ⟨sig', foundH⟩ := Option.isSome_iff_exists.mp found
  have least := alike.least sig' foundH
  have bounded := alike.bounded sig foundG
  simp only [State.arity, foundG, foundH, Option.map_some, Option.getD_some] at arity
  simp only [Signature.takes, bounded, Bool.false_or, Bool.and_eq_true, decide_eq_true_eq] at takes
  refine ⟨?_, fun t index member => ?_, alike.result ▸ acceptsSelf st _⟩
  · simp [foundH, Signature.takes, least, arity, takes.2]
  · rw [alike.wanted index (inside _ member)]
    exact fitting t index member

/-- A call through a union of which nothing is reported is a call of its first part: this takes the arguments, and its
result is the type of the call. Every part has one signature with as many parameters, and those that are like the one of
the first part take the arguments too and give a result of the type of the call. -/
theorem unionCallTakesFirst (flags : (st.typeInfo f).flags = TypeFlags.union)
    (form : (st.typeInfo f).form = .union types) (resolved : st.Resolved) (noted : st.nodeTypes[callee.mark.id]? = some f)
    (free : ∀ e ∈ args, ignoresContext e = true)
    (settled : ∀ g ∈ st.unionSignatures types, ∀ given t,
      ((Queries.ofDepth (n + 2)).freeTypes args.zipIdx).run st = .ok (given, t) →
        Settled t (n + 2) given [g] g ∧ (t.signature? g).any (·.result.isSome) = true)
    {result : TypeId} {s : State} (run : ((Queries.ofDepth (n + 2)).callType mark callee args).run st = .ok (result, s))
    (quiet : ∀ file, s.reported file = st.reported file) :
    ∃ first rest g given t, types = first :: rest ∧ st.signaturesOf first = [g] ∧
      ((Queries.ofDepth (n + 2)).freeTypes args.zipIdx).run st = .ok (given, t) ∧
      (t.signature? g).any (·.takes args.length) = true ∧ t.Fitting given g ∧ result = t.resultType g ∧
      ∀ p ∈ types, ∃ h, st.signaturesOf p = [h] ∧ t.arity h = t.arity g ∧
        (t.Alike args.length g h → (t.signature? h).any (·.takes args.length) = true ∧ t.Fitting given h ∧
          t.Accepts (t.resultType h) result) := by
  have silent {u v : State} (before : st.Continues u) (after : v.Continues s) : ¬u.Tells v := by
    rintro ⟨file, more⟩
    have earlier := (before.reported file).length_le
    have later := (after.reported file).length_le
    rw [quiet] at later
    omega
  have keeps (u : State) := depthLevel (I := u.Continues) (n + 2)
  have other : (hasFlag f TypeFlags.any).run st = .ok (false, st) := by
    have plain : (st.typeInfo f).flags.meets TypeFlags.any = false := by
      rw [flags]
      rfl
    exact congrArg (fun b => Except.ok (b, st)) plain
  unfold Queries.callType at run
  rw [runThen ((readsExprType (n := n + 2) noted).known (by omega)), runThen other] at run
  obtain ⟨called, u, callable, run⟩ := runBind run
  obtain ⟨choice, v, chosen, run⟩ := runBind run
  have after : v.Continues s := by
    cases choice with
    | none =>
      cases run
      exact .refl _
    | some g =>
      have rest : Keeps v.Continues (do
          modify fun s => { s with resolvedSignatures := s.resolvedSignatures.insert mark.id g }
          (Queries.ofDepth (n + 2)).resultOf g) := by
        infer_instance
      exact rest.keeps v result s (.refl v) run
  rcases calledPlain flags callable with told | ⟨rfl, rfl⟩
  · have rest := (Queries.chosenSignatureKeeps (I := u.Continues) (q := Queries.ofDepth (n + 2))
      (fun e (_ : e ∈ args) => e.labelledAny) mark callee.mark called).keeps u choice v (.refl u) chosen
    exact absurd (told.thenContinues rest) (silent (.refl st) after)
  obtain ⟨first, others, g, rfl, single, only, alike, alone⟩ :=
    unionChosen flags form resolved chosen (silent (.refl u) after)
  rw [only, List.forall_mem_singleton] at settled
  obtain ⟨sig, found, -, typed⟩ := resolved.signatures first g (single ▸ List.mem_singleton_self g)
  obtain ⟨takes, rfl, given, t, kept, freely, fitting, rfl⟩ := quietKept free ⟨sig, found, typed⟩
    (fun given t freely => (settled given t freely).1) alone (silent (.refl u) after)
  obtain ⟨before, seen⟩ := freeTypesNoted freely
  -- Nothing is noted after the arguments but which signature was chosen and what was asked.
  obtain ⟨sig', later, known⟩ := (Option.any_eq_true _ _).mp (settled given t freely).2
  have read : Reads { t with resolvedSignatures := t.resolvedSignatures.insert mark.id g } (1 ≤ n + 2)
      ((Queries.ofDepth (n + 2)).resultOf g) (t.resultType g) := readsResult later known
  obtain ⟨rfl, rfl⟩ := read.ran run
  have suited : (t.signature? g).any (·.takes args.length) = true := by
    rw [before.takes ⟨sig, found, typed⟩]
    exact takes
  refine ⟨first, others, g, given, t, rfl, single, freely, suited, fitting, rfl, fun p member => ?_⟩
  obtain ⟨h, lone, same⟩ := alike p member
  obtain ⟨sigH, foundH, -⟩ := resolved.signatures p h (lone ▸ List.mem_singleton_self h)
  have arity : t.arity h = t.arity g := by rw [before.arity foundH, same, before.arity found]
  obtain ⟨_, laterH⟩ := before.signed h sigH foundH
  exact ⟨h, lone, arity, fun suits => suits.suits arity (by simp [laterH]) suited fitting
    (givenInside seen fun a member => List.snd_lt_of_mem_zipIdx member)⟩

end Calls

section Cases

/-- Three functions, of numbers to numbers, of texts to texts and again of numbers to numbers, and the unions of the
first with each of the others, of which one is the type of a name `f`. A name `x` is a number. -/
def functionsOf (f : TypeId) : State :=
  let parameter (type : TypeId) : Symbol := { flags := SymbolFlags.functionVariable, name := "a", type := some type }
  let function (g : SignatureId) : TypeInfo :=
    { flags := TypeFlags.object, form := .anonymous {}, members := some { signatures := [g] } }
  let signature (x : SymbolId) (result : TypeId) : Signature :=
    { node := { mark := markAt 0, params := [], result := none }, parameters := [x], least := 1, hasRest := false,
      result := some result }
  { State.initial with
    types := initialTypes ++ #[function 0, function 1, function 2,
      { flags := TypeFlags.union, form := .union [12, 13] }, { flags := TypeFlags.union, form := .union [12, 14] }]
    symbols := State.initial.symbols ++ #[parameter numberType, parameter stringType, parameter numberType]
    signatures := #[signature 1 numberType, signature 2 stringType, signature 3 numberType]
    nodeTypes := (({} : Std.HashMap Nat TypeId).insert 1 f).insert 2 numberType }

/-- `f` -/
def functionName : Expr := .ident (markAt 1) "f"

/-- `x` -/
def numberName : Expr := .ident (markAt 2) "x"

set_option maxRecDepth 20000 in
theorem functionsCalled {f : TypeId} (there : f ∈ [15, 16]) :
    ∃ s, (answers.callType (markAt 3) functionName [numberName]).run (functionsOf f) = .ok (numberType, s) ∧
      ∀ file, s.reported file = (functionsOf f).reported file := by
  have ran : outcome ((answers.callType (markAt 3) functionName [numberName]).run (functionsOf f)) =
      some (numberType, true) := by
    simp only [List.mem_cons, List.not_mem_nil, or_false] at there
    rcases there with rfl | rfl <;> cbv
  obtain ⟨s, ran, quiet⟩ := ofOutcome ran
  exact ⟨s, ran, fun file => by rw [silentReports quiet, silentReports rfl]⟩

theorem functionNoted (f : TypeId) : (functionsOf f).nodeTypes[functionName.mark.id]? = some f := by
  rw [functionsOf, Std.HashMap.getElem?_insert]
  exact Std.HashMap.getElem?_insert_self

theorem functionsResolved {f : TypeId} (there : f ∈ [15, 16]) : (functionsOf f).Resolved := by
  simp only [List.mem_cons, List.not_mem_nil, or_false] at there
  rcases there with rfl | rfl <;> exact resolvedOfWorked (by decide +kernel) rfl

theorem numberLooked : ((Queries.ofDepth 1000).freeTypes [numberName].zipIdx).run (functionsOf 16) =
    .ok ([(some numberType, 0)], functionsOf 16) := by
  have noted : (functionsOf 16).nodeTypes[numberName.mark.id]? = some numberType := Std.HashMap.getElem?_insert_self
  have first : (do return (some (← (Queries.ofDepth 1000).typeOfExpr numberName none), 0) :
      Check (Option TypeId × Nat)).run (functionsOf 16) = .ok ((some numberType, 0), functionsOf 16) := by
    rw [runThen ((readsExprType (n := 1000) noted).known (by decide))]
    rfl
  rw [Queries.freeTypes, List.zipIdx_cons, List.mapM_cons, runThen first]
  rfl

theorem functionsAlike {h : SignatureId} (there : h ∈ [0, 2]) : (functionsOf 16).Alike 1 0 h := by
  simp only [List.mem_cons, List.not_mem_nil, or_false] at there
  rcases there with rfl | rfl <;>
    exact ⟨fun sig found => by cases found; exact Nat.le_refl 1, fun sig found => by cases found; rfl,
      by decide, by decide⟩

/- Both functions of numbers take the number, and what they give is the type of the call. -/
theorem alikeFunctionsCalled :
    ((functionsOf 16).signaturesOf 12 = [0] ∧ (functionsOf 16).Fitting [(some numberType, 0)] 0 ∧
      (functionsOf 16).Accepts ((functionsOf 16).resultType 0) numberType) ∧
    (functionsOf 16).signaturesOf 14 = [2] ∧ (functionsOf 16).Fitting [(some numberType, 0)] 2 ∧
      (functionsOf 16).Accepts ((functionsOf 16).resultType 2) numberType := by
  obtain ⟨s, ran, quiet⟩ := functionsCalled (f := 16) (by decide)
  have settled : ∀ g ∈ (functionsOf 16).unionSignatures [12, 14], ∀ given t,
      ((Queries.ofDepth 1000).freeTypes [numberName].zipIdx).run (functionsOf 16) = .ok (given, t) →
        Settled t 1000 given [g] g ∧ (t.signature? g).any (·.result.isSome) = true := by
    intro g member given t looked
    cases looked.symm.trans numberLooked
    obtain rfl : g = 0 := by
      revert member
      decide +revert
    refine ⟨⟨functionsResolved (by decide), fun k b found => by simp [functionsOf, State.initial] at found, rfl, ?_, ?_⟩, rfl⟩
    · intro t index member
      cases List.mem_singleton.mp member
      exact steadyShallow (by decide)
    · intro h among t index member
      cases List.mem_singleton.mp member
      cases List.mem_singleton.mp among
      exact ⟨[(.assignable, numberType, numberType)], by decide, by unfold State.Raises; decide,
        List.nil_subset _, by decide⟩
  obtain ⟨first, rest, g, given, t, parts, single, looked, -, -, is, all⟩ :=
    unionCallTakesFirst (n := 998) rfl rfl (functionsResolved (by decide)) (functionNoted 16) (by decide) settled ran quiet
  cases looked.symm.trans numberLooked
  cases parts
  cases single
  have takes (p : TypeId) (member : p ∈ [12, 14]) (h : SignatureId) (lone : (functionsOf 16).signaturesOf p = [h])
      (there : h ∈ [0, 2]) : (functionsOf 16).Fitting [(some numberType, 0)] h ∧
        (functionsOf 16).Accepts ((functionsOf 16).resultType h) numberType := by
    obtain ⟨h', lone', -, suits⟩ := all p member
    cases lone.symm.trans lone'
    exact (suits (functionsAlike there)).2
  exact ⟨⟨rfl, takes 12 (by decide) 0 rfl (by decide)⟩, rfl, takes 14 (by decide) 2 rfl (by decide)⟩

/- The function of texts is not asked whether it takes the number, and gives what is no number. -/
theorem otherPartsUnasked :
    (∃ s, (answers.callType (markAt 3) functionName [numberName]).run (functionsOf 15) = .ok (numberType, s) ∧
      ∀ file, s.reported file = (functionsOf 15).reported file) ∧
    (functionsOf 15).nodeTypes[functionName.mark.id]? = some 15 ∧
    ((functionsOf 15).typeInfo 15).form = .union [12, 13] ∧ (functionsOf 15).signaturesOf 13 = [1] ∧
    ¬(functionsOf 15).Accepts numberType ((functionsOf 15).wanted 1 0) ∧
    ¬(functionsOf 15).Accepts ((functionsOf 15).resultType 1) numberType := by
  have apart {a b : TypeId} (other : a ≠ b) (simple : (functionsOf 15).simplyRelated .assignable a b = some false) :
      ¬(functionsOf 15).Accepts a b := by
    rw [State.Accepts, ← State.truthIff, State.truthSimple other simple]
    exact Bool.false_ne_true
  exact ⟨functionsCalled (by decide), functionNoted 15, rfl, rfl,
    apart (by decide) (by decide), apart (by decide) (by decide)⟩

end Cases

end Fragment.Typing
