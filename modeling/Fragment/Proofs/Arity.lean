import Fragment.Proofs.Making
import Fragment.Proofs.RelationCache
import Fragment.Proofs.Reshape
import Fragment.Target.Machine

/-! How many arguments a function takes.
The signature of a function counts its parameters when calls are checked, and the code of the function
counts them again when it is called. The two agree where parameters stand in the order required,
optional, rest. A function that is called as if it had another signature takes all arguments that this
signature lets through only if its own signature lets them through as well. -/
namespace Fragment

open Target (ParamMode bindParams)
open Typing (Signature FunctionNode SignatureId)

def Source.Param.mode (p : Source.Param) : ParamMode :=
  if p.rest then .rest else if p.optional then .optional else .required

namespace Arity

/-- Whether required parameters come first, then optional ones, and a rest parameter last. -/
def inOrder (seenOptional : Bool) : List ParamMode → Bool
  | [] => true
  | .required :: ms => !seenOptional && inOrder false ms
  | .optional :: ms => inOrder true ms
  | .rest :: ms => ms.isEmpty

/-- Whether parameters take a number of arguments. -/
def accepts : List ParamMode → Nat → Bool
  | [], n => n = 0
  | .required :: ms, n => 0 < n && accepts ms (n - 1)
  | .optional :: ms, n => accepts ms (n - 1)
  | .rest :: ms, _ => accepts ms 0

/-- The least number of arguments: as many as there are parameters up to the last that is required. -/
def least : List ParamMode → Nat
  | [] => 0
  | .required :: ms => least ms + 1
  | _ :: ms => if least ms = 0 then 0 else least ms + 1

theorem leastOptional {ms : List ParamMode} (ordered : inOrder true ms) : least ms = 0 := by
  induction ms with
  | nil => rfl
  | cons m ms ih =>
    cases m with
    | required =>
      unfold inOrder at ordered
      simp at ordered
    | optional =>
      unfold least
      simp [ih ordered]
    | rest =>
      obtain rfl : ms = [] := by simpa [inOrder] using ordered
      rfl

theorem inOrderWeaken {ms : List ParamMode} (ordered : inOrder true ms) : inOrder false ms := by
  cases ms with
  | nil => rfl
  | cons m ms => cases m <;> simp_all [inOrder]

/-- Parameters in order take from the least number up to one for each, or any more with a rest. -/
theorem acceptsIff {ms : List ParamMode} (ordered : inOrder false ms) (n : Nat) :
    accepts ms n ↔ least ms ≤ n ∧ (.rest ∈ ms ∨ n ≤ ms.length) := by
  induction ms generalizing n with
  | nil =>
    unfold accepts least
    simp
  | cons m ms ih =>
    cases m with
    | required =>
      have ordered : inOrder false ms := by simpa [inOrder] using ordered
      unfold accepts least
      simp only [Bool.and_eq_true, decide_eq_true_eq, ih ordered, List.mem_cons, List.length_cons, reduceCtorEq, false_or]
      by_cases more : .rest ∈ ms <;> simp only [more, true_or, false_or, and_true] <;> omega
    | optional =>
      have none : least ms = 0 := leastOptional (by simpa [inOrder] using ordered)
      have ordered : inOrder false ms := inOrderWeaken (by simpa [inOrder] using ordered)
      unfold accepts least
      simp [ih ordered, none]
    | rest =>
      obtain rfl : ms = [] := by simpa [inOrder] using ordered
      simp [accepts, least]

theorem boundIff (m : Target.Run Target.Frame) (entry : String × Value) (w : Target.World) :
    (∃ frame w', (do return entry :: (← m) : Target.Run Target.Frame) w = .ok frame w') ↔
      ∃ frame w', m w = .ok frame w' := by
  simp only [bind, EStateM.bind]
  cases m w with
  | ok frame w' => simp [pure, EStateM.pure]
  | error f w' => simp

theorem bindParamsIff (args : List Value) (params : List Target.Param) (w : Target.World) :
    (∃ frame w', bindParams args params w = .ok frame w') ↔ accepts (params.map (·.mode)) args.length := by
  induction params generalizing args w with
  | nil =>
    unfold bindParams accepts
    cases args <;> simp [pure, EStateM.pure, throw, throwThe, MonadExceptOf.throw, EStateM.throw]
  | cons p params ih =>
    obtain ⟨name, mode⟩ := p
    simp only [List.map_cons]
    cases mode with
    | required =>
      cases args with
      | nil =>
        unfold bindParams accepts
        simp [throw, throwThe, MonadExceptOf.throw, EStateM.throw]
      | cons v args =>
        refine (boundIff (bindParams args params) _ _).trans ((ih args w).trans ?_)
        simp [accepts]
    | optional =>
      cases args with
      | nil => exact (boundIff _ _ _).trans (ih [] _)
      | cons v args => exact (boundIff _ _ _).trans (ih args _)
    | rest => exact (boundIff (bindParams [] params) _ _).trans (ih [] _)

theorem mapRun {α β γ : Type} {f : α → Emit.Lowering β} {g : β → γ} {h : α → γ} {c : Emit.Context}
    (each : ∀ a p b q, f a c p = .ok (b, q) → g b = h a) {items : List α} {made : List β} {p q : Emit.Progress}
    (run : items.mapM f c p = .ok (made, q)) : made.map g = items.map h := by
  induction items generalizing p made with
  | nil =>
    cases run
    rfl
  | cons a items ih =>
    rw [List.mapM_cons, Emit.bindRun] at run
    cases first : f a c p with
    | error failure => simp [first] at run
    | ok result =>
      simp only [first, Emit.bindRun] at run
      cases later : items.mapM f c result.2 with
      | error failure => simp [later] at run
      | ok rest =>
        simp only [later] at run
        cases run
        simp [each a p _ _ first, ih later]

theorem parametersModes {params : List Source.Param} {c : Emit.Context} {p q : Emit.Progress}
    {made : List Target.Param} {own : List Typing.SymbolId} (run : Emit.parameters params c p = .ok ((made, own), q)) :
    made.map (·.mode) = params.map (·.mode) := by
  simp only [Emit.parameters, Emit.bindRun] at run
  split at run
  case h_2 => cases run
  case h_1 pairs r ran =>
    have alike : pairs.map (·.1.mode) = params.map (·.mode) := by
      refine mapRun (fun param start b stop one => ?_) ran
      rw [Emit.bindRun] at one
      split at one
      case h_2 => cases one
      case h_1 found _ _ =>
        cases found with
        | none => cases one
        | some x =>
          simp only [Emit.bindRun] at one
          split at one
          case h_2 => cases one
          case h_1 =>
            cases one
            rfl
    cases run
    rw [← alike, List.map_map]
    rfl

theorem leastFold (params : List Source.Param) (index most : Nat) :
    (params.foldl (fun count p => (count.1 + 1, if p.rest || p.optional then count.2 else count.1 + 1)) (index, most)).2 =
      if least (params.map (·.mode)) = 0 then most else index + least (params.map (·.mode)) := by
  induction params generalizing index most with
  | nil => rfl
  | cons p params ih =>
    rw [List.foldl_cons, ih, List.map_cons]
    by_cases skipped : p.rest || p.optional
    · have other : least (p.mode :: params.map (·.mode)) =
          if least (params.map (·.mode)) = 0 then 0 else least (params.map (·.mode)) + 1 := by
        unfold Source.Param.mode
        split <;> simp_all [least]
      grind
    · have required : p.mode = .required := by simp_all [Source.Param.mode]
      grind [least]

/-- The signature of a function counts its parameters. -/
structure Counts (sig : Signature) (params : List Source.Param) : Prop where
  parameters : sig.parameters.length = params.length
  least : sig.least = Arity.least (params.map (·.mode))
  rest : sig.hasRest = true ↔ .rest ∈ params.map (·.mode)

theorem takesIff {sig : Signature} {params : List Source.Param} (counts : Counts sig params)
    (ordered : inOrder false (params.map (·.mode))) (n : Nat) :
    sig.takes n ↔ accepts (params.map (·.mode)) n := by
  rw [acceptsIff ordered, ← counts.least, ← counts.rest]
  simp [Signature.takes, counts.parameters]

theorem parameterSymbols (scope : Typing.TypeScope) (params : List Source.Param) (s : Typing.State) :
    ∃ parameters s', params.mapM (Typing.Check.parameterSymbol scope) s = .ok (parameters, s') ∧
      parameters.length = params.length := by
  induction params generalizing s with
  | nil => exact ⟨[], s, rfl, rfl⟩
  | cons p params ih =>
    have one : ∃ x r, Typing.Check.parameterSymbol scope p s = .ok (x, r) := by
      change ∃ x r, (Typing.Check.parameterSymbol scope p).run s = .ok (x, r)
      simp only [Typing.Check.parameterSymbol, StateT.run_bind, StateT.run_get, pure_bind]
      cases s.symbolOf[p.mark.id]? <;> exact ⟨_, _, rfl⟩
    obtain ⟨x, r, first⟩ := one
    obtain ⟨parameters, r', later, length⟩ := ih r
    refine ⟨x :: parameters, r', ?_, by simp [length]⟩
    rw [List.mapM_cons]
    simp only [bind, StateT.bind, Except.bind, first, later]
    rfl

/-- A signature that is made for a function counts the parameters of the function. -/
theorem signatureCounts {node : FunctionNode} {s : Typing.State} (scope : Typing.TypeScope)
    (new : s.functionSignatures[node.mark.id]? = none) :
    ∃ g s' sig, (Typing.Check.signatureOf node scope).run s = .ok (g, s') ∧ s'.signature? g = some sig ∧
      Counts sig node.params := by
  obtain ⟨parameters, r, mapped, length⟩ := parameterSymbols scope node.params s
  have made : ∃ g s', (Typing.Check.signatureOf node scope).run s = .ok (g, s') ∧
      ∃ sig, s'.signature? g = some sig ∧ sig.parameters = parameters ∧ sig.least = (node.params.foldl
        (fun count p => (count.1 + 1, if p.rest || p.optional then count.2 else count.1 + 1)) (0, 0)).2 ∧
      sig.hasRest = node.params.any (·.rest) := by
    simp only [Typing.Check.signatureOf, StateT.run_bind, StateT.run_get, pure_bind, new]
    simp only [StateT.run, bind, Except.bind, mapped]
    exact ⟨_, _, rfl, _, Array.getElem?_push_size, rfl, rfl, rfl⟩
  obtain ⟨g, s', run, sig, found, same, least, rest⟩ := made
  refine ⟨g, s', sig, run, found, same ▸ length, ?_, ?_⟩
  · rw [least, leastFold]
    split <;> omega
  · simp only [rest, List.any_eq_true, List.mem_map, Source.Param.mode]
    grind

/-- Whether a signature lets through every number of arguments that another lets through. -/
def covers (sig other : Signature) : Prop :=
  sig.least ≤ other.least ∧ (sig.hasRest ∨ (other.hasRest = false ∧ other.parameters.length ≤ sig.parameters.length))

theorem coversIff {sig other : Signature} {n : Nat} (taken : other.takes n) :
    covers sig other ↔ ∀ n, other.takes n → sig.takes n := by
  simp only [Signature.takes, Bool.and_eq_true, Bool.or_eq_true, decide_eq_true_eq] at taken ⊢
  constructor
  · rintro ⟨fewer, more⟩ m ⟨enough, bound⟩
    refine ⟨by omega, more.imp id fun ⟨ends, most⟩ => ?_⟩
    have := bound.resolve_left (by simp [ends])
    omega
  · intro all
    by_cases ends : other.hasRest
    · -- Any number from the least on is let through, in particular one more than there are parameters.
      have lowest := all other.least ⟨Nat.le_refl _, .inl ends⟩
      have high := all (other.least + sig.parameters.length + 1) ⟨by omega, .inl ends⟩
      exact ⟨lowest.1, .inl (high.2.resolve_right (by omega))⟩
    · have enough : other.least ≤ other.parameters.length := by
        have := taken.2.resolve_left ends
        omega
      have lowest := all other.least ⟨Nat.le_refl _, .inr enough⟩
      have highest := all other.parameters.length ⟨enough, .inr (Nat.le_refl _)⟩
      exact ⟨lowest.1, highest.2.imp id fun most => ⟨by simpa using ends, most⟩⟩

/-- A function whose parameters stand in order takes exactly the numbers of arguments that its own
signature lets through. Called as if it had another signature, it takes all that this one lets through
exactly if its own signature covers it. -/
theorem callsBindIffCovered {node : FunctionNode} {s : Typing.State} {c : Emit.Context} {p q : Emit.Progress}
    {made : List Target.Param} {own : List Typing.SymbolId} (scope : Typing.TypeScope)
    (new : s.functionSignatures[node.mark.id]? = none)
    (lowered : Emit.parameters node.params c p = .ok ((made, own), q))
    (ordered : inOrder false (node.params.map (·.mode))) :
    ∃ g s' sig, (Typing.Check.signatureOf node scope).run s = .ok (g, s') ∧ s'.signature? g = some sig ∧
      (∀ args w, (∃ frame w', bindParams args made w = .ok frame w') ↔ sig.takes args.length) ∧
      ∀ other : Signature, (∃ n, other.takes n) →
        ((∀ args w, other.takes args.length → ∃ frame w', bindParams args made w = .ok frame w') ↔ covers sig other) := by
  obtain ⟨g, s', sig, signed, found, counts⟩ := signatureCounts scope new
  have own (args : List Value) (w : Target.World) :
      (∃ frame w', bindParams args made w = .ok frame w') ↔ sig.takes args.length := by
    rw [bindParamsIff, parametersModes lowered, takesIff counts ordered]
  refine ⟨g, s', sig, signed, found, own, fun other ⟨n, taken⟩ => ?_⟩
  rw [coversIff taken]
  constructor
  · intro binds n through
    have bound := (own (List.replicate n .undefined) {}).mp (binds _ _ (by simpa using through))
    simpa using bound
  · intro all args w through
    exact (own args w).mpr (all _ through)

def plainParam (id : Nat) (name : String) (optional rest : Bool) : Source.Param :=
  .mk ⟨id, ⟨⟨1, 1⟩, ⟨1, 1⟩⟩⟩ name none optional rest

def mixedNode : FunctionNode :=
  { mark := ⟨0, ⟨⟨1, 1⟩, ⟨1, 1⟩⟩⟩, result := none
    params := [plainParam 1 "a" false false, plainParam 2 "b" true false, plainParam 3 "c" false true] }

def mixedTyping : Typing.State :=
  let symbol (name : String) : Typing.Symbol := { flags := Typing.SymbolFlags.functionVariable, name }
  { Typing.State.initial with
    symbols := Typing.State.initial.symbols ++ #[symbol "a", symbol "b", symbol "c"]
    symbolOf := ((({} : Std.HashMap Nat Typing.SymbolId).insert 1 1).insert 2 2).insert 3 3 }

def mixedContext : Emit.Context := { kind := .script, librarySymbols := [], moduleSymbols := [] }

def mixedStart : Emit.Progress :=
  { typing := mixedTyping, names := { used := ["a", "b", "c"], symbols := [(1, "a"), (2, "b"), (3, "c")] } }

theorem mixedLowered : Emit.parameters mixedNode.params mixedContext mixedStart =
    .ok (([⟨"a", .required⟩, ⟨"b", .optional⟩, ⟨"c", .rest⟩], [1, 2, 3]), mixedStart) := by
  have declared (mark : Source.Mark) : Emit.Lowering.declaredSymbol? mark mixedContext mixedStart =
    .ok (mixedTyping.symbolOf[mark.id]?, mixedStart) := rfl
  have first : mixedTyping.symbolOf[1]? = some 1 := by simp [mixedTyping, Std.HashMap.getElem_insert]
  have second : mixedTyping.symbolOf[2]? = some 2 := by simp [mixedTyping, Std.HashMap.getElem_insert]
  have third : mixedTyping.symbolOf[3]? = some 3 := by simp [mixedTyping]
  have named : Emit.Lowering.nameOf 1 mixedContext mixedStart = .ok ("a", mixedStart) ∧
    Emit.Lowering.nameOf 2 mixedContext mixedStart = .ok ("b", mixedStart) ∧
    Emit.Lowering.nameOf 3 mixedContext mixedStart = .ok ("c", mixedStart) := ⟨rfl, rfl, rfl⟩
  simp only [Emit.parameters, mixedNode, plainParam, Source.Param.mark, List.mapM_cons, Emit.bindRun, Emit.pureRun, declared,
    first, second, third, named]
  rfl

/-- The function takes three arguments but not none, and its signature says so. -/
theorem mixedCallsBind : ∃ g s' sig, (Typing.Check.signatureOf mixedNode []).run mixedTyping = .ok (g, s') ∧
    s'.signature? g = some sig ∧ sig.takes 3 = true ∧ sig.takes 0 = false ∧
    ∀ other : Signature, other.takes 3 = true →
      ((∀ args w, other.takes args.length → ∃ frame w',
          bindParams args [⟨"a", .required⟩, ⟨"b", .optional⟩, ⟨"c", .rest⟩] w = .ok frame w') ↔ covers sig other) := by
  have ordered : inOrder false (mixedNode.params.map (·.mode)) = true := by decide
  have new : mixedTyping.functionSignatures[mixedNode.mark.id]? = none := by simp [mixedTyping, Typing.State.initial]
  obtain ⟨g, s', sig, signed, found, own, others⟩ := callsBindIffCovered [] new mixedLowered ordered
  have three := (own [.undefined, .undefined, .undefined] {}).mp ⟨_, _, rfl⟩
  have none : ¬ sig.takes 0 = true := by
    intro taken
    obtain ⟨_, _, bound⟩ := (own [] {}).mpr taken
    cases bound
  exact ⟨g, s', sig, signed, found, three, by simpa using none, fun other taken => others other ⟨3, taken⟩⟩

/-! A function with fewer parameters than the type that it is called at -/

def numbersSignature (parameters : List Typing.SymbolId) : Signature :=
  { node := { mark := ⟨0, ⟨⟨1, 1⟩, ⟨1, 1⟩⟩⟩, params := parameters.map fun x => plainParam x "a" false false, result := none }
    parameters, least := parameters.length, hasRest := false, result := some Typing.numberType }

def numbersTyping : Typing.State :=
  let number : Typing.Symbol :=
    { flags := Typing.SymbolFlags.functionVariable, name := "a", type := some Typing.numberType }
  let function (g : SignatureId) : Typing.TypeInfo :=
    { flags := Typing.TypeFlags.object, form := .anonymous {}, members := some { signatures := [g] } }
  { Typing.State.initial with
    types := Typing.initialTypes ++ #[function 0, function 1]
    symbols := Typing.State.initial.symbols ++ #[number, number, number]
    signatures := #[numbersSignature [1], numbersSignature [2, 3]] }

/-- The function of one number may stand for that of two, and refuses the call that is let through. -/
theorem fewerParametersRefuse :
    Typing.answers.reply numbersTyping (.assignable, 12, 13) = .ok true ∧
    Counts (numbersSignature [1]) [plainParam 1 "a" false false] ∧ (numbersSignature [2, 3]).takes 2 = true ∧
    ¬ covers (numbersSignature [1]) (numbersSignature [2, 3]) ∧
    ∀ first second w, bindParams [first, second] [⟨"a", .required⟩] w = .error .kind w := by
  refine ⟨Typing.okOfSome (by decide), ⟨rfl, rfl, by decide⟩, by decide, ?_, fun _ _ _ => rfl⟩
  rintro ⟨_, rest | ⟨_, more⟩⟩
  · cases rest
  · exact absurd more (by decide)

end Arity

end Fragment
