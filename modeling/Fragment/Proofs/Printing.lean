import Fragment.Proofs.RelationCache
import Fragment.Proofs.Interning
import Fragment.Proofs.Replies
import Mathlib

/-! Where the text of a type comes to an end.
The parts of a type are written at its own depth, and the parameters and the result of a type that is only called one
deeper, however deep that is. The members of other objects alone are cut short. So a type has a text exactly if no type
that is written on the way leads back to itself through parts, parameters and results. -/
namespace Fragment.Typing

open Check

namespace State

variable (st : State)

/-- The union of some types, where it exists. -/
def unionOf? (types : List TypeId) : Option TypeId :=
  match st.unionShape types with
  | .single t => some t
  | .several ts => st.unions[(ts, "")]?

/-- The type of a symbol's value when it is there, as it is known. -/
def presentValue (x : SymbolId) : TypeId :=
  match (st.symbol x).isOptional, (st.typeInfo (st.valueType x)).form with
  | true, .union types =>
    (st.unionOf? (types.filter fun p => !(st.typeInfo p).flags.meets TypeFlags.undefined)).getD anyType
  | _, _ => st.valueType x

def parametersOf (g : SignatureId) : List SymbolId := ((st.signature? g).map (·.parameters)).getD []

/-- The types in the text of a signature. -/
def spelled (g : SignatureId) : List TypeId := (st.parametersOf g).map st.presentValue ++ [st.resultType g]

/-- The types in the text of a property: those of its signatures if it is a method. -/
def spelledProperty (x : SymbolId) : List TypeId :=
  if (st.symbol x).flags.meets SymbolFlags.method then (st.signaturesOf (st.presentValue x)).flatMap st.spelled
  else [st.presentValue x]

/-- The types in the text of an object type at some depth. -/
def writtenObject (t : TypeId) (depth : Nat) : List TypeId :=
  match st.propertiesOf t, st.signaturesOf t with
  | [], [g] => st.spelled g
  | xs, gs => if printDepth ≤ depth then [] else gs.flatMap st.spelled ++ xs.flatMap st.spelledProperty

/-- The types in the text of a type, each with its depth. -/
def written : TypeId × Nat → List (TypeId × Nat)
  | (t, depth) => match (st.typeInfo t).givenName, (st.typeInfo t).form with
    | none, .union types | none, .intersection types | none, .reference _ types => types.map (·, depth)
    | none, .array element => [(element, depth)]
    | none, .anonymous a => if a.isEnumObject then [] else (st.writtenObject t depth).map (·, depth + 1)
    | _, _ => []

/-- The types in the text of a type that is never cut short: its parts, and what it takes and gives if it is only
called. -/
def inlined (t : TypeId) : List TypeId :=
  match (st.typeInfo t).givenName, (st.typeInfo t).form with
  | none, .union types | none, .intersection types | none, .reference _ types => types
  | none, .array element => [element]
  | none, .anonymous a =>
    if a.isEnumObject then [] else match st.propertiesOf t, st.signaturesOf t with
      | [], [g] => st.spelled g
      | _, _ => []
  | _, _ => []

def Writes (p next : TypeId × Nat) : Prop := next ∈ st.written p

def Inlines (t u : TypeId) : Prop := u ∈ st.inlined t

/-- No type on the way is written inside itself again and again. -/
def Unwinds (p : TypeId × Nat) : Prop :=
  ∀ u depth, Relation.ReflTransGen st.Writes p (u, depth) → ¬Relation.TransGen st.Inlines u u

/-- What is written below a type is written within some number of levels. -/
def Below : Nat → TypeId × Nat → Prop
  | 0, _ => False
  | n + 1, p => ∀ next ∈ st.written p, Below n next

/-- What writing looks at is there. -/
structure Spelled : Prop extends st.Resolved where
  present : ∀ x types, (st.symbol x).isOptional = true → (st.typeInfo (st.valueType x)).form = .union types →
    (st.unionOf? (types.filter fun p => !(st.typeInfo p).flags.meets TypeFlags.undefined)).isSome = true
  methods : ∀ t, ∀ x ∈ st.propertiesOf t, (st.symbol x).flags.meets SymbolFlags.method = true →
    ∀ types, (st.typeInfo (st.presentValue x)).form ≠ .union types
  numbers : ∀ t n base, (st.typeInfo t).form = .literal (.number n) base → ∃ text, n.sourceText = .ok text

end State

section Runs

variable {st : State} {enough P Q R S : Prop} {α β : Type}

/-- A step that changes nothing. Where it ends `P` holds, and where `Q` holds it ends. -/
def Ends (st : State) (P Q : Prop) (m : Check α) : Prop :=
  (P ∧ ∃ a, m.run st = .ok (a, st)) ∨ (¬Q ∧ ∃ f, m.run st = .error f)

theorem Ends.pure (a : α) : Ends st True True (pure a) := .inl ⟨trivial, a, rfl⟩

theorem Ends.weaken {m : Check α} (ends : Ends st P Q m) (needs : P → R) (enough : S → Q) : Ends st R S m :=
  ends.imp (fun ⟨holds, ok⟩ => ⟨needs holds, ok⟩) fun ⟨short, failed⟩ => ⟨fun h => short (enough h), failed⟩

theorem Ends.bind {m : Check α} {f : α → Check β} (first : Ends st P Q m) (next : ∀ a, Ends st R S (f a)) :
    Ends st (P ∧ R) (Q ∧ S) (m >>= f) := by
  rcases first with ⟨holds, a, ok⟩ | ⟨short, fault, failed⟩
  · unfold Ends
    rw [StateT.run_bind, ok]
    exact (next a).imp (fun ⟨holds', ok⟩ => ⟨⟨holds, holds'⟩, ok⟩) fun ⟨short, failed⟩ => ⟨fun h => short h.2, failed⟩
  · refine .inr ⟨fun h => short h.1, fault, ?_⟩
    rw [StateT.run_bind, failed]
    rfl

/-- What is worked out of the text in the end has no part in this. -/
theorem Ends.map {m : Check α} {f : α → β} (ends : Ends st P Q m) : Ends st P Q (do return f (← m)) :=
  (ends.bind fun a => Ends.pure (f a)).weaken (·.1) fun h => ⟨h, trivial⟩

theorem Ends.get {f : State → Check β} (next : Ends st P Q (f st)) : Ends st P Q (get >>= f) := next

theorem Reads.ends {m : Check α} {f : α → Check β} {v : α} (first : Reads st enough m v) (next : Ends st P Q (f v)) :
    Ends st P (enough ∧ Q) (m >>= f) := by
  rcases first st.relations st.relating with ok | ⟨short, fault, failed⟩
  · have ran : m.run st = .ok (v, st) := ok
    unfold Ends
    rw [StateT.run_bind, ran]
    exact next.imp id fun ⟨short, failed⟩ => ⟨fun h => short h.2, failed⟩
  · have ran : m.run st = .error fault := failed
    refine .inr ⟨fun h => short h.1, fault, ?_⟩
    rw [StateT.run_bind, ran]
    rfl

theorem Ends.mapM {p q : α → Prop} {f : α → Check β} {xs : List α} (each : ∀ x ∈ xs, Ends st (p x) (q x) (f x)) :
    Ends st (∀ x ∈ xs, p x) (∀ x ∈ xs, q x) (xs.mapM f) := by
  induction xs with
  | nil => exact (Ends.pure []).weaken (fun _ => by simp) fun _ => trivial
  | cons x xs ih =>
    rw [List.forall_mem_cons] at each
    rw [List.mapM_cons]
    refine (each.1.bind fun y => (ih each.2).map (f := (y :: ·))).weaken ?_ ?_ <;>
      simp only [List.forall_mem_cons, imp_self]

end Runs

section Levels

variable {st : State} {enough : Prop} {q : Queries} {P Q : TypeId × Nat → Prop}

theorem readsUnion {types : List TypeId} {u : TypeId} (made : st.unionOf? types = some u) :
    Reads st enough (union types) u := by
  intro kept opened
  refine .inl ?_
  have same : (st.asking kept opened).unionShape types = st.unionShape types := rfl
  rw [union, State.unionRun, same]
  unfold State.unionOf? at made
  cases shape : st.unionShape types with
  | single t =>
    rw [shape] at made
    cases made
    rfl
  | several ts =>
    rw [shape] at made
    have there : (st.asking kept opened).unions[(ts, (none : Option String).getD "")]? = some u := made
    simp only [State.enterUnion, there]

theorem readsPresent (spelled : st.Spelled) (looks : Looks st enough q) {x : SymbolId}
    (known : (st.symbol x).type.isSome = true) : Reads st enough (q.presentType x) (st.presentValue x) := by
  refine Reads.bind (looks.valueType x known) (Reads.bind (readsSymbol _ x) ?_)
  unfold State.presentValue
  by_cases parted : ∃ types, (st.typeInfo (st.valueType x)).form = .union types
  · obtain ⟨types, form⟩ := parted
    refine Reads.bind (v := true) (Reads.bind (readsForm _ _) (by rw [form]; exact Reads.pure true)) ?_
    simp only [form, Bool.and_true]
    cases optional : (st.symbol x).isOptional with
    | false => exact Reads.pure _
    | true =>
      obtain ⟨u, made⟩ := Option.isSome_iff_exists.mp (spelled.present x types optional form)
      refine Reads.get fun kept opened => ?_
      have parts : (st.asking kept opened).parts (st.valueType x) = types := by
        change st.parts (st.valueType x) = types
        simp only [State.parts, form]
      have made' : st.unionOf? (types.filter fun p =>
          !((st.asking kept opened).typeInfo p).flags.meets TypeFlags.undefined) = some u := made
      simp only [parts, made, Option.getD_some]
      exact readsUnion made'
  · rw [not_exists] at parted
    refine Reads.bind (v := false) (Reads.bind (readsForm _ _) ?_) ?_
    · split
      · exact absurd ‹_› (parted _)
      · exact Reads.pure false
    · simp only [Bool.and_false, Bool.false_eq_true, ↓reduceIte]
      split
      · exact absurd ‹_› (parted _)
      · exact Reads.pure _

theorem readsName (st : State) (enough : Prop) (t : TypeId) : ∃ name, Reads st enough (Queries.symbolName t) name := by
  refine (readsInfo _ t).andThen ?_
  split
  · exact (readsSymbol _ _).andThen ⟨_, Reads.pure _⟩
  · exact ⟨_, Reads.pure _⟩

theorem readsNames (st : State) (enough : Prop) (ts : List TypeId) : ∃ names, Reads st enough (ts.mapM Queries.symbolName) names := by
  induction ts with
  | nil => exact ⟨[], Reads.pure []⟩
  | cons t ts ih =>
    rw [List.mapM_cons]
    obtain ⟨_, first⟩ := readsName st enough t
    obtain ⟨_, rest⟩ := ih
    exact ⟨_, first.bind (rest.bind (Reads.pure _))⟩

/-- What the text of a signature looks at is known. -/
def State.Known (st : State) (g : SignatureId) : Prop := ∃ sig, st.signature? g = some sig ∧
  sig.result.isSome = true ∧ ∀ x ∈ sig.parameters, (st.symbol x).type.isSome = true

variable (spelled : st.Spelled) (looks : Looks st enough q)
  (each : ∀ t depth, Ends st (P (t, depth)) (Q (t, depth)) (q.write t depth))

include spelled looks each

theorem parametersEnd {g : SignatureId} (known : st.Known g) (depth : Nat) :
    Ends st (∀ x ∈ st.parametersOf g, P (st.presentValue x, depth))
      (enough ∧ ∀ x ∈ st.parametersOf g, Q (st.presentValue x, depth)) (q.writeParameters g depth) := by
  obtain ⟨sig, found, -, typed⟩ := known
  have parameters : st.parametersOf g = (sig.parameters.zipIdx).map (·.1) := by
    simp [State.parametersOf, found]
  have one : ∀ x ∈ sig.parameters, ∀ f : Symbol → String → String, Ends st (P (st.presentValue x, depth))
      (enough ∧ Q (st.presentValue x, depth)) (do
        let s ← symbol x
        let type ← q.write (← q.presentType x) depth
        return f s type) := by
    intro x member f
    have present := readsPresent spelled looks (typed x member)
    refine ((readsSymbol enough x).ends (present.ends (each _ _).map)).weaken id fun h => ⟨h.1, h⟩
  refine ((readsSignature enough found).ends (Ends.map (Ends.mapM (p := fun y => P (st.presentValue y.1, depth))
    (q := fun y => enough ∧ Q (st.presentValue y.1, depth)) fun y member => ?_))).weaken ?_ ?_
  · exact one y.1 (List.fst_mem_of_mem_zipIdx member) _
  · simp only [parameters, List.forall_mem_map, imp_self]
  · rintro ⟨levels, rest⟩
    rw [parameters, List.forall_mem_map] at rest
    exact ⟨levels, fun y member => ⟨levels, rest y member⟩⟩

theorem signatureEnds {g : SignatureId} (known : st.Known g) (between : String) (depth : Nat) :
    Ends st (∀ u ∈ st.spelled g, P (u, depth)) (enough ∧ ∀ u ∈ st.spelled g, Q (u, depth))
      (q.writeSignature between g depth) := by
  have result : Reads st enough (q.resultOf g) (st.resultType g) := by
    obtain ⟨sig, found, gives, -⟩ := known
    exact looks.result g sig found gives
  refine ((parametersEnd spelled looks each known depth).bind fun params =>
    result.ends (each _ depth).map).weaken ?_ ?_ <;>
    simp only [State.spelled, List.forall_mem_append, List.forall_mem_map, List.forall_mem_singleton]
  · exact id
  · exact fun ⟨levels, params, result⟩ => ⟨⟨levels, params⟩, levels, result⟩

theorem signaturesEnd {gs : List SignatureId} (known : ∀ g ∈ gs, st.Known g) (between : String) (depth : Nat)
    {α : Type} (f : String → α) :
    Ends st (∀ u ∈ gs.flatMap st.spelled, P (u, depth)) (enough ∧ ∀ u ∈ gs.flatMap st.spelled, Q (u, depth))
      (gs.mapM fun g => do return f (← q.writeSignature between g depth)) := by
  refine (Ends.mapM fun g member => (signatureEnds spelled looks each (known g member) between depth).map).weaken
    ?_ ?_ <;> simp only [List.forall_mem_flatMap]
  · exact id
  · exact fun ⟨levels, all⟩ g member => ⟨levels, all g member⟩

theorem propertyEnds {t : TypeId} {x : SymbolId} (member : x ∈ st.propertiesOf t) (depth : Nat) :
    Ends st (∀ u ∈ st.spelledProperty x, P (u, depth)) (enough ∧ ∀ u ∈ st.spelledProperty x, Q (u, depth))
      (q.writeProperty x depth) := by
  have present := readsPresent spelled looks (spelled.properties t x member)
  refine ((readsSymbol enough x).ends (present.ends (P := ∀ u ∈ st.spelledProperty x, P (u, depth))
    (Q := enough ∧ ∀ u ∈ st.spelledProperty x, Q (u, depth)) ?_)).weaken id fun h => ⟨h.1, h.1, h⟩
  unfold State.spelledProperty
  cases method : (st.symbol x).flags.meets SymbolFlags.method with
  | true =>
    have signatures := readsSignatures looks (spelled.methods t x member method)
    simp only [↓reduceIte]
    refine (signatures.ends (signaturesEnd spelled looks each (spelled.signatures _) ": " depth _)).weaken id
      fun h => ⟨h.1, h⟩
  | false =>
    simp only [Bool.false_eq_true, ↓reduceIte, List.forall_mem_singleton]
    exact (each _ depth).map.weaken id And.right

theorem objectEnds {t : TypeId} {a : Anonymous} (form : (st.typeInfo t).form = .anonymous a) (depth : Nat)
    (own : a.isEnumObject = false) :
    Ends st (∀ u ∈ st.writtenObject t depth, P (u, depth + 1))
      (enough ∧ ∀ u ∈ st.writtenObject t depth, Q (u, depth + 1)) (q.writeObject t a depth) := by
  have plain : ∀ types, (st.typeInfo t).form ≠ .union types := by simp [form]
  have known : ∀ g ∈ st.signaturesOf t, st.Known g := spelled.signatures t
  have cut : ∀ text : String, Ends st (∀ u ∈ ([] : List TypeId), P (u, depth + 1))
      (enough ∧ ∀ u ∈ ([] : List TypeId), Q (u, depth + 1)) (pure text) := fun text =>
    (Ends.pure text).weaken (fun _ => by simp) fun _ => trivial
  simp only [Queries.writeObject, own, Bool.false_eq_true, ↓reduceIte]
  refine ((readsProperties looks plain).ends ((readsSignatures looks plain).ends
    (P := ∀ u ∈ st.writtenObject t depth, P (u, depth + 1))
    (Q := enough ∧ ∀ u ∈ st.writtenObject t depth, Q (u, depth + 1)) ?_)).weaken id fun h => ⟨h.1, h.1, h⟩
  have whole : Ends st
      (∀ u ∈ (if printDepth ≤ depth then [] else
        (st.signaturesOf t).flatMap st.spelled ++ (st.propertiesOf t).flatMap st.spelledProperty), P (u, depth + 1))
      (enough ∧ ∀ u ∈ (if printDepth ≤ depth then [] else
        (st.signaturesOf t).flatMap st.spelled ++ (st.propertiesOf t).flatMap st.spelledProperty), Q (u, depth + 1))
      (do
        if printDepth ≤ depth then return "\x7b ...; \x7d"
        let calls ← (st.signaturesOf t).mapM fun g => return (← q.writeSignature ": " g (depth + 1)) ++ ";"
        let fields ← (st.propertiesOf t).mapM (q.writeProperty · (depth + 1))
        return "\x7b " ++ String.intercalate " " (calls ++ fields.flatten) ++ " \x7d") := by
    by_cases deep : printDepth ≤ depth
    · simp only [deep, ↓reduceIte]
      exact cut _
    · simp only [deep, ↓reduceIte, List.forall_mem_append]
      refine (signaturesEnd spelled looks each known ": " (depth + 1) _).bind (fun calls => Ends.map
        (Ends.mapM fun x member => propertyEnds spelled looks each member (depth + 1))) |>.weaken ?_ ?_ <;>
        simp only [List.forall_mem_flatMap]
      · exact id
      · exact fun ⟨levels, calls, fields⟩ => ⟨⟨levels, calls⟩, fun x member => ⟨levels, fields x member⟩⟩
  unfold State.writtenObject
  cases props : st.propertiesOf t with
  | nil =>
    rcases sigs : st.signaturesOf t with _ | ⟨g, _ | ⟨g', gs⟩⟩
    · simp only [List.flatMap_nil, List.append_nil, ite_self]
      exact cut _
    · exact signatureEnds spelled looks each (known g (by simp [sigs])) " => " (depth + 1)
    · rw [props, sigs] at whole
      exact whole
  | cons x xs =>
    rw [props] at whole
    exact whole

omit spelled in
/-- A part of a type ends as its own text does. -/
theorem partEnds (t : TypeId) (depth : Nat) :
    Ends st (P (t, depth)) (enough ∧ Q (t, depth)) (q.writePart t depth) := by
  have function : ∃ b, Reads st enough (q.isFunctionType t) b := by
    refine (readsForm _ t).andThen ?_
    split
    · rename_i a form
      have plain : ∀ types, (st.typeInfo t).form ≠ .union types := by simp [form]
      split
      · exact ⟨_, Reads.pure _⟩
      · refine (readsProperties looks plain).andThen ?_
        split
        · exact ⟨_, Reads.pure _⟩
        · exact (readsSignatures looks plain).andThen ⟨_, Reads.pure _⟩
    · exact ⟨_, Reads.pure _⟩
  refine ((each t depth).bind (R := True) (S := enough) fun text => ?_).weaken (·.1) fun h => ⟨h.2, h.1⟩
  refine ((readsInfo enough t).ends (P := True) (Q := enough) ?_).weaken id fun h => ⟨h, h⟩
  have done : ∀ text : String, Ends st True enough (pure text) := fun text =>
    (Ends.pure text).weaken id fun _ => trivial
  split
  · exact done _
  · split
    · exact ((Ends.pure true).bind fun _ => done _).weaken (·.1) fun h => ⟨trivial, h⟩
    · exact ((Ends.pure true).bind fun _ => done _).weaken (·.1) fun h => ⟨trivial, h⟩
    · obtain ⟨b, reads⟩ := function
      exact (reads.ends (done _)).weaken id fun h => ⟨h, h⟩

/-- One level of writing ends exactly as what is written below ends. -/
theorem textEnds (t : TypeId) (depth : Nat) : Ends st (∀ next ∈ st.written (t, depth), P next)
    (enough ∧ ∀ next ∈ st.written (t, depth), Q next) (q.computeText t depth) := by
  refine ((readsInfo enough t).ends (P := ∀ next ∈ st.written (t, depth), P next)
    (Q := enough ∧ ∀ next ∈ st.written (t, depth), Q next) ?_).weaken id fun h => ⟨h.1, h⟩
  have leaf : ∀ {m : Check String}, (∃ text, Reads st enough m text) → Ends st
      (∀ next ∈ ([] : List (TypeId × Nat)), P next) (enough ∧ ∀ next ∈ ([] : List (TypeId × Nat)), Q next) m := by
    rintro m ⟨text, reads⟩
    have ends := reads.ends (f := pure) (Ends.pure text)
    rw [bind_pure] at ends
    exact ends.weaken (fun _ => by simp) fun h => ⟨h.1, trivial⟩
  have parts : ∀ (types : List TypeId) (f : List String → String), Ends st
      (∀ next ∈ types.map (·, depth), P next) (enough ∧ ∀ next ∈ types.map (·, depth), Q next)
      (do return f (← types.mapM (q.writePart · depth))) := by
    intro types f
    refine (Ends.map (Ends.mapM fun u _ => partEnds looks each u depth)).weaken ?_ ?_ <;>
      simp only [List.forall_mem_map]
    · exact id
    · exact fun ⟨levels, all⟩ u member => ⟨levels, all u member⟩
  simp only [State.written]
  cases (st.typeInfo t).givenName with
  | some name => exact leaf ⟨name, Reads.pure name⟩
  | none =>
    cases form : (st.typeInfo t).form with
    | intrinsic name => exact leaf ⟨name, Reads.pure name⟩
    | enumLiteral n base =>
      obtain ⟨_, first⟩ := readsName st enough base
      obtain ⟨_, second⟩ := readsName st enough t
      exact leaf ⟨_, first.bind (second.bind (Reads.pure _))⟩
    | literal value base =>
      cases value with
      | text s => exact leaf ⟨_, Reads.pure _⟩
      | bool b => exact leaf ⟨_, Reads.pure _⟩
      | number n =>
        obtain ⟨text, spells⟩ := spelled.numbers t n base form
        refine leaf ⟨text, fun kept opened => .inl ?_⟩
        simp only [spells]
        rfl
    | enum members => exact leaf (readsName st enough t)
    | typeParameter bound => exact leaf (readsName st enough t)
    | union types =>
      refine Ends.get ?_
      dsimp only
      generalize order : types.partition (fun p => (st.typeInfo p).flags.meets TypeFlags.undefined) = split
      obtain ⟨last, first⟩ := split
      have same : ∀ u, u ∈ first ++ last ↔ u ∈ types := fun u => by
        rw [List.partition_eq_filter_filter, Prod.mk.injEq] at order
        obtain ⟨rfl, rfl⟩ := order
        simp only [List.mem_append, List.mem_filter]
        grind
      refine (parts (first ++ last) _).weaken ?_ ?_ <;> simp only [List.forall_mem_map, same, imp_self]
    | intersection types => exact parts types _
    | array element =>
      refine (partEnds looks each element depth).map.weaken ?_ ?_ <;> simp
    | reference target args =>
      obtain ⟨_, name⟩ := readsName st enough t
      refine ((Ends.mapM fun u _ => each u depth).bind fun texts =>
        name.ends (f := fun name => pure (name ++ "<" ++ String.intercalate ", " texts ++ ">"))
          (Ends.pure _)).weaken ?_ ?_ <;> simp only [List.forall_mem_map]
      · exact And.left
      · exact fun ⟨levels, all⟩ => ⟨all, levels, trivial⟩
    | interface params =>
      obtain ⟨_, name⟩ := readsName st enough t
      obtain ⟨_, names⟩ := readsNames st enough params
      cases params with
      | nil => exact leaf ⟨_, name⟩
      | cons p params => exact leaf ⟨_, name.bind (names.bind (Reads.pure _))⟩
    | anonymous a =>
      change Ends st (∀ next ∈ if a.isEnumObject then [] else _, P next)
        (enough ∧ ∀ next ∈ if a.isEnumObject then [] else _, Q next) (q.writeObject t a depth)
      cases own : a.isEnumObject with
      | false =>
        simp only [Bool.false_eq_true, ↓reduceIte, List.forall_mem_map]
        exact objectEnds spelled looks each form depth own
      | true =>
        obtain ⟨_, name⟩ := readsName st enough t
        simp only [Queries.writeObject, own, ↓reduceIte]
        exact leaf (name.andThen ⟨_, Reads.pure _⟩)

end Levels

/-! Levels -/

section Levels

variable {st : State}

/-- What is written below a type has to be written in fewer levels, and three more than that are enough. -/
theorem levelsEnd (spelled : st.Spelled) (n : Nat) : ∀ t depth, Ends st (st.Below n (t, depth)) (st.Below (n - 3) (t, depth))
    ((Queries.ofDepth n).write t depth) := by
  induction n with
  | zero => exact fun t depth => .inr ⟨id, _, rfl⟩
  | succ n ih =>
    intro t depth
    refine (textEnds spelled (looksDepth spelled.toResolved fun (h : 3 ≤ n) => h) ih t depth).weaken id fun below => ?_
    obtain ⟨m, rfl⟩ | short : (∃ m, n = m + 3) ∨ n < 3 := by
      rcases Nat.lt_or_ge n 3 with short | long
      · exact .inr short
      · exact .inl ⟨n - 3, by omega⟩
    · exact ⟨by omega, below⟩
    · rw [show n + 1 - 3 = 0 by omega] at below
      exact below.elim

/-- A type is written as a part, or inside the members of an object that is not cut short. -/
theorem State.Writes.inlines {t u : TypeId} {depth next : Nat} (writes : st.Writes (t, depth) (u, next)) :
    depth ≤ next ∧ (st.Inlines t u ∨ depth < next ∧ depth < printDepth) := by
  simp only [State.Writes, State.written] at writes
  simp only [State.Inlines, State.inlined]
  generalize (st.typeInfo t).givenName = given at writes ⊢
  generalize (st.typeInfo t).form = form at writes ⊢
  cases given with
  | some name => simp at writes
  | none =>
    cases form with
    | union types | intersection types | reference _ types =>
      obtain ⟨v, member, same⟩ := List.mem_map.mp writes
      cases same
      exact ⟨Nat.le_refl _, .inl member⟩
    | array element =>
      cases List.mem_singleton.mp writes
      exact ⟨Nat.le_refl _, .inl (List.mem_singleton.mpr rfl)⟩
    | anonymous a =>
      cases own : a.isEnumObject with
      | true => simp [own] at writes
      | false =>
        simp only [own, Bool.false_eq_true, ↓reduceIte, List.mem_map, Prod.mk.injEq] at writes ⊢
        obtain ⟨v, member, rfl, rfl⟩ := writes
        refine ⟨Nat.le_succ _, ?_⟩
        unfold State.writtenObject at member
        split at member
        · exact .inl member
        · refine .inr ⟨Nat.lt_succ_self _, ?_⟩
          by_contra cut
          simp [Nat.not_lt.mp cut] at member
    | _ => simp at writes

theorem State.Inlines.writes {t u : TypeId} (inlines : st.Inlines t u) (depth : Nat) :
    ∃ next, st.Writes (t, depth) (u, next) := by
  simp only [State.Inlines, State.inlined] at inlines
  simp only [State.Writes, State.written]
  generalize (st.typeInfo t).givenName = given at inlines ⊢
  generalize (st.typeInfo t).form = form at inlines ⊢
  cases given with
  | some name => simp at inlines
  | none =>
    cases form with
    | union types | intersection types | reference _ types => exact ⟨depth, List.mem_map_of_mem inlines⟩
    | array element => exact ⟨depth, by simpa using inlines⟩
    | anonymous a =>
      refine ⟨depth + 1, ?_⟩
      cases own : a.isEnumObject with
      | true => simp [own] at inlines
      | false =>
        simp only [own, Bool.false_eq_true, ↓reduceIte] at inlines ⊢
        refine List.mem_map_of_mem ?_
        unfold State.writtenObject
        split at inlines
        · exact inlines
        · simp at inlines
    | _ => simp at inlines

theorem State.Unwinds.next {p next : TypeId × Nat} (unwinds : st.Unwinds p) (writes : st.Writes p next) :
    st.Unwinds next := fun u depth path => unwinds u depth (path.head writes)

/-- The types that are written with a type however deep it stands. -/
def State.expansion (st : State) (t : TypeId) : Set TypeId :=
  {u | u < st.types.size ∧ Relation.ReflTransGen st.Inlines t u}

theorem expansionInside (t : TypeId) : st.expansion t ⊆ Finset.range st.types.size :=
  fun _ member => Finset.mem_coe.mpr (Finset.mem_range.mpr member.1)

theorem expansionFinite (t : TypeId) : (st.expansion t).Finite :=
  (Finset.finite_toSet _).subset (expansionInside t)

theorem expansionSize (t : TypeId) : (st.expansion t).ncard ≤ st.types.size := by
  have inside := Set.ncard_le_ncard (expansionInside t : st.expansion t ⊆ _) (Finset.finite_toSet _)
  rwa [Set.ncard_coe_finset, Finset.card_range] at inside

theorem State.Inlines.known {t u : TypeId} (inlines : st.Inlines t u) : t < st.types.size := by
  by_contra missing
  have unknown : st.typeInfo t = intrinsic TypeFlags.any "any" := by
    simp [State.typeInfo, Nat.not_lt.mp missing]
  simp [State.Inlines, State.inlined, unknown, intrinsic] at inlines

theorem expansionShrinks {t u : TypeId} (inlines : st.Inlines t u) (straight : ¬Relation.TransGen st.Inlines t t) :
    (st.expansion u).ncard < (st.expansion t).ncard := by
  refine Set.ncard_lt_ncard ⟨fun v member => ⟨member.1, member.2.head inlines⟩, fun covers => ?_⟩ (expansionFinite t)
  exact straight (Relation.TransGen.head' inlines (covers ⟨inlines.known, .refl⟩).2)

/-- How much can still be written below a type: the members of objects so often, and otherwise each type once. -/
noncomputable def State.extent (st : State) (p : TypeId × Nat) : Nat :=
  (printDepth - p.2) * (st.types.size + 1) + (st.expansion p.1).ncard

theorem extentShrinks {p next : TypeId × Nat} (unwinds : st.Unwinds p) (writes : st.Writes p next) :
    st.extent next < st.extent p := by
  obtain ⟨t, depth⟩ := p
  obtain ⟨u, deeper⟩ := next
  obtain ⟨down, inlines | ⟨below, uncut⟩⟩ := writes.inlines
  · have fewer := expansionShrinks inlines (unwinds t depth .refl)
    have left : (printDepth - deeper) * (st.types.size + 1) ≤ (printDepth - depth) * (st.types.size + 1) :=
      Nat.mul_le_mul_right _ (by omega)
    simp only [State.extent]
    omega
  · have left : (printDepth - deeper + 1) * (st.types.size + 1) ≤ (printDepth - depth) * (st.types.size + 1) :=
      Nat.mul_le_mul_right _ (by omega)
    have few : (st.expansion u).ncard ≤ st.types.size := expansionSize u
    rw [Nat.add_mul, Nat.one_mul] at left
    simp only [State.extent]
    omega

theorem State.Unwinds.below {n : Nat} {p : TypeId × Nat} (unwinds : st.Unwinds p) (enough : st.extent p < n) :
    st.Below n p := by
  induction n generalizing p with
  | zero => exact absurd enough (Nat.not_lt_zero _)
  | succ n ih =>
    intro next writes
    have shrinks := extentShrinks unwinds writes
    exact ih (unwinds.next writes) (by omega)

theorem State.Below.later {n : Nat} {p next : TypeId × Nat} (below : st.Below n p)
    (path : Relation.TransGen st.Writes p next) : ∃ m < n, st.Below m next := by
  have step : ∀ {n p next}, st.Below n p → st.Writes p next → ∃ m < n, st.Below m next := by
    intro n p next below writes
    cases n with
    | zero => exact below.elim
    | succ n => exact ⟨n, Nat.lt_succ_self n, below next writes⟩
  induction path with
  | single writes => exact step below writes
  | tail _ writes ih =>
    obtain ⟨m, less, inside⟩ := ih
    obtain ⟨k, fewer, found⟩ := step inside writes
    exact ⟨k, by omega, found⟩

/-- A type that is written inside itself again and again is not written in any number of levels. -/
theorem circleNeverBelow {u : TypeId} (circle : Relation.TransGen st.Inlines u u) (n : Nat) :
    ∀ depth, ¬st.Below n (u, depth) := by
  have descends : ∀ {t v}, Relation.TransGen st.Inlines t v → ∀ depth, ∃ next,
      Relation.TransGen st.Writes (t, depth) (v, next) := by
    intro t v path depth
    induction path with
    | single inlines =>
      obtain ⟨next, writes⟩ := inlines.writes depth
      exact ⟨next, .single writes⟩
    | tail _ inlines ih =>
      obtain ⟨next, first⟩ := ih
      obtain ⟨deeper, writes⟩ := inlines.writes next
      exact ⟨deeper, first.tail writes⟩
  induction n using Nat.strong_induction_on with
  | _ n ih =>
    intro depth below
    obtain ⟨next, path⟩ := descends circle depth
    obtain ⟨m, less, inside⟩ := below.later path
    exact ih m less next inside

theorem State.Below.unwinds {n : Nat} {p : TypeId × Nat} (below : st.Below n p) : st.Unwinds p := by
  intro u depth path circle
  rcases Relation.reflTransGen_iff_eq_or_transGen.mp path with rfl | path
  · exact circleNeverBelow circle n depth below
  · obtain ⟨m, -, inside⟩ := below.later path
    exact circleNeverBelow circle m depth inside

/-- A type is not written in any number of levels where one below it is written inside itself. -/
theorem circularUntold (spelled : st.Spelled) {t : TypeId} (circular : ¬st.Unwinds (t, 0)) (n : Nat) :
    ∃ f, ((Queries.ofDepth n).textOf t).run st = .error f := by
  rcases levelsEnd spelled n t 0 with ⟨below, -⟩ | ⟨-, failed⟩
  · exact absurd below.unwinds circular
  · exact failed

end Levels

/-- A type has a text exactly if none that is written on the way is written inside itself without end. Then a number of
levels that depends on the number of types alone is enough; otherwise no number is. -/
theorem textExistsIff {st : State} (spelled : st.Spelled) (t : TypeId) :
    (st.Unwinds (t, 0) → ∀ n, 4 * st.types.size + 7 ≤ n →
      ∃ text, ((Queries.ofDepth n).textOf t).run st = .ok (text, st)) ∧
    (¬st.Unwinds (t, 0) → ∀ n, ∃ f, ((Queries.ofDepth n).textOf t).run st = .error f) := by
  refine ⟨fun unwinds n enough => ?_, circularUntold spelled⟩
  rcases levelsEnd spelled n t 0 with ⟨-, ended⟩ | ⟨short, -⟩
  · exact ended
  · have few : (st.expansion t).ncard ≤ st.types.size := expansionSize t
    refine absurd (unwinds.below ?_) short
    simp only [State.extent, printDepth]
    omega

/-- A form that is written as it stands: no union, of which a part may be left out, and no number. -/
def Form.isSimple : Form → Bool
  | .union _ | .literal (.number _) _ => false
  | _ => true

theorem spelledOfWorked {st : State} (worked : st.tablesWorked = true)
    (empty : (st.typeInfo emptyObjectType).form = .anonymous {})
    (simple : (st.types.all fun info => info.form.isSimple) = true) : st.Spelled := by
  have every : ∀ {t form}, (st.typeInfo t).form = form → form.isSimple = true := by
    rintro t _ rfl
    exact typeInfoEvery (P := fun info => info.form.isSimple = true)
      (fun info member => Array.all_eq_true_iff_forall_mem.mp simple info member) rfl t
  refine ⟨resolvedOfWorked worked empty, fun x types _ form => ?_, fun t x _ _ types form => ?_, fun t n base form => ?_⟩
  · exact absurd (every form) Bool.false_ne_true
  · exact absurd (every form) Bool.false_ne_true
  · exact absurd (every form) Bool.false_ne_true

/-! Functions that return themselves -/

/-- Checks a file that stands alone. -/
def checkAlone (f : Source.SourceFile) : Except Fault State := do
  let s ← start [f]
  let ((), s) ← (checkFile f).run s
  return s

/-- A few levels of the checker's answers. -/
theorem answersStep : ∃ q : Queries, answers = q.step.step.step.step.step := ⟨.ofDepth 995, rfl⟩

theorem bodiesWait : ∃ fuel, bodyLimit = fuel + 2 := ⟨bodyLimit - 2, by decide⟩

/-- `function f() { return … }` -/
def returning (value : Source.Expr) : Source.SourceFile :=
  ⟨"/f.ts", [.function (markAt 1) "f" [] none (some (.mk (markAt 2) [.ret (markAt 3) (some value)])) false false], []⟩

/-- The tables of a state that writing looks at. -/
def State.typeTables (s : State) : Array TypeInfo × Array Symbol × Array Signature := (s.types, s.symbols, s.signatures)

/-- The tables when the file has been checked: the type of `f` is only called, and more has been made for the value. -/
def returningTables (value : Source.Expr) (types : Array TypeInfo) (symbols : Array Symbol) (result : TypeId) :
    Array TypeInfo × Array Symbol × Array Signature :=
  let node : FunctionNode :=
    { mark := markAt 1, params := [], result := none, body := .block (.mk (markAt 2) [.ret (markAt 3) (some value)]) }
  let function : TypeInfo :=
    { flags := TypeFlags.object, form := .anonymous {}, symbol := some 1, members := some { signatures := [0] } }
  let name : Symbol :=
    { flags := SymbolFlags.function, name := "f", declarations := [.function node],
      valueDeclaration := some (.function node), type := some 12 }
  (initialTypes.push function ++ types, State.initial.symbols.push name ++ symbols,
    #[{ node, parameters := [], least := 0, hasRest := false, result := some result }])

def ownName : Source.Expr := .ident (markAt 4) "f"

/-- `{ f: f }` -/
def ownProperty : Source.Property := .mk (markAt 6) "f" ownName false

/-- An object type with the property `f`. -/
def propertyType (a : Anonymous) : TypeInfo :=
  { flags := TypeFlags.object, form := .anonymous a, members := some { properties := [("f", 2)] } }

def propertySymbol : Symbol :=
  { flags := SymbolFlags.property ||| SymbolFlags.transient, name := "f", declarations := [.objectProperty ownProperty],
    valueDeclaration := some (.objectProperty ownProperty), type := some 12 }

/-- The type of the object is made as that of a fresh literal, and again as the result. -/
def ownPropertyTypes : Array TypeInfo :=
  #[propertyType { isObjectLiteral := true, isFresh := true, regular := some 14 },
    propertyType { isObjectLiteral := true }]

/-- What checking makes of a function that gives itself, and of one that gives an object with itself. -/
theorem returningChecked :
    (checkAlone (returning ownName)).toOption.map (fun s => (s.nodeTypes[4]?, s.typeTables)) =
      some (some 12, returningTables ownName #[] #[] 12) ∧
    (checkAlone (returning (.object (markAt 5) [ownProperty]))).toOption.map State.typeTables =
      some (returningTables (.object (markAt 5) [ownProperty]) ownPropertyTypes #[propertySymbol] 14) := by
  obtain ⟨q, levels⟩ := answersStep
  obtain ⟨fuel, limit⟩ := bodiesWait
  simp only [checkAlone, checkFile, levels, limit]
  constructor
  · cbv
  · cbv

theorem ownResultTables : ∃ s, checkAlone (returning ownName) = .ok s ∧ s.nodeTypes[4]? = some 12 ∧
    s.typeTables = returningTables ownName #[] #[] 12 := by
  obtain ⟨s, checked, facts⟩ := Option.map_eq_some_iff.mp returningChecked.1
  exact ⟨s, okOfSome checked, congrArg Prod.fst facts, congrArg Prod.snd facts⟩

theorem ownPropertyTables : ∃ s, checkAlone (returning (.object (markAt 5) [ownProperty])) = .ok s ∧ s.Spelled ∧
    s.typeTables = returningTables (.object (markAt 5) [ownProperty]) ownPropertyTypes #[propertySymbol] 14 := by
  obtain ⟨s, checked, tables⟩ := Option.map_eq_some_iff.mp returningChecked.2
  refine ⟨s, okOfSome checked, ?_, tables⟩
  cases s
  cases tables
  exact spelledOfWorked (by cbv) rfl (by cbv)

/-- A function that gives an object with itself as a property has a text: it is cut short inside the object. -/
theorem ownPropertyWritten : ∃ s text, checkAlone (returning (.object (markAt 5) [ownProperty])) = .ok s ∧
    s.Spelled ∧ s.Unwinds (12, 0) ∧ (answers.textOf 12).run s = .ok (text, s) := by
  obtain ⟨s, checked, spelled, tables⟩ := ownPropertyTables
  have size : s.types.size = 15 := by
    rw [State.typeTables, Prod.mk.injEq] at tables
    rw [tables.1]
    rfl
  have only : ∀ t u, s.Inlines t u → t = 12 ∧ u = 14 := by
    intro t u inlines
    have known := size ▸ inlines.known
    cases s
    cases tables
    interval_cases t
    case «12» => exact ⟨rfl, List.mem_singleton.mp inlines⟩
    all_goals exact absurd inlines List.not_mem_nil
  have unwinds : s.Unwinds (12, 0) := by
    intro u depth _ circle
    obtain ⟨v, first, -⟩ := Relation.TransGen.head'_iff.mp circle
    obtain ⟨w, -, last⟩ := Relation.TransGen.tail'_iff.mp circle
    have same : (12 : TypeId) = 14 := (only u v first).1.symm.trans (only w u last).2
    cases same
  obtain ⟨text, written⟩ := (textExistsIff spelled 12).1 unwinds depthLimit (by rw [size]; decide)
  exact ⟨s, text, checked, spelled, unwinds, written⟩

/-- A function that gives itself has no text. -/
theorem ownResultUnwritten : ∃ s, checkAlone (returning ownName) = .ok s ∧ (typeOfExpr ownName).run s = .ok (12, s) ∧
    ∀ n, ∃ f, ((Queries.ofDepth n).textOf 12).run s = .error f := by
  obtain ⟨s, checked, noted, tables⟩ := ownResultTables
  refine ⟨s, checked, (readsExprType (n := 1000) noted).known (by decide), ?_⟩
  have spelled : s.Spelled := by
    cases s
    cases tables
    exact spelledOfWorked (by cbv) rfl (by cbv)
  have inlines : s.Inlines 12 12 := by
    cases s
    cases tables
    exact List.mem_singleton_self 12
  exact circularUntold spelled fun unwinds => unwinds 12 0 .refl (.single inlines)

end Fragment.Typing
