import Fragment.Proofs.RelationRule
import Fragment.Typing.Checker

/-! What questions about types read.
Where everything that questions look at has been worked out, looking at it changes nothing and gives
what the rules see, if the levels below are enough. Asking itself changes the kept answers alone. -/
namespace Fragment.Typing

namespace State

/-- The same knowledge with other answers kept and other questions open. -/
def asking (st : State) (kept : KeptAnswers) (opened : List RelationKey) : State :=
  { st with relations := kept, relating := opened }

/-- What questions about types look at has been worked out. -/
structure Resolved (st : State) : Prop where
  members : ∀ t, (st.typeInfo t).isObject = true ∨
    (∃ types, (st.typeInfo t).form = .intersection types) → (st.typeInfo t).members.isSome = true
  properties : ∀ t, ∀ x ∈ st.propertiesOf t, (st.symbol x).type.isSome = true
  signatures : ∀ t, ∀ g ∈ st.signaturesOf t, ∃ sig, st.signature? g = some sig ∧
    sig.result.isSome = true ∧ ∀ x ∈ sig.parameters, (st.symbol x).type.isSome = true
  interfaces : ∀ x, (st.symbol x).flags.meets SymbolFlags.interface = true →
    (st.symbol x).declaredType.isSome = true
  parameters : ∀ t bound, (st.typeInfo t).form = .typeParameter bound →
    (st.typeInfo t).flags.meets TypeFlags.primitive = false
  empty : (st.typeInfo emptyObjectType).form = .anonymous {}

end State

/-- An answer that affirms what is true, and is the truth where `good` holds. -/
def Fits (good : Prop) (v b : Bool) : Prop := (v = true → b = true) ∧ (good → b = v)

theorem fitsSelf (good : Prop) (v : Bool) : Fits good v v := ⟨id, fun _ => rfl⟩

theorem Fits.narrow {good better : Prop} {v b : Bool} (fits : Fits good v b) (from' : better → good) :
    Fits better v b := ⟨fits.1, fun h => fits.2 (from' h)⟩

/-- The kept answers fit. -/
def Faithful (st : State) (kept : KeptAnswers) : Prop :=
  ∀ k b, kept[k]? = some b → Fits (st.Steady k) (st.truth k) b

section Runs

variable {st : State} {inv : KeptAnswers → Prop} {enough : Prop} {opened : List RelationKey} {α β : Type}

/-- A step that reads one value and changes nothing, if there are enough levels. -/
def Reads (st : State) (enough : Prop) (m : Check α) (v : α) : Prop :=
  ∀ kept opened, m.run (st.asking kept opened) = .ok (v, st.asking kept opened) ∨
    (¬enough ∧ ∃ f, m.run (st.asking kept opened) = .error f)

/-- A step that changes only the kept answers, of which `inv` stays true, if there are enough levels. -/
def Within (st : State) (inv : KeptAnswers → Prop) (enough : Prop) (opened : List RelationKey)
    (m : Check α) (post : α → Prop) : Prop :=
  ∀ kept, inv kept →
    (∃ a after, m.run (st.asking kept opened) = .ok (a, st.asking after opened) ∧
      inv after ∧ post a) ∨
    (¬enough ∧ ∃ f, m.run (st.asking kept opened) = .error f)

theorem Reads.pure (v : α) : Reads st enough (pure v) v := fun _ _ => .inl rfl

theorem Reads.bind {m : Check α} {f : α → Check β} {v : α} {w : β} (first : Reads st enough m v)
    (next : Reads st enough (f v) w) : Reads st enough (m >>= f) w := by
  intro kept opened
  rcases first kept opened with ok | ⟨short, fault, failed⟩
  · rw [StateT.run_bind, ok]
    exact next kept opened
  · rw [StateT.run_bind, failed]
    exact .inr ⟨short, fault, rfl⟩

theorem Reads.andThen {m : Check α} {f : α → Check β} {v : α} (first : Reads st enough m v)
    (next : ∃ w, Reads st enough (f v) w) : ∃ w, Reads st enough (m >>= f) w := next.imp fun _ => first.bind

theorem Reads.get {f : State → Check β} {w : β}
    (next : ∀ kept opened, Reads st enough (f (st.asking kept opened)) w) :
    Reads st enough (get >>= f) w := fun kept opened => next kept opened kept opened

theorem Reads.lift {less : Prop} {m : Check α} {v : α} (reads : Reads st less m v)
    (from' : enough → less) : Reads st enough m v := by
  intro kept opened
  exact (reads kept opened).imp id fun ⟨short, failed⟩ => ⟨fun h => short (from' h), failed⟩

/-- With enough levels there is an answer, and nothing has changed. -/
theorem Reads.known {m : Check α} {v : α} (reads : Reads st enough m v) (levels : enough) :
    m.run st = .ok (v, st) := by
  rcases reads st.relations st.relating with ok | ⟨short, -⟩
  · exact ok
  · exact absurd levels short

/-- What has run to its end has read the value. -/
theorem Reads.ran {m : Check α} {v a : α} {kept : KeptAnswers} {s : State} (reads : Reads st enough m v)
    (run : m.run (st.asking kept opened) = .ok (a, s)) : a = v ∧ s = st.asking kept opened := by
  rcases reads kept opened with ok | ⟨-, fault, failed⟩
  · rw [ok] at run
    cases run
    exact ⟨rfl, rfl⟩
  · rw [failed] at run
    cases run

theorem Within.ran {m : Check α} {post : α → Prop} {a : α} {kept : KeptAnswers} {s : State}
    (within : Within st inv enough opened m post) (sound : inv kept)
    (run : m.run (st.asking kept opened) = .ok (a, s)) : ∃ after, s = st.asking after opened ∧ inv after ∧ post a := by
  rcases within kept sound with ⟨b, after, ok, sound, holds⟩ | ⟨-, fault, failed⟩
  · rw [ok] at run
    cases run
    exact ⟨after, rfl, sound, holds⟩
  · rw [failed] at run
    cases run

theorem Within.pure {a : α} {post : α → Prop} (ok : post a) : Within st inv enough opened (pure a) post :=
  fun kept sound => .inl ⟨a, kept, rfl, sound, ok⟩

theorem Within.bind {m : Check α} {f : α → Check β} {mid : α → Prop} {post : β → Prop}
    (first : Within st inv enough opened m mid) (next : ∀ a, mid a → Within st inv enough opened (f a) post) :
    Within st inv enough opened (m >>= f) post := by
  intro kept sound
  rcases first kept sound with ⟨a, after, ok, sound, holds⟩ | ⟨short, fault, failed⟩
  · rw [StateT.run_bind, ok]
    exact next a holds after sound
  · rw [StateT.run_bind, failed]
    exact .inr ⟨short, fault, rfl⟩

theorem Reads.within {m : Check α} {f : α → Check β} {v : α} {post : β → Prop}
    (first : Reads st enough m v) (next : Within st inv enough opened (f v) post) :
    Within st inv enough opened (m >>= f) post := by
  intro kept sound
  rcases first kept opened with ok | ⟨short, fault, failed⟩
  · rw [StateT.run_bind, ok]
    exact next kept sound
  · rw [StateT.run_bind, failed]
    exact .inr ⟨short, fault, rfl⟩

theorem Within.get {f : State → Check β} {post : β → Prop}
    (next : ∀ kept, Within st inv enough opened (f (st.asking kept opened)) post) :
    Within st inv enough opened (get >>= f) post := fun kept sound => next kept kept sound

theorem Within.weaken {m : Check α} {mid post : α → Prop} {more : Prop}
    (within : Within st inv enough opened m mid) (from' : more → enough) (give : ∀ a, mid a → post a) :
    Within st inv more opened m post := by
  intro kept sound
  rcases within kept sound with ⟨a, after, ok, sound, holds⟩ | ⟨short, failed⟩
  · exact .inl ⟨a, after, ok, sound, give a holds⟩
  · exact .inr ⟨fun h => short (from' h), failed⟩

end Runs

section Lookups

variable {st : State} {n : Nat}

theorem readsInfo (enough : Prop) (t : TypeId) :
    Reads st enough (Check.typeInfo t) (st.typeInfo t) := fun _ _ => .inl rfl

theorem readsForm (enough : Prop) (t : TypeId) :
    Reads st enough (Check.form t) (st.typeInfo t).form := fun _ _ => .inl rfl

theorem readsSymbol (enough : Prop) (x : SymbolId) :
    Reads st enough (Check.symbol x) (st.symbol x) := fun _ _ => .inl rfl

theorem readsFlag (enough : Prop) (t : TypeId) (mask : TypeFlags) :
    Reads st enough (Check.hasFlag t mask) ((st.typeInfo t).flags.meets mask) := fun _ _ => .inl rfl

theorem readsSignature (enough : Prop) {g : SignatureId} {sig : Signature}
    (found : st.signature? g = some sig) : Reads st enough (Check.signature g) sig := by
  refine Reads.get fun kept opened => ?_
  have same : (st.asking kept opened).signature? g = some sig := found
  rw [same]
  exact Reads.pure sig

/- At no level is there an answer, and the level above looks at what is known. -/
theorem readsLevel {α : Type} {m : Queries → Check α} {v : α} {least : Nat}
    (bottom : ∀ s, (m .bottom).run s = .error .recursion)
    (level : ∀ n, Reads st (least ≤ n) (m (Queries.ofDepth n).step) v) :
    Reads st (least + 1 ≤ n) (m (Queries.ofDepth n)) v := by
  cases n with
  | zero => exact fun kept opened => .inr ⟨by omega, _, bottom _⟩
  | succ n => exact (level n).lift fun h => by omega

theorem readsMembers (resolved : st.Resolved) (t : TypeId) :
    Reads st (1 ≤ n) ((Queries.ofDepth n).members t) (st.membersOf t) := by
  refine readsLevel (m := fun q => q.members t) (fun _ => rfl) fun n => ?_
  refine Reads.bind (readsInfo _ t) ?_
  have done := resolved.members t
  unfold State.membersOf
  cases known : (st.typeInfo t).members with
  | some m => exact Reads.pure m
  | none =>
    simp only [known, Option.isSome_none, Bool.false_eq_true, imp_false, not_or, not_exists,
      Bool.not_eq_true] at done
    simp only [done.1, Bool.false_eq_true, ↓reduceIte, Option.getD_none]
    split
    · rename_i types form
      exact absurd form (done.2 types)
    · exact Reads.pure _

theorem readsValueType {x : SymbolId} (known : (st.symbol x).type.isSome = true) :
    Reads st (1 ≤ n) ((Queries.ofDepth n).typeOfSymbol x) (st.valueType x) := by
  refine readsLevel (m := fun q => q.typeOfSymbol x) (fun _ => rfl) fun n => ?_
  refine Reads.bind (readsSymbol _ x) ?_
  obtain ⟨t, type⟩ := Option.isSome_iff_exists.mp known
  simp only [State.valueType, type]
  exact Reads.pure t

theorem readsResult {g : SignatureId} {sig : Signature} (found : st.signature? g = some sig)
    (known : sig.result.isSome = true) :
    Reads st (1 ≤ n) ((Queries.ofDepth n).resultOf g) (st.resultType g) := by
  refine readsLevel (m := fun q => q.resultOf g) (fun _ => rfl) fun n => ?_
  refine Reads.bind (readsSignature _ found) ?_
  obtain ⟨t, result⟩ := Option.isSome_iff_exists.mp known
  simp only [State.resultType, found, result, Option.bind_some, Option.getD_some]
  exact Reads.pure t

theorem readsDeclared {x : SymbolId} (known : (st.symbol x).declaredType.isSome = true) :
    Reads st (1 ≤ n) ((Queries.ofDepth n).declaredType x)
      ((st.symbol x).declaredType.getD errorType) := by
  refine readsLevel (m := fun q => q.declaredType x) (fun _ => rfl) fun n => ?_
  refine Reads.bind (readsSymbol _ x) ?_
  obtain ⟨t, declared⟩ := Option.isSome_iff_exists.mp known
  simp only [declared, Option.getD_some]
  exact Reads.pure t

theorem readsExprType {e : Source.Expr} {t : TypeId} (known : st.nodeTypes[e.mark.id]? = some t)
    {expected : Option TypeId} : Reads st (1 ≤ n) ((Queries.ofDepth n).typeOfExpr e expected) t := by
  refine readsLevel (m := fun q => q.typeOfExpr e expected) (fun _ => rfl) fun n => Reads.get fun kept opened => ?_
  have same : (st.asking kept opened).nodeTypes[e.mark.id]? = some t := known
  rw [same]
  exact Reads.pure t

theorem readsGlobal (resolved : st.Resolved) (name : String) :
    Reads st (1 ≤ n) ((Queries.ofDepth n).globalType name 0) (st.globalInterface? name) := by
  have lookup : Reads st (1 ≤ n) (Queries.globalType.lookupGlobal name)
      ((st.scopes[globalScope]?).bind (·.names[name]?)) := fun _ _ => .inl rfl
  refine Reads.bind lookup ?_
  unfold State.globalInterface?
  cases (st.scopes[globalScope]?).bind (·.names[name]?) with
  | none => exact Reads.pure none
  | some x =>
    refine Reads.bind (readsSymbol _ x) ?_
    cases isInterface : (st.symbol x).flags.meets SymbolFlags.interface with
    | false =>
      simp only [isInterface, Bool.not_false, ↓reduceIte]
      exact Reads.pure none
    | true =>
      simp only [isInterface, Bool.not_true, Bool.false_eq_true, ↓reduceIte]
      refine Reads.bind (readsDeclared (resolved.interfaces x isInterface)) ?_
      refine Reads.bind (readsForm _ _) ?_
      cases (st.typeInfo ((st.symbol x).declaredType.getD errorType)).form <;> exact Reads.pure _

/-- The type of promises has been worked out, if libraries declare one. -/
def State.PromiseKnown (st : State) : Prop :=
  ∀ x, (st.scopes[globalScope]?).bind (·.names["Promise"]?) = some x →
    (st.symbol x).flags.meets SymbolFlags.interface = true → (st.symbol x).declaredType.isSome = true

theorem readsPromise (known : st.PromiseKnown) :
    ∃ promise, Reads st (1 ≤ n) (Queries.ofDepth n).promiseType promise := by
  have lookup : Reads st (1 ≤ n) (Queries.globalType.lookupGlobal "Promise")
      ((st.scopes[globalScope]?).bind (·.names["Promise"]?)) := fun _ _ => .inl rfl
  refine lookup.andThen ?_
  cases found : (st.scopes[globalScope]?).bind (·.names["Promise"]?) with
  | none => exact ⟨none, Reads.pure none⟩
  | some x =>
    refine (readsSymbol _ x).andThen ?_
    cases isInterface : (st.symbol x).flags.meets SymbolFlags.interface with
    | false =>
      simp only [Bool.not_false, ↓reduceIte]
      exact ⟨none, Reads.pure none⟩
    | true =>
      simp only [Bool.not_true, Bool.false_eq_true, ↓reduceIte]
      refine (readsDeclared (known x found isInterface)).andThen ((readsForm _ _).andThen ?_)
      split <;> exact ⟨_, Reads.pure _⟩

theorem readsPromised (known : st.PromiseKnown) (t : TypeId) :
    ∃ promised, Reads st (1 ≤ n) ((Queries.ofDepth n).promised t) promised := by
  obtain ⟨_, promise⟩ := readsPromise (n := n) known
  refine promise.andThen ((readsForm _ t).andThen ?_)
  split <;> exact ⟨_, Reads.pure _⟩

theorem readsApparent (resolved : st.Resolved) {t : TypeId}
    (plain : ∀ bound, (st.typeInfo t).form ≠ .typeParameter bound) :
    Reads st (2 ≤ n) ((Queries.ofDepth n).apparent t) (st.wrapperOf t) := by
  refine readsLevel (m := fun q => q.apparent t) (fun _ => rfl) fun n => ?_
  refine Reads.bind (readsInfo _ t) ?_
  unfold State.wrapperOf
  split
  · rename_i bound form
    exact absurd form (plain _)
  · rename_i form
    exact absurd form (plain _)
  · have wrapper : ∀ name, Reads st (1 ≤ n)
        (do return ((← (Queries.ofDepth n).globalType name 0).getD emptyObjectType))
        ((st.globalInterface? name).getD emptyObjectType) :=
      fun name => Reads.bind (readsGlobal resolved name) (Reads.pure _)
    dsimp only
    split
    · exact wrapper "String"
    · split
      · exact wrapper "Number"
      · split
        · exact wrapper "Boolean"
        · exact Reads.pure t

theorem wrapperPlain (resolved : st.Resolved) {t : TypeId}
    (primitive : (st.typeInfo t).flags.meets TypeFlags.primitive = true) :
    ∀ bound, (st.typeInfo t).form ≠ .typeParameter bound := by
  intro bound form
  rw [resolved.parameters t bound form] at primitive
  contradiction

theorem readsProperty (resolved : st.Resolved) {t : TypeId} (name : String)
    (plain : ∀ types, (st.typeInfo t).form ≠ .union types) :
    Reads st (3 ≤ n) ((Queries.ofDepth n).property t name) (st.propertyOf? t name) := by
  refine readsLevel (m := fun q => q.property t name) (fun _ => rfl) fun n => ?_
  refine Reads.bind (readsInfo _ t) ?_
  split
  · rename_i types form
    exact absurd form (plain types)
  · unfold State.propertyOf?
    cases primitive : (st.typeInfo t).flags.meets TypeFlags.primitive with
    | true =>
      refine Reads.bind (readsApparent resolved (wrapperPlain resolved primitive)) ?_
      exact Reads.bind ((readsMembers resolved _).lift fun h => by omega) (Reads.pure _)
    | false =>
      simp only [Bool.false_eq_true, ↓reduceIte]
      refine Reads.bind (Reads.pure t) ?_
      exact Reads.bind ((readsMembers resolved t).lift fun h => by omega) (Reads.pure _)

/-- Queries that read what has been worked out, if there are enough levels. -/
structure Looks (st : State) (enough : Prop) (q : Queries) : Prop where
  members : ∀ t, Reads st enough (q.members t) (st.membersOf t)
  valueType : ∀ x, (st.symbol x).type.isSome = true → Reads st enough (q.typeOfSymbol x) (st.valueType x)
  result : ∀ g sig, st.signature? g = some sig → sig.result.isSome = true →
    Reads st enough (q.resultOf g) (st.resultType g)
  apparent : ∀ t, (∀ bound, (st.typeInfo t).form ≠ .typeParameter bound) →
    Reads st enough (q.apparent t) (st.wrapperOf t)
  property : ∀ t name, (∀ types, (st.typeInfo t).form ≠ .union types) →
    Reads st enough (q.property t name) (st.propertyOf? t name)

theorem looksDepth {enough : Prop} (resolved : st.Resolved) (deep : enough → 3 ≤ n) :
    Looks st enough (Queries.ofDepth n) where
  members t := (readsMembers resolved t).lift fun h => Nat.le_trans (by decide) (deep h)
  valueType _ known := (readsValueType known).lift fun h => Nat.le_trans (by decide) (deep h)
  result _ _ found known := (readsResult found known).lift fun h => Nat.le_trans (by decide) (deep h)
  apparent _ plain := (readsApparent resolved plain).lift fun h => Nat.le_trans (by decide) (deep h)
  property _ name plain := (readsProperty resolved name plain).lift deep

variable {enough : Prop} {q : Queries}

theorem readsProperties (looks : Looks st enough q) {t : TypeId}
    (plain : ∀ types, (st.typeInfo t).form ≠ .union types) :
    Reads st enough (q.properties t) (st.propertiesOf t) := by
  refine Reads.bind (readsForm _ t) ?_
  split
  · rename_i types form
    exact absurd form (plain types)
  · exact Reads.bind (looks.members t) (Reads.pure _)

theorem readsSignatures (looks : Looks st enough q) {t : TypeId}
    (plain : ∀ types, (st.typeInfo t).form ≠ .union types) :
    Reads st enough (q.signatures t) (st.signaturesOf t) := by
  refine Reads.bind (readsForm _ t) ?_
  split
  · rename_i types form
    exact absurd form (plain types)
  · exact Reads.bind (looks.members t) (Reads.pure _)

theorem readsAllHold {α : Type} {ask : α → Check Bool} {f : α → Bool} {xs : List α}
    (each : ∀ x, Reads st enough (ask x) (f x)) : Reads st enough (allHold ask xs) (xs.all f) := by
  induction xs with
  | nil => exact Reads.pure true
  | cons x xs ih =>
    refine Reads.bind (each x) ?_
    cases answer : f x with
    | true => simpa [answer] using ih
    | false => simpa [answer] using Reads.pure false

theorem readsAnyHolds {α : Type} {ask : α → Check Bool} {f : α → Bool} {xs : List α}
    (each : ∀ x, Reads st enough (ask x) (f x)) : Reads st enough (anyHolds ask xs) (xs.any f) := by
  induction xs with
  | nil => exact Reads.pure false
  | cons x xs ih =>
    refine Reads.bind (each x) ?_
    cases answer : f x with
    | true => simpa [answer] using Reads.pure true
    | false => simpa [answer] using ih

theorem readsLimits (looks : Looks st enough q) (fuel : Nat) (t : TypeId) :
    Reads st enough (q.limitsProperties fuel t) (st.limits fuel t) := by
  induction fuel generalizing t with
  | zero => exact Reads.pure false
  | succ fuel ih =>
    refine Reads.bind (readsForm _ t) ?_
    have object : (∀ types, (st.typeInfo t).form ≠ .union types) →
        Reads st enough (do
          if (← q.properties t).isEmpty then
            return (← q.signatures t).isEmpty
          else return true)
        (!(st.propertiesOf t).isEmpty || (st.signaturesOf t).isEmpty) := by
      intro plain
      refine Reads.bind (readsProperties looks plain) ?_
      cases none : (st.propertiesOf t).isEmpty with
      | true => exact Reads.bind (readsSignatures looks plain) (Reads.pure _)
      | false => exact Reads.pure true
    unfold State.limits
    cases form : (st.typeInfo t).form with
    | union types => exact Reads.get fun _ _ => readsAllHold ih
    | intersection types => exact Reads.get fun _ _ => readsAllHold ih
    | interface params => exact object (by simp [form])
    | reference target args => exact object (by simp [form])
    | anonymous a => exact object (by simp [form])
    | _ => exact Reads.pure false

theorem readsKnows (looks : Looks st enough q) (name : String) (fuel : Nat) (t : TypeId) :
    Reads st enough (q.knowsProperty name fuel t) (st.knows name fuel t) := by
  induction fuel generalizing t with
  | zero => exact Reads.pure false
  | succ fuel ih =>
    refine Reads.bind (readsForm _ t) ?_
    have object : (∀ types, (st.typeInfo t).form ≠ .union types) →
        Reads st enough (do
          if (← q.properties t).isEmpty then
            if (← q.signatures t).isEmpty then return true
          return (← q.property t name).isSome)
        (((st.propertiesOf t).isEmpty && (st.signaturesOf t).isEmpty) ||
          (st.propertyOf? t name).isSome) := by
      intro plain
      have named : Reads st enough (do return (← q.property t name).isSome)
          (st.propertyOf? t name).isSome :=
        Reads.bind (looks.property t name plain) (Reads.pure _)
      refine Reads.bind (readsProperties looks plain) ?_
      cases none : (st.propertiesOf t).isEmpty with
      | true =>
        refine Reads.bind (readsSignatures looks plain) ?_
        cases uncalled : (st.signaturesOf t).isEmpty with
        | true => exact Reads.pure true
        | false => exact named
      | false => exact named
    unfold State.knows
    cases form : (st.typeInfo t).form with
    | union types => exact readsAnyHolds ih
    | intersection types => exact readsAnyHolds ih
    | interface params => exact object (by simp [form])
    | reference target args => exact object (by simp [form])
    | anonymous a => exact object (by simp [form])
    | array element => exact object (by simp [form])
    | _ => exact Reads.pure false

theorem readsExcess (looks : Looks st enough q) {source : TypeId} (target : TypeId)
    (fresh : st.isFresh source = true) :
    Reads st enough (q.excessProperty source target) (st.excess? source target) := by
  have plain : ∀ types, (st.typeInfo source).form ≠ .union types := by
    intro types form
    simp [State.isFresh, form] at fresh
  have find : ∀ xs, Reads st enough (Queries.excessProperty.find q target xs)
      (xs.find? fun x => !st.knows (st.symbol x).name (target + 1) target) := by
    intro xs
    induction xs with
    | nil => exact Reads.pure none
    | cons x xs ih =>
      refine Reads.bind (readsSymbol _ x) ?_
      refine Reads.bind (readsKnows looks _ _ _) ?_
      cases known : st.knows (st.symbol x).name (target + 1) target with
      | true => simpa [known] using ih
      | false => simpa [known] using Reads.pure (some x)
  unfold State.excess?
  refine Reads.bind (readsLimits looks _ _) ?_
  cases limited : st.limits (target + 1) target with
  | false => exact Reads.pure none
  | true => exact Reads.bind (readsProperties looks plain) (find _)

end Lookups

end Fragment.Typing
