import Fragment.Proofs.Interning
import Fragment.Proofs.Keeping

/-! Object literals while types come into being.
An object literal is fresh until something receives it. What receives it takes a second type in its place,
which is made once and has the same properties. Whatever else becomes known, an object literal lists
properties of different names, and a type that is not fresh never becomes so. -/
namespace Fragment.Typing

open Fragment.Source (Property)

/-- The type of an object literal the properties of which have these types. -/
def Check.literalOf (typed : List (Property × TypeId)) : Check TypeId := do
  let properties ← typed.mapM fun (p, type) => Queries.literalProperty p type
  Check.newType
    { flags := TypeFlags.object, form := .anonymous { isObjectLiteral := true, isFresh := true },
      members := some { properties } }

section Naming

variable {q : Queries} {expected : Option TypeId} {done : List (Property × TypeId)}

theorem objectTypeLiteral (ps : List Property) :
    q.objectType ps expected = q.literalTypes expected [] ps >>= Check.literalOf := rfl

/-- Steps of which nothing is asked keep nothing. -/
instance anyKeeps {α : Type} (m : Check α) : Keeps (fun _ => True) m where
  keeps _ _ _ _ _ := trivial

theorem replacedNames (p : Property) (type : TypeId) :
    (done.map fun (o, t) => if o.name = p.name then (p, type) else (o, t)).map (·.1.name) = done.map (·.1.name) := by
  rw [List.map_map]
  refine List.map_congr_left fun entry _ => ?_
  simp only [Function.comp_apply]
  split
  · next named => exact named.symm
  · rfl

theorem addedNames {p : Property} (type : TypeId) (names : (done.map (·.1.name)).Nodup)
    (absent : ¬ (done.any (·.1.name = p.name)) = true) : ((done ++ [(p, type)]).map (·.1.name)).Nodup := by
  rw [List.map_append, List.map_singleton]
  refine names.append (List.nodup_singleton _) (List.disjoint_singleton.mpr fun there => absent ?_)
  obtain ⟨entry, member, named⟩ := List.mem_map.mp there
  exact List.any_eq_true.mpr ⟨entry, member, by simpa using named⟩

/-- The properties of an object literal have different names, whatever is written. -/
theorem literalNames (ps : List Property) (names : (done.map (·.1.name)).Nodup) :
    Gives (fun _ => True) (fun typed => (typed.map (·.1.name)).Nodup) (q.literalTypes expected done ps) := by
  induction ps generalizing done with
  | nil => exact Gives.pure names
  | cons p rest ih =>
    unfold Queries.literalTypes
    dsimp only
    split
    · exact .bind fun _ => .bind fun _ => .bind fun _ => .bind fun type =>
        ih ((replacedNames p type).symm ▸ names)
    · next absent => exact .bind fun _ => .bind fun _ => .bind fun type => ih (addedNames type names absent)

end Naming

namespace State

/-- The details of an object literal that nothing has received yet. -/
def fresh? (s : State) (t : TypeId) : Option Anonymous :=
  match (s.typeInfo t).form with
  | .anonymous a => if a.isFresh then some a else none
  | _ => none

variable {s s' : State} {t r : TypeId} {a : Anonymous}

theorem freshIff : s.fresh? t = some a ↔ (s.typeInfo t).form = .anonymous a ∧ a.isFresh = true := by
  unfold fresh?
  split
  · next b form =>
    by_cases fresh : b.isFresh
    · simp only [fresh, ↓reduceIte, Option.some.injEq, form, Form.anonymous.injEq]
      constructor
      · rintro rfl
        exact ⟨rfl, fresh⟩
      · exact And.left
    · simp only [fresh, Bool.false_eq_true, ↓reduceIte, reduceCtorEq, form, Form.anonymous.injEq, false_iff]
      rintro ⟨rfl, is⟩
      exact fresh is
  · next other =>
    simp only [reduceCtorEq, false_iff]
    exact fun is => other a is.1

theorem isFreshIff : s.isFresh t = true ↔ (s.fresh? t).isSome = true := by
  unfold isFresh fresh?
  cases (s.typeInfo t).form with
  | anonymous a => cases fresh : a.isFresh <;> simp [fresh]
  | _ => simp

theorem freshCongr (same : s'.typeInfo t = s.typeInfo t) : s'.fresh? t = s.fresh? t := by rw [fresh?, fresh?, same]

/-- Nothing changes about object literals, nor about the types that stand in their place, and none comes
into being. Symbols keep their names. -/
structure Spares (s s' : State) : Prop where
  settled : ∀ t, s.fresh? t = none → s'.fresh? t = none
  literals : ∀ t a, s.fresh? t = some a → s'.typeInfo t = s.typeInfo t
  twins : ∀ t a, s.fresh? t = some a → ∀ r, a.regular = some r → s'.typeInfo r = s.typeInfo r
  names : ∀ x name, Named (· = name) s.symbols x → Named (· = name) s'.symbols x

end State

/-- One step in which types come into being or more becomes known about them. -/
inductive Develops (s : State) : State → Prop
  | constructed {s' : State} (does : Constructs s s') (spares : s.Spares s') : Develops s s'
  /-- An object literal whose properties have been typed. -/
  | literal {s' : State} {id : TypeId} {typed : List (Property × TypeId)} (names : (typed.map (·.1.name)).Nodup)
      (known : ∀ p ∈ typed, s.Has p.2) (run : (Check.literalOf typed).run s = .ok (id, s')) : Develops s s'
  /-- Something receives what may be an object literal. -/
  | received {s' : State} {id t : TypeId} (known : s.Has t) (run : (Check.regular t).run s = .ok (id, s')) :
      Develops s s'

/-- The second state is the first one or comes from it. -/
abbrev Developed : State → State → Prop := Relation.ReflTransGen Develops

section Runs

variable (s : State)

/-- The symbols of properties are made one after the other. -/
theorem propertiesRun (typed : List (Property × TypeId)) : ∃ ps symbols,
    (typed.mapM fun (p, type) => Queries.literalProperty p type).run s = .ok (ps, { s with symbols }) ∧
    ps.map (·.1) = typed.map (·.1.name) ∧ (∀ p ∈ ps, Named (· = p.1) symbols p.2) ∧
    ∀ x name, Named (· = name) s.symbols x → Named (· = name) symbols x := by
  induction typed generalizing s with
  | nil => exact ⟨[], s.symbols, rfl, rfl, by simp, fun _ _ named => named⟩
  | cons entry rest ih =>
    obtain ⟨p, type⟩ := entry
    let made : Symbol :=
      { flags := SymbolFlags.property ||| SymbolFlags.transient, name := p.name, declarations := [.objectProperty p],
        valueDeclaration := some (.objectProperty p), type := some type }
    obtain ⟨ps, symbols, run, names, named, kept⟩ := ih { s with symbols := s.symbols.push made }
    have first : (Queries.literalProperty p type).run s =
        .ok ((p.name, s.symbols.size), { s with symbols := s.symbols.push made }) := rfl
    have new : Named (· = p.name) (s.symbols.push made) s.symbols.size := ⟨made, by simp, rfl⟩
    refine ⟨(p.name, s.symbols.size) :: ps, symbols, ?_, by simp [names], ?_, fun x name old => kept x name (old.pushed made)⟩
    · rw [List.mapM_cons, runThen first, runThen run]
      rfl
    · intro entry member
      rcases List.mem_cons.mp member with rfl | member
      · exact kept _ _ new
      · exact named entry member

/-- An object literal is a new type with new symbols. -/
theorem literalRun (typed : List (Property × TypeId)) : ∃ ps symbols,
    (Check.literalOf typed).run s = .ok (s.types.size, { s with
      symbols := symbols
      types := s.types.push
        { flags := TypeFlags.object, form := .anonymous { isObjectLiteral := true, isFresh := true },
          members := some { properties := ps } } }) ∧
    ps.map (·.1) = typed.map (·.1.name) ∧ (∀ p ∈ ps, Named (· = p.1) symbols p.2) ∧
    ∀ x name, Named (· = name) s.symbols x → Named (· = name) symbols x := by
  obtain ⟨ps, symbols, run, facts⟩ := propertiesRun s typed
  refine ⟨ps, symbols, ?_, facts⟩
  rw [Check.literalOf, runThen run]
  rfl

/-- What stands in the place of an object literal. -/
def State.twinInfo (t : TypeId) (a : Anonymous) : TypeInfo :=
  { s.typeInfo t with form := .anonymous { a with isFresh := false }, givenName := none }

/-- The state after an object literal has been received for the first time. -/
def State.receive (t : TypeId) (a : Anonymous) : State :=
  { s with types := (s.types.push (s.twinInfo t a)).modify t fun i =>
      { i with form := .anonymous { a with regular := some s.types.size } } }

theorem regularRun (t : TypeId) : (Check.regular t).run s = match s.fresh? t with
    | none => .ok (t, s)
    | some a => match a.regular with
      | some r => .ok (r, s)
      | none => .ok (s.types.size, s.receive t a) := by
  unfold Check.regular State.fresh?
  rw [show (Check.typeInfo t >>= _ : Check TypeId).run s = _ from runThen (a := s.typeInfo t) (t := s) rfl]
  cases form : (s.typeInfo t).form with
  | anonymous a =>
    cases fresh : a.isFresh with
    | false =>
      simp only [fresh, Bool.false_eq_true, ↓reduceIte]
      rfl
    | true =>
      dsimp only
      rw [if_pos fresh, if_pos fresh]
      cases twin : a.regular <;> simp only [State.receive, State.twinInfo, twin] <;> rfl
  | _ => rfl

end Runs

namespace State

/-- `r` stands in the place of the object literal `t`: it is not fresh and has the same properties. -/
structure Twin (s : State) (t r : TypeId) : Prop where
  has : s.Has r
  settled : s.fresh? r = none
  form : ∃ b, (s.typeInfo r).form = .anonymous b
  flags : s.flagsAt r = s.flagsAt t
  members : (s.typeInfo r).members = (s.typeInfo t).members

/-- An object literal lists properties of different names, whose symbols have these names. -/
structure Literal (s : State) (t : TypeId) (a : Anonymous) : Prop where
  flags : s.flagsAt t = TypeFlags.object
  members : ∃ ps, (s.typeInfo t).members = some { properties := ps } ∧ (ps.map (·.1)).Nodup ∧
    ∀ p ∈ ps, Named (· = p.1) s.symbols p.2
  twin : ∀ r, a.regular = some r → s.Twin t r

/-- The tables are right, and so is each object literal. -/
structure Formed (s : State) : Prop where
  interned : s.Interned
  literals : ∀ t a, s.fresh? t = some a → s.Literal t a

/-- `r` is what something receives in the place of `t`. -/
def Received (s : State) (t r : TypeId) : Prop :=
  match s.fresh? t with
  | none => r = t
  | some a => a.regular = some r

variable {s s' : State} {t u r : TypeId} {a : Anonymous}

theorem hasFresh (fresh : s.fresh? t = some a) : s.Has t := by
  by_contra beyond
  have absent : s.types[t]? = none := Array.getElem?_eq_none (Nat.le_of_not_lt beyond)
  have form := (freshIff.mp fresh).1
  rw [typeInfo, Array.getD_eq_getD_getElem?, absent] at form
  cases form

/-- A literal is as it was where its entry and that of its twin are, and symbols keep their names. -/
theorem Literal.kept (literal : s.Literal t a) (has : ∀ r, s.Has r → s'.Has r)
    (own : s'.typeInfo t = s.typeInfo t) (twins : ∀ r, a.regular = some r → s'.typeInfo r = s.typeInfo r)
    (names : ∀ x name, Named (· = name) s.symbols x → Named (· = name) s'.symbols x) : s'.Literal t a where
  flags := by rw [flagsAt, own]; exact literal.flags
  members := by
    obtain ⟨ps, members, distinct, named⟩ := literal.members
    exact ⟨ps, own ▸ members, distinct, fun p member => names _ _ (named p member)⟩
  twin r is := by
    have twin := literal.twin r is
    have same := twins r is
    exact ⟨has r twin.has, (freshCongr same).trans twin.settled, same ▸ twin.form,
      by rw [flagsAt, flagsAt, same, own]; exact twin.flags, by rw [same, own]; exact twin.members⟩

/-- The entries after an object literal has been received. -/
theorem receiveInfo (has : s.Has t) (u : TypeId) : (s.receive t a).typeInfo u =
    if u = t then { s.typeInfo t with form := .anonymous { a with regular := some s.types.size } }
    else if u = s.types.size then s.twinInfo t a
    else s.typeInfo u := by
  have apart : t ≠ s.types.size := Nat.ne_of_lt has
  have bound : t < s.types.size := has
  unfold receive twinInfo typeInfo
  simp only [Array.getD_eq_getD_getElem?, Array.getElem?_modify, Array.getElem?_push]
  by_cases same : u = t
  · subst same
    simp [apart, bound]
  · by_cases new : u = s.types.size
    · simp [new, apart, Ne.symm apart]
    · simp [new, same, Ne.symm same]

theorem declaresAnonymous {info : TypeInfo} (form : info.form = .anonymous a) (flags : info.flags = TypeFlags.object) :
    s.Declares info := by
  unfold Declares
  rw [form]
  exact .inr (.inr flags)

/-- Receiving an object literal makes a type and fills in a detail of another one. -/
theorem receiveLater (literal : s.Literal t a) (fresh : s.fresh? t = some a) : Later s (s.receive t a) := by
  have declares : s.Declares (s.twinInfo t a) := declaresAnonymous rfl literal.flags
  have made : Constructs s { s with types := s.types.push (s.twinInfo t a) } := .declared declares rfl
  refine .tail (.single made) (.revised (t := t)
    (f := fun i => { i with form := .anonymous { a with regular := some s.types.size } }) ⟨rfl, fun closed => ?_, fun _ => rfl⟩ rfl)
  rw [typeInfoOld rfl (hasFresh fresh), (freshIff.mp fresh).1] at closed
  cases closed

/-- The table of types is only added to and filled in. -/
theorem Formed.later (f : s.Formed) (does : Develops s s') : Later s s' := by
  cases does with
  | constructed does => exact .single does
  | @literal _ typed _ _ run =>
    obtain ⟨ps, symbols, made, -⟩ := literalRun s typed
    cases run.symm.trans made
    have named : Constructs s { s with symbols } := .elsewhere rfl rfl rfl rfl
    exact .tail (.single named) (.declared (declaresAnonymous rfl rfl) rfl)
  | received _ run =>
    rw [regularRun] at run
    split at run
    · cases run
      exact .refl
    · next a fresh =>
      split at run <;> cases run
      · exact .refl
      · exact receiveLater (f.literals _ a fresh) fresh

section Steps

variable {ps : List (String × SymbolId)} {symbols : Array Symbol}

/- An object literal beside those that are there. -/
theorem Formed.literal (f : s.Formed) (i : s'.Interned) (e : s.Extends s')
    (types : s'.types = s.types.push
      { flags := TypeFlags.object, form := .anonymous { isObjectLiteral := true, isFresh := true },
        members := some { properties := ps } })
    (names : (ps.map (·.1)).Nodup) (named : ∀ p ∈ ps, Named (· = p.1) s'.symbols p.2)
    (kept : ∀ x name, Named (· = name) s.symbols x → Named (· = name) s'.symbols x) : s'.Formed where
  interned := i
  literals t a fresh := by
    by_cases new : t = s.types.size
    · subst new
      have own := (typeInfoPush types s.types.size).trans (if_pos rfl)
      obtain ⟨form, -⟩ := freshIff.mp fresh
      rw [own] at form
      cases form
      exact ⟨by rw [flagsAt, own], ⟨ps, by rw [own], names, named⟩, by simp⟩
    · have own : s'.typeInfo t = s.typeInfo t := (typeInfoPush types t).trans (if_neg new)
      have before : s.fresh? t = some a := (freshCongr own).symm.trans fresh
      have literal := f.literals t a before
      exact literal.kept e.has own (fun r is => typeInfoOld types (literal.twin r is).has) kept

/- The types that stand in the place of others after one more has been received. -/
theorem Formed.receive (f : s.Formed) (i : (s.receive t a).Interned) (e : s.Extends (s.receive t a))
    (fresh : s.fresh? t = some a) : (s.receive t a).Formed where
  interned := i
  literals u b freshU := by
    have has := hasFresh fresh
    have info := receiveInfo (a := a) has
    have literalT := f.literals t a fresh
    have apart : s.types.size ≠ t := (Nat.ne_of_lt has).symm
    have new : (s.receive t a).typeInfo s.types.size = s.twinInfo t a := by rw [info, if_neg apart, if_pos rfl]
    have settled : (s.receive t a).fresh? s.types.size = none := by simp [fresh?, new, twinInfo]
    by_cases same : u = t
    · subst same
      have own := (info u).trans (if_pos rfl)
      obtain ⟨form, -⟩ := freshIff.mp freshU
      rw [own] at form
      cases form
      obtain ⟨ps, members, names, named⟩ := literalT.members
      refine ⟨by rw [flagsAt, own]; exact literalT.flags, ⟨ps, by rw [own]; exact members, names, named⟩, fun r is => ?_⟩
      cases is
      refine ⟨?_, settled, ⟨_, by rw [new, twinInfo]⟩, by rw [flagsAt, flagsAt, new, own, twinInfo], by rw [new, own, twinInfo]⟩
      simp [Has, State.receive]
    · have other : u ≠ s.types.size := by
        rintro rfl
        rw [settled] at freshU
        cases freshU
      have old {v : TypeId} (notT : v ≠ t) (notNew : v ≠ s.types.size) :
          (s.receive t a).typeInfo v = s.typeInfo v := by rw [info, if_neg notT, if_neg notNew]
      have before : s.fresh? u = some b := (freshCongr (old same other)).symm.trans freshU
      have literal := f.literals u b before
      refine literal.kept e.has (old same other) (fun r is => ?_) fun _ _ named => named
      -- What stands in the place of another literal is not fresh, so that it is not `t`.
      have twin := literal.twin r is
      refine old ?_ (Nat.ne_of_lt twin.has)
      rintro rfl
      cases fresh.symm.trans twin.settled

theorem Formed.step (f : s.Formed) (does : Develops s s') : s'.Formed := by
  obtain ⟨i, e⟩ := f.interned.along (f.later does)
  cases does with
  | constructed does spares =>
    refine ⟨i, fun t a fresh => ?_⟩
    cases before : s.fresh? t with
    | none => cases (spares.settled t before).symm.trans fresh
    | some b =>
      have own := spares.literals t b before
      cases fresh.symm.trans ((freshCongr own).trans before)
      exact (f.literals t a before).kept e.has own (spares.twins t a before) spares.names
  | @literal _ typed names _ run =>
    obtain ⟨ps, symbols, made, same, named, kept⟩ := literalRun s typed
    cases run.symm.trans made
    exact f.literal i e rfl (same ▸ names) named kept
  | received _ run =>
    rw [regularRun] at run
    split at run
    · cases run
      exact f
    · next a fresh =>
      split at run <;> cases run
      · exact f
      · exact f.receive i e fresh

theorem Formed.along (f : s.Formed) (developed : Developed s s') : s'.Formed ∧ Later s s' := by
  induction developed with
  | refl => exact ⟨f, .refl⟩
  | tail _ does ih => exact ⟨ih.1.step does, ih.2.trans (ih.1.later does)⟩

/- What has been received stays in its place. -/
theorem Received.step (has : s.Has t) (received : s.Received t r) (does : Develops s s') :
    s'.Received t r := by
  have old {info : TypeInfo} (types : s'.types = s.types.push info) : s'.Received t r := by
    unfold Received
    rwa [freshCongr (typeInfoOld types has)]
  cases does with
  | constructed does spares =>
    unfold Received at received ⊢
    cases before : s.fresh? t with
    | none => rwa [spares.settled t before, ← before]
    | some a => rwa [freshCongr (spares.literals t a before)]
  | @literal _ typed _ _ run =>
    obtain ⟨ps, symbols, made, -⟩ := literalRun s typed
    cases run.symm.trans made
    exact old rfl
  | @received _ u hasU run =>
    rw [regularRun] at run
    split at run
    · cases run
      exact received
    · next a fresh =>
      split at run <;> cases run
      · exact received
      · next none =>
        unfold Received at received ⊢
        have info := receiveInfo (a := a) hasU t
        by_cases same : t = u
        · subst same
          simp [fresh, none] at received
        · rwa [freshCongr (info.trans ((if_neg same).trans (if_neg (Nat.ne_of_lt has))))]

theorem Received.along (f : s.Formed) (has : s.Has t) (received : s.Received t r) (developed : Developed s s') :
    s'.Received t r := by
  induction developed with
  | refl => exact received
  | tail before does ih =>
    obtain ⟨-, later⟩ := f.along before
    exact ih.step ((f.interned.along later).2.has t has) does

/-- What stands in the place of a type is had without making anything. -/
theorem Received.run (received : s.Received t r) : (Check.regular t).run s = .ok (r, s) := by
  unfold Received at received
  rw [regularRun]
  split at received
  · rw [received]
  · simp only [received]

/-- Something can always be received, and what stands in the place of a type stands in its own place. -/
theorem receives (f : s.Formed) (has : s.Has t) : ∃ r s', (Check.regular t).run s = .ok (r, s') ∧
    Develops s s' ∧ s'.Has r ∧ s'.Received t r ∧ s'.fresh? r = none := by
  cases fresh : s.fresh? t with
  | none =>
    have received : s.Received t t := by simp [Received, fresh]
    exact ⟨t, s, received.run, .received has received.run, has, received, fresh⟩
  | some a =>
    cases twin : a.regular with
    | some r =>
      have received : s.Received t r := by simp [Received, fresh, twin]
      have stands := (f.literals t a fresh).twin r twin
      exact ⟨r, s, received.run, .received has received.run, stands.has, received, stands.settled⟩
    | none =>
      have run : (Check.regular t).run s = .ok (s.types.size, s.receive t a) := by
        simp only [regularRun, fresh, twin]
      have does : Develops s (s.receive t a) := .received has run
      have fresh' : (s.receive t a).fresh? t = some { a with regular := some s.types.size } := by
        have own := (receiveInfo (a := a) has t).trans (if_pos rfl)
        exact freshIff.mpr ⟨by rw [own], (freshIff.mp fresh).2⟩
      have stands := ((f.step does).literals t _ fresh').twin s.types.size rfl
      exact ⟨_, _, run, does, stands.has, by simp [Received, fresh'], stands.settled⟩

/-- A type of another form comes into being beside the object literals. -/
theorem Formed.spares (f : s.Formed) {info : TypeInfo} (types : s'.types = s.types.push info)
    (other : ∀ a, info.form ≠ .anonymous a) (symbols : s'.symbols = s.symbols) : s.Spares s' where
  settled t settled := by
    by_cases new : t = s.types.size
    · rw [Option.eq_none_iff_forall_ne_some]
      intro a fresh
      have form := (freshIff.mp fresh).1
      rw [typeInfoPush types, if_pos new] at form
      exact other a form
    · rw [← settled]
      exact freshCongr ((typeInfoPush types t).trans (if_neg new))
  literals t _ fresh := typeInfoOld types (hasFresh fresh)
  twins t a fresh r twin := typeInfoOld types ((f.literals t a fresh).twin r twin).has
  names x name named := symbols ▸ named

theorem unionSpares (f : s.Formed) {xs : List TypeId} {name : Option String}
    (run : (Check.namedUnion xs name).run s = .ok (u, s')) : s.Spares s' := by
  have same : s.Spares s := ⟨fun _ none => none, fun _ _ _ => rfl, fun _ _ _ _ _ => rfl, fun _ _ named => named⟩
  rw [unionRun] at run
  split at run
  · cases run
    exact same
  · unfold enterUnion at run
    split at run <;> cases run
    · exact same
    · exact f.spares rfl (by simp) rfl

theorem initialFormed : State.initial.Formed where
  interned := initialInterned
  literals t a fresh := by
    have bound : t < 12 := hasFresh fresh
    interval_cases t
    all_goals cases fresh

end Steps

end State

end Fragment.Typing
