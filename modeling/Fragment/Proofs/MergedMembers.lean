import Fragment.Proofs.Declaring
import Fragment.Proofs.Occurrences

/-! Members that several bodies of one type declare.
Going through the bodies in order, every property or method adds a declaration to its name or is reported; each step
keeps what is known of the properties so far. Then the declarations are ordered and signatures are made. -/
namespace Fragment.Typing

open Fragment.Source (Mark TypeMember)

/-! One declaration of a name -/

open Occurrence Check

/-- What is known of a property when some members have been looked at. -/
structure Check.Draft.Holds (u : State) (before : List Occurrence) (d : Draft) : Prop where
  made : d.symbol < u.symbols.size
  kind : ∃ first, before.find? (·.name = d.name) = some first ∧ d.isMethod = first.isMethod
  declarations : d.declarations =
    ((accepted before).filter (·.name = d.name)).map fun o => (o.rank, memberDeclaration o.member)
  named : (u.symbol d.symbol).name = d.name
  optional : (u.symbol d.symbol).isOptional = ((accepted before).filter (·.name = d.name)).any (·.optional)

/-- What is known of all properties when some members have been looked at. -/
structure DraftedFrom (s u : State) (before : List Occurrence) (drafts : List Draft) : Prop where
  names : drafts.map (·.name) = (before.map (·.name)).eraseDups
  distinct : (drafts.map (·.name)).Nodup
  apart : (drafts.map (·.symbol)).Nodup
  each : ∀ d ∈ drafts, d.Holds u before
  spoken : s.Says u ((refused before).map fun o => (o.member.mark, .duplicateIdentifier o.name))
  signed : u.functionSignatures = s.functionSignatures

/-- The names that have a declaration in the body at hand. -/
def SeenIn (rank : Nat) (before : List Occurrence) (seen : List String) : Prop :=
  ∀ name, name ∈ seen ↔ ∃ q ∈ accepted before, q.rank = rank ∧ q.name = name

section Steps

variable {s u v : State} {before : List Occurrence} {drafts : List Draft} {o : Occurrence}

theorem declarationsSnoc (before : List Occurrence) (o : Occurrence) (name : String) :
    (accepted (before ++ [o])).filter (·.name = name) =
      (accepted before).filter (·.name = name) ++ if o.fits before = true ∧ o.name = name then [o] else [] := by
  rw [acceptedSnoc, List.filter_append]
  congr 1
  by_cases fitting : o.fits before = true
  · by_cases same : o.name = name <;> simp [fitting, same]
  · simp [fitting]

/-- A property stays as it is if its symbol does and nothing is added to its name. -/
theorem Check.Draft.Holds.later {d : Draft} (holds : d.Holds u before) (more : u.symbols.size ≤ v.symbols.size)
    (same : v.symbol d.symbol = u.symbol d.symbol) (other : ¬ (o.fits before = true ∧ o.name = d.name)) :
    d.Holds v (before ++ [o]) := by
  have declarations := declarationsSnoc before o d.name
  rw [if_neg other, List.append_nil] at declarations
  obtain ⟨first, found, kind⟩ := holds.kind
  exact ⟨Nat.lt_of_lt_of_le holds.made more, ⟨first, by rw [List.find?_append, found]; rfl, kind⟩,
    declarations ▸ holds.declarations, same ▸ holds.named, by rw [same, declarations, holds.optional]⟩

/-- The seen names of a body, with one member more. -/
theorem SeenIn.snoc {seen : List String} (known : SeenIn o.rank before seen) :
    SeenIn o.rank (before ++ [o]) (if o.fits before then o.name :: seen else seen) := by
  intro name
  rw [acceptedSnoc]
  split
  next => simp [known name, or_and_right, exists_or, or_comm, eq_comm]
  next => simp [known name]

theorem namesSnoc (names : drafts.map (·.name) = (before.map (·.name)).eraseDups) (o : Occurrence) :
    ((before ++ [o]).map (·.name)).eraseDups =
      drafts.map (·.name) ++ if o.name ∈ drafts.map (·.name) then [] else [o.name] := by
  have member : o.name ∈ before.map (·.name) ↔ o.name ∈ drafts.map (·.name) := by rw [names, List.mem_eraseDups]
  rw [List.map_append, List.eraseDups_append, ← names, List.map_singleton, List.removeAll, List.filter_singleton]
  by_cases there : o.name ∈ drafts.map (·.name)
  · rw [if_pos there, List.elem_eq_mem, decide_eq_true (member.mpr there)]
    rfl
  · rw [if_neg there, List.elem_eq_mem, decide_eq_false (mt member.mp there)]
    rfl

theorem missingName (drafted : DraftedFrom s u before drafts) (missing : o.name ∉ drafts.map (·.name)) :
    before.find? (·.name = o.name) = none := by
  rw [drafted.names, List.mem_eraseDups] at missing
  refine List.find?_eq_none.mpr fun e member same => missing ?_
  exact List.mem_map.mpr ⟨e, member, of_decide_eq_true same⟩

/-- The first member of a name makes a property. -/
theorem newDraft (drafted : DraftedFrom s u before drafts) (missing : o.name ∉ drafts.map (·.name)) {y : Symbol}
    (named : y.name = o.name) (optional : y.isOptional = o.optional) :
    DraftedFrom s { u with symbols := u.symbols.push y } (before ++ [o])
      (drafts ++ [⟨o.name, u.symbols.size, o.isMethod, [(o.rank, memberDeclaration o.member)]⟩]) := by
  have first := missingName drafted missing
  have fitting : o.fits before = true := by rw [fits, first]
  have none : (accepted before).filter (·.name = o.name) = [] := by
    refine List.filter_eq_nil_iff.mpr fun e member => ?_
    exact List.find?_eq_none.mp first e (acceptedMem member)
  have only : (accepted (before ++ [o])).filter (·.name = o.name) = [o] := by
    rw [declarationsSnoc, none, if_pos ⟨fitting, rfl⟩, List.nil_append]
  have pushed : ({ u with symbols := u.symbols.push y } : State).symbol u.symbols.size = y := by simp [State.symbol]
  have old {x : SymbolId} (inside : x < u.symbols.size) :
      ({ u with symbols := u.symbols.push y } : State).symbol x = u.symbol x := by
    simp [State.symbol, Array.getElem?_push, Nat.ne_of_lt inside]
  refine ⟨?_, ?_, ?_, ?_, ?_, drafted.signed⟩
  · rw [namesSnoc drafted.names, if_neg missing, List.map_append, List.map_singleton]
  · rw [List.map_append]
    exact drafted.distinct.append (List.nodup_singleton _) (by simpa using missing)
  · rw [List.map_append]
    refine drafted.apart.append (List.nodup_singleton _) ?_
    simp only [List.map_singleton, List.disjoint_singleton, List.mem_map, not_exists, not_and]
    exact fun d member => Nat.ne_of_lt (drafted.each d member).made
  · intro d member
    rcases List.mem_append.mp member with there | new
    · refine (drafted.each d there).later (by simp) (old (drafted.each d there).made) fun same => missing ?_
      exact List.mem_map.mpr ⟨d, there, same.2.symm⟩
    · rw [List.mem_singleton.mp new]
      refine ⟨by simp, ⟨o, by rw [List.find?_append, first]; simp, rfl⟩, by rw [only]; rfl, ?_, ?_⟩
      · rw [pushed, named]
      · rw [pushed, only, optional]
        simp
  · rw [refusedSnoc, if_pos fitting, List.append_nil]
    simpa using drafted.spoken.trans (State.Says.same (t := { u with symbols := u.symbols.push y }) rfl rfl)

/-- A duplicate leaves the properties as they are. -/
theorem refusedDraft (drafted : DraftedFrom s u before drafts) (there : o.name ∈ drafts.map (·.name))
    (duplicate : ¬ o.fits before = true) {ds : Std.HashMap String (List Diagnostic)}
    (spoken : u.Says { u with diagnostics := ds } [(o.member.mark, .duplicateIdentifier o.name)]) :
    DraftedFrom s { u with diagnostics := ds } (before ++ [o]) drafts := by
  refine ⟨?_, drafted.distinct, drafted.apart, fun d member => ?_, ?_, drafted.signed⟩
  · rw [namesSnoc drafted.names, if_pos there, List.append_nil]
  · exact (drafted.each d member).later (Nat.le_refl _) rfl fun same => duplicate same.1
  · rw [refusedSnoc, if_neg duplicate, List.map_append]
    exact drafted.spoken.trans spoken

/-- One more declaration of a property. -/
def Check.Draft.add (o : Occurrence) (d : Draft) : Draft :=
  if d.name = o.name then { d with declarations := d.declarations ++ [(o.rank, memberDeclaration o.member)] } else d

theorem Check.Draft.add_name (o : Occurrence) (d : Draft) : (d.add o).name = d.name := by
  unfold Draft.add
  split <;> rfl

theorem Check.Draft.add_symbol (o : Occurrence) (d : Draft) : (d.add o).symbol = d.symbol := by
  unfold Draft.add
  split <;> rfl

/-- A member that fits the others of its name adds a declaration to them. -/
theorem mergedDraft (drafted : DraftedFrom s u before drafts) {d : Draft} (found : d ∈ drafts) (name : d.name = o.name)
    (fitting : o.fits before = true) {f : Symbol → Symbol} (named : ∀ y, (f y).name = y.name)
    (optional : ∀ y, (f y).isOptional = (y.isOptional || o.optional)) :
    DraftedFrom s { u with symbols := u.symbols.modify d.symbol f } (before ++ [o]) (drafts.map (·.add o)) := by
  have there : o.name ∈ drafts.map (·.name) := List.mem_map.mpr ⟨d, found, name⟩
  have more : u.symbols.size ≤ (u.symbols.modify d.symbol f).size := by rw [Array.size_modify]
  have same (e : Draft) (member : e ∈ drafts) : e.name = o.name → e = d := fun named =>
    List.inj_on_of_nodup_map drafted.distinct member found (named.trans name.symm)
  have apart (e : Draft) (member : e ∈ drafts) (other : e.name ≠ o.name) : d.symbol ≠ e.symbol := fun symbol =>
    other (List.inj_on_of_nodup_map drafted.apart found member symbol ▸ name)
  refine ⟨?_, ?_, ?_, ?_, ?_, drafted.signed⟩
  · rw [namesSnoc drafted.names, if_pos there, List.append_nil]
    simp [Draft.add_name]
  · simpa [Draft.add_name, Function.comp_def] using drafted.distinct
  · simpa [Draft.add_symbol, Function.comp_def] using drafted.apart
  · intro e' member
    obtain ⟨e, old, rfl⟩ := List.mem_map.mp member
    by_cases own : e.name = o.name
    · cases same e old own
      have holds := drafted.each d old
      have changed := (symbolModify u d.symbol d.symbol f).trans (if_pos ⟨rfl, holds.made⟩)
      have declarations := declarationsSnoc before o d.name
      rw [if_pos ⟨fitting, name.symm⟩] at declarations
      obtain ⟨first, firstOld, kind⟩ := holds.kind
      rw [Draft.add, if_pos name]
      refine ⟨Nat.lt_of_lt_of_le holds.made more, ⟨first, by rw [List.find?_append, firstOld]; rfl, kind⟩, ?_, ?_, ?_⟩
      · rw [declarations, List.map_append, ← holds.declarations]
        rfl
      · exact (congrArg Symbol.name changed).trans ((named _).trans holds.named)
      · rw [declarations, List.any_append, ← holds.optional]
        exact (congrArg Symbol.isOptional changed).trans ((optional _).trans (by simp))
    · rw [Draft.add, if_neg own]
      refine (drafted.each e old).later more ?_ fun same => own same.2.symm
      exact (symbolModify u d.symbol e.symbol f).trans (if_neg fun both => apart e old own both.1)
  · rw [refusedSnoc, if_pos fitting, List.append_nil]
    simpa using drafted.spoken.trans (State.Says.same (t := { u with symbols := u.symbols.modify d.symbol f }) rfl rfl)

theorem mergedSame (drafted : DraftedFrom s u before drafts) {d : Draft} (found : d ∈ drafts) (name : d.name = o.name)
    (fitting : o.fits before = true) (optional : o.optional = false) :
    DraftedFrom s u (before ++ [o]) (drafts.map (·.add o)) := by
  have merged := mergedDraft (f := id) drafted found name fitting (fun _ => rfl) fun y => by rw [optional, Bool.or_false, id]
  have same : u.symbols.modify d.symbol id = u.symbols := by
    ext i
    · rw [Array.size_modify]
    · simp [Array.getElem_modify]
  rwa [same] at merged

theorem kindOptional (isMethod optional : Bool) : SymbolFlags.meets
    (if optional then (if isMethod then SymbolFlags.method else SymbolFlags.property) ||| SymbolFlags.optional
      else if isMethod then SymbolFlags.method else SymbolFlags.property) SymbolFlags.optional = optional := by
  cases isMethod <;> cases optional <;> decide

theorem optionalAdded (flags : SymbolFlags) :
    SymbolFlags.meets (flags ||| SymbolFlags.optional) SymbolFlags.optional = true := by
  rw [symbolMeetsOr, Bool.or_eq_true]
  exact .inr (by decide)

/-- Adding a member: it is refused, or becomes a declaration of its name. -/
theorem addNamedRuns (drafted : DraftedFrom s u before drafts) {seen : List String}
    (known : SeenIn o.rank before seen) (scope : TypeScope) : ∃ drafts' v,
      (addNamed scope o.rank seen drafts o.member o.name o.isMethod o.optional).run u =
        .ok ((if o.fits before then o.name :: seen else seen, drafts'), v) ∧
      DraftedFrom s v (before ++ [o]) drafts' := by
  unfold addNamed
  cases found : drafts.find? (·.name = o.name) with
  | none =>
    have missing : o.name ∉ drafts.map (·.name) := by
      rintro member
      obtain ⟨d, there, same⟩ := List.mem_map.mp member
      exact List.find?_eq_none.mp found d there (decide_eq_true same)
    have fitting : o.fits before = true := by rw [fits, missingName drafted missing]
    rw [if_pos fitting]
    exact ⟨_, _, rfl, newDraft drafted missing rfl (kindOptional o.isMethod o.optional)⟩
  | some d =>
    dsimp only
    have member := List.mem_of_find?_eq_some found
    have name : d.name = o.name := by simpa using List.find?_some found
    have there : o.name ∈ drafts.map (·.name) := List.mem_map.mpr ⟨d, member, name⟩
    obtain ⟨first, firstOld, kind⟩ := (drafted.each d member).kind
    rw [name] at firstOld
    have duplicate : (d.isMethod ≠ o.isMethod || (!o.isMethod && seen.contains o.name)) = true ↔
        ¬ o.fits before = true := by
      rw [fitsIff firstOld, ← kind, ← known o.name]
      cases d.isMethod <;> cases o.isMethod <;> simp
    by_cases fitting : o.fits before = true
    · rw [if_neg (mt duplicate.mp (not_not.mpr fitting)), if_pos fitting]
      cases optional : o.optional with
      | false => exact ⟨drafts.map (·.add o), u, rfl, mergedSame drafted member name fitting optional⟩
      | true =>
        refine ⟨drafts.map (·.add o), _, rfl, mergedDraft drafted member name fitting ?_ fun y => ?_⟩
        · exact fun _ => rfl
        · rw [optional, Bool.or_true]
          exact optionalAdded y.flags
    · rw [if_pos (duplicate.mpr fitting), if_neg fitting]
      obtain ⟨ds, said, spoken⟩ := State.errorSays u o.member.mark (.duplicateIdentifier o.name)
      exact ⟨drafts, _, runThen said, refusedDraft drafted there fitting spoken⟩

theorem addMembersRuns (scope : TypeScope) (rank : Nat) (body : List TypeMember) {seen : List String}
    (drafted : DraftedFrom s u before drafts) (known : SeenIn rank before seen) : ∃ drafts' v,
      (addMembers scope rank seen drafts body).run u = .ok (drafts', v) ∧
      DraftedFrom s v (before ++ body.filterMap (occurrence rank)) drafts' := by
  induction body generalizing u before drafts seen with
  | nil => exact ⟨drafts, u, rfl, by simpa using drafted⟩
  | cons m body ih =>
    have named (o : Occurrence) (here : occurrence rank m = some o) (same : o.rank = rank)
        (adds : addMember scope rank seen drafts m =
          addNamed scope rank seen drafts o.member o.name o.isMethod o.optional) : ∃ drafts' v,
        (addMembers scope rank seen drafts (m :: body)).run u = .ok (drafts', v) ∧
        DraftedFrom s v (before ++ (m :: body).filterMap (occurrence rank)) drafts' := by
      subst same
      obtain ⟨next, t, ran, step⟩ := addNamedRuns drafted known scope
      obtain ⟨drafts', v, rest, done⟩ := ih step known.snoc
      refine ⟨drafts', v, (runThen (adds ▸ ran)).trans rest, ?_⟩
      rw [List.filterMap_cons_some here]
      simpa using done
    cases m with
    | property mark name type optional => exact named _ rfl rfl rfl
    | method mark name params result optional => exact named _ rfl rfl rfl
    | call mark params result => exact ih drafted known

theorem addBodiesRuns (scope : TypeScope) (rank : Nat) (bodies : List (List TypeMember))
    (drafted : DraftedFrom s u before drafts) (earlier : ∀ o ∈ before, o.rank < rank) : ∃ drafts' v,
      (addBodies scope rank drafts bodies).run u = .ok (drafts', v) ∧
      DraftedFrom s v (before ++ occurrences rank bodies) drafts' := by
  induction bodies generalizing rank u before drafts with
  | nil => exact ⟨drafts, u, rfl, by simpa [occurrences] using drafted⟩
  | cons body bodies ih =>
    have fresh : SeenIn rank before [] := by
      intro name
      simp only [List.not_mem_nil, false_iff]
      rintro ⟨q, member, same, -⟩
      exact Nat.lt_irrefl _ (same ▸ earlier q (acceptedMem member))
    obtain ⟨next, t, ran, step⟩ := addMembersRuns scope rank body drafted fresh
    have ranks : ∀ o ∈ before ++ body.filterMap (occurrence rank), o.rank < rank + 1 := by
      refine List.forall_mem_append.mpr ⟨fun o member => Nat.lt_succ_of_lt (earlier o member), fun o member => ?_⟩
      obtain ⟨m, -, named⟩ := List.mem_filterMap.mp member
      rw [occurrenceRank named]
      exact Nat.lt_succ_self rank
    obtain ⟨drafts', v, rest, done⟩ := ih (rank + 1) step ranks
    exact ⟨drafts', v, (runThen ran).trans rest, by simpa [occurrences] using done⟩

end Steps

/-- The declarations of a property when all bodies have been looked at. -/
def Check.Draft.ordered (d : Draft) : List Declaration :=
  (d.declarations.mergeSort fun a b => b.1 ≤ a.1).map (·.2)

/-- The symbol of a property with its declarations. -/
def Check.Draft.written (d : Draft) (y : Symbol) : Symbol :=
  { y with declarations := d.ordered, valueDeclaration := d.ordered.head? }

theorem writtenRuns (drafts : List Draft) {u : State} (apart : (drafts.map (·.symbol)).Nodup)
    (made : ∀ d ∈ drafts, d.symbol < u.symbols.size) : ∃ symbols,
      (forIn drafts PUnit.unit fun d _ => do
        modifySymbol d.symbol d.written
        pure (ForInStep.yield PUnit.unit) : Check PUnit).run u = .ok (PUnit.unit, { u with symbols }) ∧
      symbols.size = u.symbols.size ∧
      (∀ d ∈ drafts, ({ u with symbols } : State).symbol d.symbol = d.written (u.symbol d.symbol)) ∧
      ∀ x, x ∉ drafts.map (·.symbol) → ({ u with symbols } : State).symbol x = u.symbol x := by
  induction drafts generalizing u with
  | nil => exact ⟨u.symbols, rfl, rfl, fun _ none => absurd none List.not_mem_nil, fun _ _ => rfl⟩
  | cons d drafts ih =>
    rw [List.map_cons, List.nodup_cons] at apart
    have size : (u.symbols.modify d.symbol d.written).size = u.symbols.size := Array.size_modify
    obtain ⟨symbols, ran, same, each, others⟩ := ih (u := { u with symbols := u.symbols.modify d.symbol d.written })
      apart.2 fun e member => by rw [size]; exact made e (List.mem_cons_of_mem d member)
    have first := symbolModify u d.symbol d.symbol d.written
    rw [if_pos ⟨rfl, made d (List.mem_cons_self ..)⟩] at first
    refine ⟨symbols, ?_, same.trans size, ?_, fun x absent => ?_⟩
    · rw [List.forIn_cons]
      exact ran
    · refine List.forall_mem_cons.mpr ⟨(others d.symbol apart.1).trans first, fun e member => (each e member).trans ?_⟩
      have other : d.symbol ≠ e.symbol := fun symbol => apart.1 (List.mem_map.mpr ⟨e, member, symbol.symm⟩)
      exact congrArg e.written ((symbolModify u d.symbol e.symbol d.written).trans (if_neg fun both => other both.1))
    · rw [List.map_cons, List.mem_cons, not_or] at absent
      exact (others x absent.2).trans ((symbolModify u d.symbol x d.written).trans (if_neg fun both => absent.1 both.1.symm))

/-! Signatures -/

/-- Between the two states nodes have been given signatures. -/
structure State.Signs (s t : State) : Prop where
  files : t.fileOf = s.fileOf
  diagnostics : t.diagnostics = s.diagnostics
  more : s.symbols.size ≤ t.symbols.size
  symbols : ∀ x < s.symbols.size, { t.symbol x with typeScope := [] } = { s.symbol x with typeScope := [] }
  signed : ∀ id : NodeId, ∀ g, s.functionSignatures[id]? = some g → t.functionSignatures[id]? = some g
  kept : ∀ g sig, s.signature? g = some sig → t.signature? g = some sig
  made : ∀ id : NodeId, ∀ g, t.functionSignatures[id]? = some g → s.functionSignatures[id]? = some g ∨
    ∃ sig, t.signature? g = some sig ∧ sig.node.mark.id = id

namespace State.Signs

variable {s t u : State}

theorem refl (s : State) : s.Signs s :=
  ⟨rfl, rfl, Nat.le_refl _, fun _ _ => rfl, fun _ _ => id, fun _ _ => id, fun _ _ => .inl⟩

theorem trans (first : s.Signs t) (rest : t.Signs u) : s.Signs u where
  files := rest.files.trans first.files
  diagnostics := rest.diagnostics.trans first.diagnostics
  more := Nat.le_trans first.more rest.more
  symbols x inside := (rest.symbols x (Nat.lt_of_lt_of_le inside first.more)).trans (first.symbols x inside)
  signed id g found := rest.signed id g (first.signed id g found)
  kept g sig found := rest.kept g sig (first.kept g sig found)
  made id g found := by
    rcases rest.made id g found with earlier | new
    · exact (first.made id g earlier).imp_right fun ⟨sig, there, node⟩ => ⟨sig, rest.kept g sig there, node⟩
    · exact .inr new

end State.Signs

/-- Steps for the elements of a list, of which each leaves true what the earlier ones have made so. -/
theorem mapRuns {α β : Type} {f : α → Check β} {R : State → State → Prop} {P : α → β → State → Prop}
    (refl : ∀ s, R s s) (trans : ∀ s t u, R s t → R t u → R s u) (lasts : ∀ a b s t, P a b s → R s t → P a b t)
    (each : ∀ a s, ∃ b t, (f a).run s = .ok (b, t) ∧ R s t ∧ P a b t) (xs : List α) (s : State) :
    ∃ ys t, (xs.mapM f).run s = .ok (ys, t) ∧ R s t ∧ List.Forall₂ (P · · t) xs ys := by
  induction xs generalizing s with
  | nil => exact ⟨[], s, rfl, refl s, .nil⟩
  | cons x xs ih =>
    obtain ⟨y, t, first, step, made⟩ := each x s
    obtain ⟨ys, u, rest, steps, all⟩ := ih t
    refine ⟨y :: ys, u, ?_, trans s t u step steps, .cons (lasts x y t u made steps) all⟩
    rw [List.mapM_cons, runThen first, runThen rest]
    rfl

theorem scopedSigns (s : State) (x : SymbolId) (scope : TypeScope) :
    s.Signs { s with symbols := s.symbols.modify x fun y => { y with typeScope := scope } } where
  files := rfl
  diagnostics := rfl
  more := by rw [Array.size_modify]
  symbols z _ := by
    rw [symbolModify]
    split <;> rfl
  signed _ _ := id
  kept _ _ := id
  made _ _ := .inl

theorem pushedSigns (s : State) (y : Symbol) : s.Signs { s with symbols := s.symbols.push y } where
  files := rfl
  diagnostics := rfl
  more := by simp
  symbols x inside := by simp [State.symbol, Array.getElem?_push, Nat.ne_of_lt inside]
  signed _ _ := id
  kept _ _ := id
  made _ _ := .inl

theorem parameterRuns (scope : TypeScope) (p : Source.Param) (s : State) :
    ∃ x t, (parameterSymbol scope p).run s = .ok (x, t) ∧ s.Signs t ∧ t.functionSignatures = s.functionSignatures := by
  unfold parameterSymbol
  rw [runGet]
  cases s.symbolOf[p.mark.id]? with
  | some x => exact ⟨x, _, rfl, scopedSigns s x scope, rfl⟩
  | none => exact ⟨_, _, rfl, (pushedSigns s _).trans (scopedSigns _ _ scope), rfl⟩

theorem parametersRun (scope : TypeScope) (params : List Source.Param) (s : State) :
    ∃ xs t, (params.mapM (parameterSymbol scope)).run s = .ok (xs, t) ∧ s.Signs t ∧
      t.functionSignatures = s.functionSignatures := by
  induction params generalizing s with
  | nil => exact ⟨[], s, rfl, .refl s, rfl⟩
  | cons p params ih =>
    obtain ⟨x, t, first, signs, same⟩ := parameterRuns scope p s
    obtain ⟨xs, u, rest, more, still⟩ := ih t
    refine ⟨x :: xs, u, ?_, signs.trans more, still.trans same⟩
    rw [List.mapM_cons, runThen first, runThen rest]
    rfl

/-- A node without a signature gets one of its own. -/
theorem newSigns (s : State) {sig : Signature} {node : NodeId} (own : sig.node.mark.id = node)
    (unknown : s.functionSignatures[node]? = none) :
    s.Signs { s with signatures := s.signatures.push sig
                     functionSignatures := s.functionSignatures.insert node s.signatures.size } where
  files := rfl
  diagnostics := rfl
  more := Nat.le_refl _
  symbols _ _ := rfl
  signed id g found := by
    have other : node ≠ id := by
      rintro rfl
      rw [unknown] at found
      cases found
    rw [Std.HashMap.getElem?_insert, if_neg (by simpa using other)]
    exact found
  kept g old found := by
    have inside := (Array.getElem?_eq_some_iff.mp found).1
    rw [State.signature?, Array.getElem?_push, if_neg (Nat.ne_of_lt inside)]
    exact found
  made id g found := by
    rw [Std.HashMap.getElem?_insert] at found
    split at found
    next same =>
      cases found
      exact .inr ⟨sig, Array.getElem?_push_size, own.trans (beq_iff_eq.mp same)⟩
    next => exact .inl found

theorem signatureRuns (scope : TypeScope) (node : FunctionNode) (s : State) :
    ∃ g t, (signatureOf node scope).run s = .ok (g, t) ∧ s.Signs t ∧ t.functionSignatures[node.mark.id]? = some g := by
  unfold signatureOf
  rw [runGet]
  cases known : s.functionSignatures[node.mark.id]? with
  | some g => exact ⟨g, s, rfl, .refl s, known⟩
  | none =>
    obtain ⟨parameters, t, ran, signs, same⟩ := parametersRun scope node.params s
    dsimp only
    rw [runThen ran]
    refine ⟨_, _, rfl, signs.trans (newSigns t ?_ ?_), Std.HashMap.getElem?_insert_self⟩
    · rfl
    · rw [same]
      exact known

/-- The node of a signature that a body declares for the type itself. -/
def signatureMark : TypeMember → Option Mark
  | .call mark .. => some mark
  | _ => none

/-- The signatures of nodes, in order. -/
def State.SignaturesOf (t : State) (marks : List Mark) (gs : List SignatureId) : Prop :=
  List.Forall₂ (fun mark g => t.functionSignatures[mark.id]? = some g) marks gs

theorem State.SignaturesOf.later {s t : State} {marks : List Mark} {gs : List SignatureId}
    (signatures : s.SignaturesOf marks gs) (signs : s.Signs t) : t.SignaturesOf marks gs := by
  unfold State.SignaturesOf at signatures ⊢
  exact signatures.imp fun (mark : Mark) g => signs.signed mark.id g

theorem callSignaturesRun (scope : TypeScope) (body : List TypeMember) (s : State) :
    ∃ gs t, (callSignatures scope body).run s = .ok (gs, t) ∧ s.Signs t ∧
      t.SignaturesOf (body.filterMap signatureMark) gs := by
  induction body generalizing s with
  | nil => exact ⟨[], s, rfl, .refl s, .nil⟩
  | cons m body ih =>
    cases m with
    | call mark params result =>
      obtain ⟨g, t, first, signs, signed⟩ := signatureRuns scope { mark, params, result } s
      obtain ⟨gs, u, rest, more, all⟩ := ih t
      refine ⟨g :: gs, u, ?_, signs.trans more, .cons (more.signed _ _ signed) all⟩
      rw [callSignatures, runThen first, runThen rest]
      rfl
    | property | method => exact ih s

theorem bodySignaturesRun (scope : TypeScope) (bodies : List (List TypeMember)) (s : State) :
    ∃ gs t, (bodies.mapM (callSignatures scope)).run s = .ok (gs, t) ∧ s.Signs t ∧
      t.SignaturesOf (bodies.flatMap (·.filterMap signatureMark)) gs.flatten := by
  obtain ⟨gs, t, ran, signs, each⟩ := mapRuns (P := fun body gs t => t.SignaturesOf (body.filterMap signatureMark) gs)
    State.Signs.refl (fun _ _ _ => State.Signs.trans) (fun _ _ _ _ => State.SignaturesOf.later)
    (callSignaturesRun scope) bodies s
  exact ⟨gs, t, ran, signs, List.rel_flatten (List.forall₂_map_left_iff.mpr each)⟩

/-! All members -/

/-- What looking at the bodies of one type gives. -/
structure Merges (bodies : List (List TypeMember)) (s t : State) (members : Members) : Prop where
  /-- Names stand in the order in which they first occur, each with a symbol of its own. -/
  names : members.properties.map (·.1) = ((occurrences 0 bodies).map (·.name)).eraseDups
  apart : (members.properties.map (·.2)).Nodup
  named : ∀ p ∈ members.properties, (t.symbol p.2).name = p.1
  /-- The accepted members of a name are its declarations, those of the last body first. -/
  declarations : ∀ p ∈ members.properties, (t.symbol p.2).declarations =
    ((List.range bodies.length).reverse.flatMap fun rank =>
      (accepted (occurrences 0 bodies)).filter fun o => o.name = p.1 ∧ o.rank = rank).map fun o => memberDeclaration o.member
  value : ∀ p ∈ members.properties, (t.symbol p.2).valueDeclaration = (t.symbol p.2).declarations.head?
  optional : ∀ p ∈ members.properties, (t.symbol p.2).isOptional = true ↔
    ∃ o ∈ accepted (occurrences 0 bodies), o.name = p.1 ∧ o.optional = true
  signatures : t.SignaturesOf (bodies.reverse.flatMap (·.filterMap signatureMark)) members.signatures
  /-- A signature is one that the node had, or is made for it. -/
  signed : ∀ id : NodeId, ∀ g, t.functionSignatures[id]? = some g → s.functionSignatures[id]? = some g ∨
    ∃ sig, t.signature? g = some sig ∧ sig.node.mark.id = id
  /-- Only the other members are reported, each where it stands. -/
  reported : s.Says t ((refused (occurrences 0 bodies)).map fun o => (o.member.mark, .duplicateIdentifier o.name))

/-- The declarations of a property are those that its name has been given, by bodies. -/
theorem Check.Draft.Holds.ordered {u : State} {before : List Occurrence} {d : Draft} (holds : d.Holds u before) {n : Nat}
    (below : ∀ o ∈ before, o.rank < n) : d.ordered =
      ((List.range n).reverse.flatMap fun rank => (accepted before).filter fun o => o.name = d.name ∧ o.rank = rank).map
        fun o => memberDeclaration o.member := by
  have ranks : ∀ x ∈ d.declarations, x.1 < n := by
    rw [holds.declarations]
    intro x member
    obtain ⟨o, there, rfl⟩ := List.mem_map.mp member
    exact below o (acceptedMem (List.mem_filter.mp there).1)
  rw [Draft.ordered, sortRanks d.declarations n ranks, byRank, List.map_flatMap, List.map_flatMap, holds.declarations]
  refine List.flatMap_congr fun rank _ => ?_
  rw [List.filter_map, List.map_map, List.filter_filter]
  congr 2
  funext o
  simp [and_comm]

/-- Looking at the bodies of one type comes to an end. Each property or method is a declaration of its name or is
reported, and not both. -/
theorem membersMerged (bodies : List (List TypeMember)) (scope : TypeScope) (s : State) :
    (occurrences 0 bodies).Perm (accepted (occurrences 0 bodies) ++ refused (occurrences 0 bodies)) ∧
    ∃ members t, (declaredMembers bodies scope).run s = .ok (members, t) ∧ Merges bodies s t members := by
  refine ⟨siftPerm [] _, ?_⟩
  have start : DraftedFrom s s [] [] :=
    ⟨rfl, List.nodup_nil, List.nodup_nil, fun _ none => absurd none List.not_mem_nil, .same rfl rfl, rfl⟩
  obtain ⟨drafts, u, added, drafted⟩ :=
    addBodiesRuns scope 0 bodies start fun _ none => absurd none List.not_mem_nil
  rw [List.nil_append] at drafted
  have below : ∀ o ∈ occurrences 0 bodies, o.rank < bodies.length := fun o member => by
    simpa using occurrencesBelow 0 bodies o member
  obtain ⟨symbols, wrote, size, written, -⟩ := writtenRuns drafts drafted.apart fun d member => (drafted.each d member).made
  obtain ⟨gs, t, signed, signs, signatures⟩ := bodySignaturesRun scope bodies.reverse { u with symbols }
  refine ⟨⟨drafts.map fun d => (d.name, d.symbol), gs.flatten⟩, t, ?_, ?_⟩
  · rw [declaredMembers, runThen added]
    refine (runThen wrote).trans ?_
    rw [runThen signed]
    rfl
  have final (d : Draft) (member : d ∈ drafts) :
      { t.symbol d.symbol with typeScope := [] } = { d.written (u.symbol d.symbol) with typeScope := [] } := by
    rw [← written d member]
    exact signs.symbols d.symbol (size ▸ (drafted.each d member).made)
  have ofProperty (p : String × SymbolId) (member : p ∈ drafts.map fun d => (d.name, d.symbol)) :
      ∃ d ∈ drafts, d.name = p.1 ∧ d.symbol = p.2 := by
    obtain ⟨d, there, rfl⟩ := List.mem_map.mp member
    exact ⟨d, there, rfl, rfl⟩
  constructor
  · rw [← drafted.names, List.map_map]
    rfl
  · rw [List.map_map]
    exact drafted.apart
  · intro p member
    obtain ⟨d, there, name, symbol⟩ := ofProperty p member
    rw [← name, ← symbol]
    exact (congrArg Symbol.name (final d there)).trans (drafted.each d there).named
  · intro p member
    obtain ⟨d, there, name, symbol⟩ := ofProperty p member
    rw [← name, ← symbol]
    exact (congrArg Symbol.declarations (final d there)).trans ((drafted.each d there).ordered below)
  · intro p member
    obtain ⟨d, there, name, symbol⟩ := ofProperty p member
    rw [← symbol]
    exact (congrArg Symbol.valueDeclaration (final d there)).trans
      (congrArg List.head? (congrArg Symbol.declarations (final d there))).symm
  · intro p member
    obtain ⟨d, there, name, symbol⟩ := ofProperty p member
    have flags : (t.symbol d.symbol).flags = (u.symbol d.symbol).flags :=
      (congrArg Symbol.flags (final d there)).trans rfl
    have optional := (drafted.each d there).optional
    rw [Symbol.isOptional, ← flags] at optional
    rw [← name, ← symbol, Symbol.isOptional, optional]
    simp
  · exact signatures
  · intro id g found
    rw [← drafted.signed]
    exact signs.made id g found
  · simpa using drafted.spoken.trans (State.Says.same signs.files signs.diagnostics)

end Fragment.Typing
