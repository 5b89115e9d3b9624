import Fragment.Proofs.Running
import Fragment.Proofs.RequiredRead

/-! Constants in place of accesses.
The checker notes the value of an access to a member of an enumeration, and the value then stands in place of the
access, whatever code the target has. The access would give the same if its target and its key only read, and the
target is the object that the line of the enumeration has made. A target that does something else does it no more. -/
namespace Fragment.Emit

open Source (Mark Expr)
open Typing (State SymbolId TypeId TypeFlags)
open Target (eval evalAll exec readName World Scope Outside Still bindEnds)
open Lowering

/-- Whether the form of an expression tells that its code only reads. -/
def reading : Expr → Bool
  | .number .. | .string .. | .boolean .. | .ident .. => true
  | .unary _ _ operand => reading operand
  | .binary _ op left right => match op with
    | .add | .mul | .and | .or => false
    | _ => reading left && reading right
  | .conditional _ test yes no => reading test && reading yes && reading no
  | .cast _ e _ => reading e
  | _ => false

/-- An access whose target has been made, the code of its key, and the code it would have without a constant. -/
inductive Access (c : Context) (p : Progress) (source : Expr) (target : Target.Expr) : Expr → Target.Expr → Target.Expr → Prop
  | member {mark : Mark} {name : String} {code : Target.Expr} {q : Progress}
      (made : memberExpr mark source name target c p = .ok (code, q)) :
      Access c p source target (.member mark source name) (.text name) code
  | element {mark : Mark} {index : Expr} {key code : Target.Expr} {q r : Progress}
      (lowered : lowerExpr index c p = .ok (key, q))
      (made : elementExpr mark source index target key c q = .ok (code, r)) :
      Access c p source target (.element mark source index) key code

/-- An access reads a field without a helper, or gives its target and its key to a helper. -/
inductive AccessCode (target : Target.Expr) : Target.Expr → Target.Expr → Prop
  | field (name : String) : AccessCode target (.text name) (.subscript target name)
  | helped (h : Target.Helper) (key : Target.Expr) (reads : h = .getMember ∨ h = .index) :
      AccessCode target key (.helper h [target, key])

/-- The fields of the object that an enumeration is at run time. -/
def memberEntries (members : List Typing.Symbol) : List (String × Target.Expr) :=
  members.map fun m => (m.name, .number (m.enumValue.getD (.int 0)))

/-- A value that the variable of an enumeration has right after the line of the enumeration has run. -/
inductive EnumMade (members : List Typing.Symbol) (v : Value) (after : World) : Prop
  | ran {c : Context} {p q : Progress} {st : State} {mark : Mark} {x : SymbolId} {t : TypeId} {ids : List SymbolId}
      {a : String} {value : Target.Expr} {o : Outside} {fuel : Nat} {scopes : List Scope} {before : World}
      (declared : p.typing.symbolOf[mark.id]? = some x)
      (type : (Typing.answers.declaredType x).run p.typing = .ok (t, st))
      (form : (st.typeInfo t).form = .enum ids) (symbols : ids.map st.symbol = members)
      (line : enumLine mark c p = .ok ((), q)) (added : q.made = p.made.push (.assign a value))
      (ran : exec o fuel scopes (.assign a value) before = .ok .next after)
      (found : readName scopes a after = .ok v after)

/-! Expressions that only read -/

theorem operatorReads {op : Source.BinaryOp} (kind : op ∉ [.add, .mul, .and, .or]) {a b : Target.Expr}
    (left : a.onlyReads = true) (right : b.onlyReads = true) (t u : TypeId) :
    Results (fun code => code.onlyReads = true) (operator op a t b u) := by
  have strict (negated : Bool) : Results (fun code => code.onlyReads = true) (strictEquality negated a b t u) := by
    refine Results.last fun _ => Results.last fun _ => Results.last fun _ => ?_
    dsimp only
    split
    · cases negated <;> exact .pure (by simp [Target.Expr.onlyReads, left, right])
    · cases negated <;> exact .pure (by simp [Target.Expr.onlyReads, Target.allOnlyRead, Target.Helper.onlyReads, left, right])
  cases op with
  | add | mul | and | or => simp at kind
  | sub =>
    refine Results.last fun numbers => ?_
    split <;> exact .pure (by simp [Target.Expr.onlyReads, Target.allOnlyRead, Target.Helper.onlyReads, left, right])
  | strictEqual | strictNotEqual => exact strict _
  | _ => exact .pure (by simp [Target.Expr.onlyReads, Target.allOnlyRead, Target.Helper.onlyReads, left, right])

theorem readingBinary {mark : Mark} {op : Source.BinaryOp} {left right : Expr}
    (plain : reading (.binary mark op left right) = true) :
    op ∉ [.add, .mul, .and, .or] ∧ reading left = true ∧ reading right = true := by
  unfold reading at plain
  split at plain
  case h_5 add mul and or =>
    exact ⟨by simpa using ⟨add, mul, and, or⟩, Bool.and_eq_true_iff.mp plain⟩
  all_goals cases plain

theorem readingReads : (e : Expr) → reading e = true → Results (fun code => code.onlyReads = true) (lowerExpr e)
  | .number _ value _, _ => by
    simp only [lowerExpr, numberExpr]
    split
    · exact .pure rfl
    · exact .throw _
  | .string .., _ | .boolean .., _ => by
    simp only [lowerExpr]
    exact .pure rfl
  | .ident mark name, _ => by
    simp only [lowerExpr]
    refine Results.last fun found => ?_
    split
    · exact .throw _
    · split
      · exact .pure rfl
      · exact Results.last fun _ => .pure rfl
  | .unary _ op operand, plain => by
    simp only [lowerExpr, reading] at plain ⊢
    refine (readingReads operand plain).bind fun v reads => Results.last fun t => ?_
    have wrapped (h : Target.Helper) (kind : h.onlyReads = true) : (Target.Expr.helper h [v]).onlyReads = true := by
      simp [Target.Expr.onlyReads, Target.allOnlyRead, kind, reads]
    split
    · refine Results.last fun bools => ?_
      split
      · exact .pure reads
      · exact .pure (wrapped .truthy rfl)
    · exact .pure (wrapped .typeOf rfl)
    · refine Results.last fun numbers => .pure ?_
      have number : (if numbers = true then v else .helper .toNumber [v]).onlyReads = true := by
        split
        · exact reads
        · exact wrapped .toNumber rfl
      split <;> exact number
  | .binary _ op left right, plain => by
    obtain ⟨kind, both⟩ := readingBinary plain
    simp only [lowerExpr]
    refine (readingReads left both.1).bind fun l first => Results.last fun t => ?_
    refine (readingReads right both.2).bind fun r second => ?_
    split
    · simp at kind
    · simp at kind
    · exact Results.last fun u => operatorReads kind first second t u
  | .conditional _ test yes no, plain => by
    simp only [lowerExpr, reading, Bool.and_eq_true] at plain ⊢
    obtain ⟨⟨first, second⟩, third⟩ := plain
    have condition {t : Target.Expr} (reads : t.onlyReads = true) :
        Results (fun code => code.onlyReads = true) (condition test t) := by
      refine Results.last fun _ => Results.last fun bools => ?_
      split
      · exact .pure reads
      · exact .pure (by simp [Target.Expr.onlyReads, Target.allOnlyRead, Target.Helper.onlyReads, reads])
    refine (readingReads test first).bind fun t reads => (condition reads).bind fun t first => ?_
    refine (readingReads yes second).bind fun y second => (readingReads no third).bind fun n third => .pure ?_
    simp [Target.Expr.onlyReads, first, second, third]
  | .cast _ e _, plain => by
    simp only [lowerExpr, reading] at plain ⊢
    exact readingReads e plain
  | .object .., plain | .array .., plain | .member .., plain | .element .., plain | .call .., plain
  | .await .., plain | .assign .., plain | .arrow .., plain => by
    simp [reading] at plain

/-! The line of an enumeration -/

theorem entriesRun {members : List Typing.Symbol} {c : Context} {p q : Progress} {entries : List (String × Target.Expr)}
    (run : (members.mapM fun m => do return (m.name, ← numberExpr (m.enumValue.getD (.int 0))) :
      Lowering (List (String × Target.Expr))) c p = .ok (entries, q)) : entries = memberEntries members ∧ q = p := by
  induction members generalizing p entries with
  | nil =>
    cases run
    exact ⟨rfl, rfl⟩
  | cons m rest ih =>
    rw [List.mapM_cons] at run
    obtain ⟨entry, r, first, rest⟩ := bindOk run
    obtain ⟨later, u, others, last⟩ := bindOk rest
    obtain ⟨literal, s, number, pair⟩ := bindOk first
    unfold numberExpr at number
    split at number
    case isFalse => cases number
    case isTrue =>
      cases number
      cases pair
      cases last
      obtain ⟨rfl, rfl⟩ := ih others
      exact ⟨rfl, rfl⟩

theorem nameOfMade {c : Context} {p q : Progress} {x : SymbolId} {a : String} (run : nameOf x c p = .ok (a, q)) :
    q.made = p.made := by
  cases isLibrary : c.libraryName? x with
  | some name =>
    rw [libraryNameRun isLibrary] at run
    cases run
    rfl
  | none =>
    rw [givenNameRun isLibrary] at run
    split at run
    · cases run
      rfl
    · cases run

theorem enumLineMade {c : Context} {p q : Progress} {st : State} {mark : Mark} {x : SymbolId} {t : TypeId}
    {ids : List SymbolId} (declared : p.typing.symbolOf[mark.id]? = some x)
    (type : (Typing.answers.declaredType x).run p.typing = .ok (t, st)) (form : (st.typeInfo t).form = .enum ids)
    (line : enumLine mark c p = .ok ((), q)) :
    ∃ a, q.made = p.made.push (.assign a (.dict (memberEntries (ids.map st.symbol)))) := by
  have asked : ask (Typing.answers.declaredType x) c p = .ok (t, { p with typing := st }) := by
    simp only [ask, bindRun, getRun, type, modifyRun]
    rfl
  have known : declaredSymbol? mark c p = .ok (some x, p) := by
    simp only [declaredSymbol?, bindRun, getRun, pureRun, declared]
  simp only [enumLine] at line
  simp only [bindRun, known, asked, getRun, form] at line
  split at line
  case h_2 => cases line
  case h_1 entries r made =>
    obtain ⟨rfl, rfl⟩ := entriesRun made
    rw [← bindRun (nameOf x) fun a => push (.assign a _)] at line
    obtain ⟨a, s, named, pushed⟩ := bindOk line
    cases pushed
    have kept := nameOfMade named
    exact ⟨a, congrArg (Array.push · _) kept⟩

theorem setPut (fields : Fields) (key : String) (v : Value) : fields.set key v = Target.Frame.put fields key v := by
  induction fields with
  | nil => rfl
  | cons first rest ih =>
    unfold Target.Frame.put
    simp only [Fields.set, ih]

theorem entriesHold {o : Outside} {scopes : List Scope} (members : List Typing.Symbol)
    (apart : (members.map (·.name)).Nodup) {fields made : Fields} {w u : World}
    (run : Target.evalEntries o scopes fields (memberEntries members) w = .ok made u) :
    u = w ∧ (∀ m ∈ members, made.get? m.name = some (.number (m.enumValue.getD (.int 0)).spelled)) ∧
      ∀ name, name ∉ members.map (·.name) → made.get? name = fields.get? name := by
  induction members generalizing fields with
  | nil =>
    cases run
    exact ⟨rfl, by simp, fun _ _ => rfl⟩
  | cons first rest ih =>
    obtain ⟨other, apart⟩ := List.nodup_cons.mp apart
    obtain ⟨same, held, kept⟩ := ih apart run
    refine ⟨same, fun m member => ?_, fun name away => ?_⟩
    · rcases List.mem_cons.mp member with rfl | member
      · rw [kept _ other, setPut, Fields.get?, Target.lookupPut, if_pos rfl]
      · exact held m member
    · rw [List.map_cons, List.mem_cons, not_or] at away
      rw [kept name away.2, setPut, Fields.get?, Target.lookupPut, if_neg away.1, Fields.get?]

/-- The object of an enumeration has the value of each of its members. -/
theorem enumMadeHolds {members : List Typing.Symbol} (apart : (members.map (·.name)).Nodup) {v : Value} {after : World}
    (made : EnumMade members v after) : ∃ ref, v = .object ref ∧
      ∀ m ∈ members, (after.store.object ref).get? m.name = some (.number (m.enumValue.getD (.int 0)).spelled) := by
  obtain ⟨declared, type, form, rfl, line, added, ran, found⟩ := made
  obtain ⟨b, same⟩ := enumLineMade declared type form line
  cases Array.push_inj_right.mp (added.symm.trans same)
  obtain ⟨object, u, evaluated, stored⟩ := bindEnds ran
  obtain ⟨_, w, wrote, ended⟩ := bindEnds stored
  obtain ⟨-, rfl⟩ := EStateM.Result.ok.inj ended
  obtain ⟨fields, s, entries, created⟩ := bindEnds evaluated
  obtain ⟨rfl, rfl⟩ := EStateM.Result.ok.inj created
  obtain ⟨-, held, -⟩ := entriesHold _ apart entries
  refine ⟨s.store.objects.size, Target.readWritten wrote found, fun m member => ?_⟩
  have store : w.store = { s.store with objects := s.store.objects.push fields } := by
    rw [Target.writeRun] at wrote
    obtain ⟨-, rfl⟩ := EStateM.Result.ok.inj wrote
    split <;> rfl
  simp only [store, Fragment.Store.object, Array.getD_eq_getD_getElem?, Array.getElem?_push_size, Option.getD_some]
  exact held m member

/-! The code of an access -/

theorem literalRun {n : Number} (writable : n.isWritable = true) (c : Context) (p : Progress) :
    numberExpr n c p = .ok (.number n, p) := by
  rw [numberExpr, if_pos writable]
  rfl

/-- The type of an expression is that of an object. -/
def ObjectTyped (s : State) (e : Expr) : Prop :=
  ∃ t shape, s.nodeTypes[e.mark.id]? = some t ∧ (s.typeInfo t).flags = TypeFlags.object ∧
    (s.typeInfo t).form = .anonymous shape

section Accesses

variable {c : Context} {p q : Progress} {source access : Expr} {target key code : Target.Expr}

/-- A constant stands in place of the access for which it is noted. -/
theorem constantLowered (made : Access c q source target access key code) {n : Number}
    (noted : p.typing.constants[access.mark.id]? = some n) (writable : n.isWritable = true) :
    lowerExpr access c p = .ok (.number n, p) := by
  cases made with
  | member | element =>
    simp only [lowerExpr, Expr.mark] at noted ⊢
    rw [bindRun, getRun]
    simp only [noted, literalRun writable]

theorem accessForm (made : Access c p source target access key code) (object : ObjectTyped p.typing source) :
    AccessCode target key code := by
  cases made with
  | @member mark name code q made =>
    obtain ⟨t, shape, typed, flags, form⟩ := object
    have alone : p.typing.parts t = [t] := Typing.State.singleParts (by simp [Typing.State.Single, form])
    have noText : TypeFlags.object.meets TypeFlags.stringLike = false := by decide
    have noLength : (p.typing.allParts t TypeFlags.stringLike || (p.typing.typeInfo t).form.isArray) = false := by
      simp [State.allParts, alone, flags, noText, form, Typing.Form.isArray]
    rw [memberRun (typeOfKnown typed)] at made
    simp only [noLength, Bool.and_false, Bool.false_eq_true, if_false] at made
    obtain ⟨same, -⟩ := Prod.mk.inj (Except.ok.inj made)
    subst same
    split
    · exact .field name
    · exact .helped .getMember _ (.inl rfl)
  | @element mark index key code q r lowered made =>
    unfold elementExpr at made
    split at made
    case h_1 name =>
      simp only [lowerExpr] at lowered
      cases lowered
      obtain ⟨required, s, -, made⟩ := bindOk made
      split at made
      case isFalse =>
        cases made
        exact .helped .index _ (.inr rfl)
      case isTrue =>
        obtain ⟨t, u, -, made⟩ := bindOk made
        obtain ⟨plain, v, -, made⟩ := bindOk made
        split at made
        · cases made
          exact .field name
        · cases made
          exact .helped .index _ (.inr rfl)
    case h_2 =>
      cases made
      exact .helped .index _ (.inr rfl)

variable {o : Outside} {scopes : List Scope} {w u : World} {vs : List Value} {v k r : Value}

theorem evalPairEnds (run : evalAll o scopes [target, key] w = .ok vs u) :
    ∃ v k s, vs = [v, k] ∧ eval o scopes target w = .ok v s ∧ eval o scopes key s = .ok k u := by
  obtain ⟨v, s, first, rest⟩ := bindEnds run
  obtain ⟨ks, x, rest, last⟩ := bindEnds rest
  obtain ⟨k, y, second, rest⟩ := bindEnds rest
  obtain ⟨_, z, none, rest⟩ := bindEnds rest
  cases none
  cases rest
  cases last
  exact ⟨v, k, s, rfl, first, second⟩

theorem evalPair {s : World} (first : eval o scopes target w = .ok v s) (second : eval o scopes key s = .ok k u) :
    evalAll o scopes [target, key] w = .ok [v, k] u := by
  simp only [evalAll, Target.bindRuns first, Target.bindRuns second, bind_assoc, pure_bind]
  rfl

/-- An access to a field that is there gives it. -/
theorem accessReads (form : AccessCode target key code) {ref : Nat} {name : String}
    (parts : evalAll o scopes [target, key] w = .ok [.object ref, .text name] u)
    (field : (u.store.object ref).get? name = some r) : eval o scopes code w = .ok r u := by
  cases form with
  | field given =>
    obtain ⟨v, k, s, same, first, second⟩ := evalPairEnds parts
    cases same
    cases second
    rw [eval, Target.bindRuns first]
    unfold Target.subscript
    simp only [bind, EStateM.bind, Target.Run.store, get, getThe, MonadStateOf.get, EStateM.get, pure, EStateM.pure,
      field]
    rfl
  | helped h key reads =>
    have found : Value.getMember u.store (.object ref) name = .ok (.value r) := by
      unfold Value.getMember
      simp only [field]
      rfl
    have called : Target.callHelper h [.object ref, .text name] u =
        Target.Run.found (.object ref) (Value.getMember u.store (.object ref) name) u := by
      rcases reads with rfl | rfl <;> rfl
    rw [eval, Target.bindRuns parts, called, found]
    rfl

theorem helperNumber {h : Target.Helper} (reads : h = .getMember ∨ h = .index) {n : Number}
    (run : Target.callHelper h vs w = .ok (.number n) u) : u = w := by
  have found {receiver : Value} {result : Except Fault Value.Found}
      (run : Target.Run.found receiver result w = .ok (.number n) u) : u = w := by
    match result, run with
    | .ok (.value _), run =>
      cases run
      rfl
  obtain ⟨store, s, got, run⟩ := bindEnds run
  cases got
  split at run
  all_goals first
    | exact found run
    | contradiction

/-- An access that gives a number has left the world as its target and its key have. -/
theorem accessEnds (form : AccessCode target key code) {n : Number}
    (run : eval o scopes code w = .ok (.number n) u) : ∃ v k, evalAll o scopes [target, key] w = .ok [v, k] u := by
  cases form with
  | field given =>
    obtain ⟨v, s, first, rest⟩ := bindEnds run
    obtain ⟨store, x, got, read⟩ := bindEnds rest
    cases got
    cases result : Target.subscript s.store v given with
    | error f =>
      rw [result] at read
      cases read
    | ok field =>
      rw [result] at read
      cases read
      exact ⟨v, .text given, evalPair first rfl⟩
  | helped h key reads =>
    obtain ⟨vs, s, parts, called⟩ := bindEnds run
    obtain rfl := helperNumber reads called
    obtain ⟨v, k, s, rfl, -, -⟩ := evalPairEnds parts
    exact ⟨v, k, parts⟩

end Accesses

/-- Whether the target and the index of an access only read. -/
def readingAccess : Expr → Bool
  | .member _ source _ => reading source
  | .element _ source index => reading source && reading index
  | _ => false

theorem partsRead {c : Context} {p q : Progress} {source access : Expr} {target key code : Target.Expr}
    (lowered : lowerExpr source c p = .ok (target, q)) (made : Access c q source target access key code)
    (plain : readingAccess access = true) : Target.allOnlyRead [target, key] = true := by
  cases made with
  | member made =>
    have first := readingReads source plain _ _ _ _ lowered
    simp [Target.allOnlyRead, first, Target.Expr.onlyReads]
  | @element mark index key code q r second made =>
    obtain ⟨plain, other⟩ := Bool.and_eq_true_iff.mp plain
    have first := readingReads source plain _ _ _ _ lowered
    have second := readingReads index other _ _ _ _ second
    simp [Target.allOnlyRead, first, second]

def enumTyping : State :=
  { State.initial with
    types := Typing.initialTypes ++ #[
      { flags := TypeFlags.enum, form := .enum [2], symbol := some 1 },
      { flags := TypeFlags.object, form := .anonymous { isEnumObject := true }, symbol := some 1 }]
    symbols := State.initial.symbols ++ #[
      { flags := Typing.SymbolFlags.enum, name := "E", declaredType := some 12, type := some 13 },
      { flags := Typing.SymbolFlags.enumMember, name := "A", enumValue := some (.int 1) },
      { flags := Typing.SymbolFlags.function, name := "f" }]
    symbolOf := ({} : Std.HashMap Nat SymbolId).insert 1 1
    resolvedSymbols := ((({} : Std.HashMap Nat SymbolId).insert 2 1).insert 3 2).insert 4 3
    nodeTypes := (({} : Std.HashMap Nat TypeId).insert 2 13).insert 5 13
    constants := ({} : Std.HashMap Nat Number).insert 3 (.int 1) }

def enumContext : Context := { kind := .script, librarySymbols := [], moduleSymbols := [] }

def enumStart : Progress := { typing := enumTyping, names := { used := ["E", "f"], symbols := [(1, "E"), (3, "f")] } }

set_option maxRecDepth 8192 in
theorem oneWritable : (Number.int 1).isWritable = true := by decide

theorem enumNoted (source : Expr) :
    enumStart.typing.constants[(Expr.member (plainMark 3) source "A").mark.id]? = some (.int 1) := by
  unfold Expr.mark
  simp [enumStart, enumTyping, plainMark]

theorem enumNamed {id : Nat} {x : SymbolId} {name : String} (means : symbolAt enumTyping (plainMark id) = some x)
    (other : x ≠ Typing.undefinedSymbol) (named : nameOf x enumContext enumStart = .ok (name, enumStart)) :
    lowerExpr (.ident (plainMark id) name) enumContext enumStart = .ok (.name name, enumStart) := by
  have asked : ask (Typing.Check.symbolAt? (plainMark id)) enumContext enumStart = .ok (some x, enumStart) := by
    change Except.ok (symbolAt enumTyping (plainMark id), _) = _
    rw [means]
  unfold lowerExpr
  simp only [nameExpr, bindRun, asked, other, if_false, named, pureRun]

theorem enumAccess {source : Expr} (typed : enumTyping.nodeTypes[source.mark.id]? = some 13) (target : Target.Expr) :
    Access enumContext enumStart source target (.member (plainMark 3) source "A") (.text "A") (.subscript target "A") := by
  have means : symbolAt enumTyping (plainMark 3) = some 2 := by
    simp [symbolAt, enumTyping, plainMark, Std.HashMap.getElem_insert]
  refine .member (q := enumStart) ?_
  rw [memberRun (typeOfKnown (p := enumStart) typed)]
  simp only [show enumStart.typing = enumTyping from rfl, means]
  rfl

theorem enumObjectTyped {source : Expr} (typed : enumTyping.nodeTypes[source.mark.id]? = some 13) :
    ObjectTyped enumTyping source := ⟨13, _, typed, rfl, rfl⟩

/-- The world after the line of the enumeration. -/
def enumWorld : World := { store := { objects := #[[("A", .int 1)]] }, globals := [("E", .object 0)] }

theorem enumLineRan : EnumMade [enumTyping.symbol 2] (.object 0) enumWorld := by
  have declared : enumTyping.symbolOf[(plainMark 1).id]? = some 1 := by simp [enumTyping, plainMark]
  have type : (Typing.answers.declaredType 1).run enumTyping = .ok (12, enumTyping) :=
    (Typing.readsDeclared (x := 1) rfl : Typing.Reads enumTyping (1 ≤ Typing.depthLimit) _ 12).known (by decide)
  have known : declaredSymbol? (plainMark 1) enumContext enumStart = .ok (some 1, enumStart) := by
    simp only [declaredSymbol?, bindRun, getRun, pureRun]
    rw [show enumStart.typing = enumTyping from rfl, declared]
  have line : enumLine (plainMark 1) enumContext enumStart =
      .ok ((), { enumStart with made := #[.assign "E" (.dict [("A", .number (.int 1))])] }) := by
    have asked : ask (Typing.answers.declaredType 1) enumContext enumStart = .ok (12, enumStart) := askKnown type
    have form : (enumStart.typing.typeInfo 12).form = .enum [2] := rfl
    have value : (enumStart.typing.symbol 2).enumValue.getD (.int 0) = .int 1 := rfl
    simp only [enumLine, bindRun, known, asked, getRun, form, List.map_cons, List.map_nil, List.mapM_cons, List.mapM_nil,
      value, literalRun oneWritable, pureRun]
    rfl
  have ran : exec (Target.outside 0) 0 [] (.assign "E" (.dict [("A", .number (.int 1))])) {} = .ok .next enumWorld := rfl
  exact .ran declared type rfl rfl line rfl ran rfl

/-- The body of `f`, which sets `n`. -/
def countingBody : List Target.Stmt := [.globals ["n"], .assign "n" (.number (.int 1)), .ret (.name "E")]

end Fragment.Emit
