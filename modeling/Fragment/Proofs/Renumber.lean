import Fragment.Target.Operators
import Fragment.Value.Equality
import Fragment.Value.Library

/-! The numbers of functions do not matter to what values can do.
A renumbering changes the references to functions and nothing else. Every operation on values gives
the renumbered result of what it gives without it; only equality needs that different functions keep
different numbers. -/
namespace Fragment

def Value.renumber (ρ : Nat → Nat) : Value → Value
  | .function ref => .function (ρ ref)
  | v => v

def Fields.renumber (ρ : Nat → Nat) (fields : Fields) : Fields := fields.map fun f => (f.1, f.2.renumber ρ)

def Store.renumber (ρ : Nat → Nat) (s : Store) : Store :=
  ⟨s.arrays.map (·.map (Value.renumber ρ)), s.objects.map (Fields.renumber ρ)⟩

def Produced.renumber (ρ : Nat → Nat) : Produced → Produced
  | .value v => .value (v.renumber ρ)
  | .array items => .array (items.map (Value.renumber ρ))

def Value.Found.renumber (ρ : Nat → Nat) : Value.Found → Value.Found
  | .value v => .value (v.renumber ρ)
  | .member m => .member m

def Value.Write.renumber (ρ : Nat → Nat) : Value.Write → Value.Write
  | .field ref key v => .field ref key (v.renumber ρ)
  | .element ref pos v => .element ref pos (v.renumber ρ)
  | change => change

variable (ρ : Nat → Nat)

section Store

@[simp] theorem Value.renumberUndefined : Value.undefined.renumber ρ = .undefined := rfl
@[simp] theorem Value.renumberBool (b : Bool) : (Value.bool b).renumber ρ = .bool b := rfl
@[simp] theorem Value.renumberNumber (n : Number) : (Value.number n).renumber ρ = .number n := rfl
@[simp] theorem Value.renumberInt (n : Int) : (Value.int n).renumber ρ = .int n := rfl
@[simp] theorem Value.renumberFloat (x : Float) : (Value.float x).renumber ρ = .float x := rfl
@[simp] theorem Value.renumberText (t : String) : (Value.text t).renumber ρ = .text t := rfl
@[simp] theorem Value.renumberArray (ref : Nat) : (Value.array ref).renumber ρ = .array ref := rfl
@[simp] theorem Value.renumberObject (ref : Nat) : (Value.object ref).renumber ρ = .object ref := rfl
@[simp] theorem Value.renumberFunction (ref : Nat) : (Value.function ref).renumber ρ = .function (ρ ref) := rfl
@[simp] theorem Value.renumberPromise (ref : Nat) : (Value.promise ref).renumber ρ = .promise ref := rfl

@[simp] theorem Fields.getRenumber (fields : Fields) (key : String) :
    (fields.renumber ρ).get? key = (fields.get? key).map (Value.renumber ρ) := by
  induction fields with
  | nil => rfl
  | cons f rest ih =>
    obtain ⟨k, v⟩ := f
    simp only [Fields.get?, Fields.renumber, List.map_cons, List.lookup_cons] at ih ⊢
    cases key == k <;> simp [ih]

theorem Fields.setRenumber (fields : Fields) (key : String) (v : Value) :
    (fields.set key v).renumber ρ = (fields.renumber ρ).set key (v.renumber ρ) := by
  induction fields with
  | nil => rfl
  | cons f rest ih =>
    simp only [Fields.set, Fields.renumber, List.map_cons] at ih ⊢
    split
    · rfl
    · rw [List.map_cons, ih]

@[simp] theorem Fields.lengthRenumber (fields : Fields) : (fields.renumber ρ).length = fields.length :=
  List.length_map ..

@[simp] theorem Store.arrayRenumber (s : Store) (ref : Nat) :
    (s.renumber ρ).array ref = (s.array ref).map (Value.renumber ρ) := by
  simp only [Store.array, Store.renumber, Array.getD_eq_getD_getElem?, Array.getElem?_map]
  cases s.arrays[ref]? <;> simp

@[simp] theorem Store.objectRenumber (s : Store) (ref : Nat) :
    (s.renumber ρ).object ref = (s.object ref).renumber ρ := by
  simp only [Store.object, Store.renumber, Array.getD_eq_getD_getElem?, Array.getElem?_map]
  cases s.objects[ref]? <;> simp [Fields.renumber]

@[simp] theorem Store.arraysSize (s : Store) : (s.renumber ρ).arrays.size = s.arrays.size := by
  simp [Store.renumber]

@[simp] theorem Store.objectsSize (s : Store) : (s.renumber ρ).objects.size = s.objects.size := by
  simp [Store.renumber]

end Store

namespace Value

/-! Conversions -/

/-- Only functions change. -/
theorem renumberEqIff {v w : Value} (plain : ∀ ref, w ≠ .function ref) : v.renumber ρ = w ↔ v = w := by
  cases v with
  | function ref => exact iff_of_false (plain _).symm (plain _).symm
  | _ => rfl

@[simp] theorem kindRenumber (v : Value) : (v.renumber ρ).kind = v.kind := by cases v <;> rfl

theorem textWithinRenumber (s : Store) (depth : Nat) (v : Value) :
    textWithin (s.renumber ρ) depth (v.renumber ρ) = textWithin s depth v := by
  induction depth generalizing v with
  | zero => cases v <;> rfl
  | succ depth ih =>
    cases v with
    | array ref =>
      unfold textWithin
      simp only [renumberArray, Store.arrayRenumber, Array.toList_map, List.mapM_map]
      congr 2
      funext item
      cases item <;> simp [← ih]
    | _ => rfl

@[simp] theorem toTextRenumber (s : Store) (v : Value) : toText (s.renumber ρ) (v.renumber ρ) = toText s v := by
  simp [toText, textWithinRenumber]

@[simp] theorem toNumberRenumber (s : Store) (v : Value) :
    toNumber (s.renumber ρ) (v.renumber ρ) = toNumber s v := by
  cases v with
  | array ref =>
    exact congrArg (· >>= numberOfText) (toTextRenumber ρ s (.array ref))
  | _ => rfl

@[simp] theorem toIntegerRenumber (s : Store) (v : Value) (default : Int) :
    toInteger (s.renumber ρ) (v.renumber ρ) default = toInteger s v default := by
  cases v with
  | undefined => rfl
  | _ => simp [toInteger, ← toNumberRenumber ρ s]

@[simp] theorem truthyRenumber (v : Value) : truthy (v.renumber ρ) = truthy v := by cases v <;> rfl

@[simp] theorem toPrimitiveRenumber (s : Store) (v : Value) :
    toPrimitive (s.renumber ρ) (v.renumber ρ) = Value.renumber ρ <$> toPrimitive s v := by
  have same := toTextRenumber ρ s v
  unfold toPrimitive
  cases v <;> simp_all <;> rfl

/-! Operators -/

@[simp] theorem concatRenumber (s : Store) (a b : Value) :
    concat (s.renumber ρ) (a.renumber ρ) (b.renumber ρ) = concat s a b := by
  simp [concat]

@[simp] theorem addRenumber (s : Store) (a b : Value) :
    add (s.renumber ρ) (a.renumber ρ) (b.renumber ρ) = Value.renumber ρ <$> add s a b := by
  simp only [add, toPrimitiveRenumber, bind_map_left, map_bind]
  congr 1; funext x; congr 1; funext y
  have numbers := And.intro (toNumberRenumber ρ s x) (toNumberRenumber ρ s y)
  have texts := And.intro (toTextRenumber ρ s x) (toTextRenumber ρ s y)
  unfold renumber at numbers texts ⊢
  cases x <;> cases y <;> dsimp only at numbers texts ⊢ <;>
    simp only [numbers, texts, map_bind, map_pure]

@[simp] theorem divideRenumber (s : Store) (a b : Value) :
    divide (s.renumber ρ) (a.renumber ρ) (b.renumber ρ) = divide s a b := by
  simp [divide]

@[simp] theorem remainderRenumber (s : Store) (a b : Value) :
    remainder (s.renumber ρ) (a.renumber ρ) (b.renumber ρ) = remainder s a b := by
  simp [remainder]

@[simp] theorem powerRenumber (s : Store) (a b : Value) :
    power (s.renumber ρ) (a.renumber ρ) (b.renumber ρ) = power s a b := by
  simp [power]

/-! Equality -/

section Equality

variable {ρ}

theorem sameReferenceRenumber (inj : Function.Injective ρ) (a b : Value) :
    sameReference (a.renumber ρ) (b.renumber ρ) = sameReference a b := by
  cases a with
  | function i =>
    cases b with
    | function j =>
      exact (Bool.beq_eq_decide_eq ..).trans ((decide_eq_decide.mpr inj.eq_iff).trans (Bool.beq_eq_decide_eq ..).symm)
    | _ => rfl
  | _ => cases b <;> rfl

theorem strictEqualsRenumber (inj : Function.Injective ρ) (a b : Value) :
    strictEquals (a.renumber ρ) (b.renumber ρ) = strictEquals a b := by
  have same := sameReferenceRenumber inj a b
  cases a <;> cases b <;> first | rfl | exact same

theorem looseScalarsRenumber (inj : Function.Injective ρ) (a b : Value) :
    looseScalars (a.renumber ρ) (b.renumber ρ) = looseScalars a b := by
  have same := strictEqualsRenumber inj a b
  cases a <;> cases b <;> first
    | rfl
    | exact congrArg (fun equal => Except.ok (decide (Kind.function = Kind.function) && equal)) same

theorem countTruthRenumber (v : Value) : countTruth (v.renumber ρ) = (countTruth v).renumber ρ := by
  cases v <;> rfl

theorem isCompoundRenumber (v : Value) : (v.renumber ρ).isCompound = v.isCompound := by
  cases v <;> rfl

theorem looseEqualsRenumber (inj : Function.Injective ρ) (s : Store) (a b : Value) :
    looseEquals (s.renumber ρ) (a.renumber ρ) (b.renumber ρ) = looseEquals s a b := by
  have strict := strictEqualsRenumber inj a b
  have scalars := looseScalarsRenumber inj
  by_cases ha : a = .undefined
  · subst ha; cases b <;> rfl
  by_cases hb : b = .undefined
  · subst hb; cases a <;> rfl
  have plain (t : Store) {x y : Value} (hx : x ≠ .undefined) (hy : y ≠ .undefined) :
      looseEquals t x y = if x.kind = y.kind then .ok (strictEquals x y)
        else if (countTruth x).isCompound && !(countTruth y).isCompound then
          do looseScalars (← toPrimitive t (countTruth x)) (countTruth y)
        else if (countTruth y).isCompound && !(countTruth x).isCompound then
          do looseScalars (countTruth x) (← toPrimitive t (countTruth y))
        else looseScalars (countTruth x) (countTruth y) := by
    unfold looseEquals
    split
    · exact absurd rfl hx
    · exact absurd rfl hx
    · exact absurd rfl hy
    · rfl
  have kept {v : Value} : v ≠ .undefined → v.renumber ρ ≠ .undefined := mt (renumberEqIff ρ (by simp)).mp
  rw [plain _ (kept ha) (kept hb), plain s ha hb]
  simp only [kindRenumber, strict, countTruthRenumber, isCompoundRenumber, toPrimitiveRenumber,
    bind_map_left, scalars]

end Equality

/-! Access -/

@[simp] theorem positionRenumber (v : Value) : position? (v.renumber ρ) = position? v := by
  cases v <;> rfl

theorem itemAtMap {α β : Type} (f : α → β) (items : Array α) (pos : Int) :
    itemAt (items.map f) pos = Option.map f <$> itemAt items pos := by
  simp only [itemAt, Array.size_map, Array.getElem?_map]
  split
  · rfl
  · split <;> rfl

@[simp] theorem elementAtRenumber (items : Array Value) (pos : Int) :
    elementAt (items.map (Value.renumber ρ)) pos = Value.renumber ρ <$> elementAt items pos := by
  simp only [elementAt, itemAtMap, bind_map_left, map_bind, map_pure]
  congr 1; funext item
  cases item <;> rfl

theorem charAtRenumber (t : String) (pos : Int) : Value.renumber ρ <$> charAt t pos = charAt t pos := by
  simp only [charAt, map_bind, map_pure]
  congr 1; funext c
  cases c <;> rfl

@[simp] theorem getMemberRenumber (s : Store) (target : Value) (key : String) :
    getMember (s.renumber ρ) (target.renumber ρ) key = Found.renumber ρ <$> getMember s target key := by
  cases target with
  | undefined => rfl
  | bool b =>
    unfold getMember
    simp only [renumberBool]; cases Member.ofBool? key <;> rfl
  | number n =>
    unfold getMember
    simp only [renumberNumber]; cases Member.ofNumber? key <;> rfl
  | text t =>
    unfold getMember
    simp only [renumberText]
    split
    · rfl
    split
    · rfl
    simp only [map_bind]
    congr 1; funext pos
    cases pos with
    | none => rfl
    | some pos =>
      have same := congrArg (Found.value <$> ·) (charAtRenumber ρ t pos)
      unfold Found.renumber
      simp_all
  | array ref =>
    unfold getMember
    simp only [renumberArray, Store.arrayRenumber, Array.size_map]
    split
    · rfl
    simp only [map_bind]
    congr 1; funext pos
    unfold Found.renumber
    cases pos <;> simp
  | object ref =>
    unfold getMember
    simp only [renumberObject, Store.objectRenumber, Fields.getRenumber]
    cases (s.object ref).get? key <;> rfl
  | function ref => rfl
  | promise ref => rfl

@[simp] theorem indexRenumber (s : Store) (target key : Value) :
    index (s.renumber ρ) (target.renumber ρ) (key.renumber ρ) = Found.renumber ρ <$> index s target key := by
  have member := getMemberRenumber ρ s target
  cases target with
  | array ref =>
    unfold index
    simp only [renumberArray, positionRenumber, Store.arrayRenumber, map_bind]
    congr 1; funext pos
    cases pos <;> simp_all [propertyKey, Found.renumber]
  | text t =>
    unfold index
    simp only [renumberText, positionRenumber, map_bind]
    congr 1; funext pos
    cases pos with
    | none => simp_all [propertyKey]
    | some pos =>
      have same := congrArg (Found.value <$> ·) (charAtRenumber ρ t pos)
      unfold Found.renumber
      simp_all
  | _ =>
    unfold index
    simp_all [propertyKey]

theorem resizeWriteRenumber (ref count : Nat) (size : Int) :
    Write.renumber ρ <$> resizeWrite ref count size = resizeWrite ref count size := by
  simp only [resizeWrite, map_bind]
  congr 1; funext _
  split <;> rfl

theorem elementWriteRenumber (ref count : Nat) (pos : Int) (v : Value) :
    elementWrite ref count pos (v.renumber ρ) = Write.renumber ρ <$> elementWrite ref count pos v := by
  simp only [elementWrite, map_bind]
  congr 1; funext _
  split
  · rfl
  · split <;> rfl

@[simp] theorem writeMemberRenumber (s : Store) (target key v : Value) :
    writeMember (s.renumber ρ) (target.renumber ρ) (key.renumber ρ) (v.renumber ρ) =
      Write.renumber ρ <$> writeMember s target key v := by
  cases target with
  | undefined =>
    unfold writeMember
    simp [propertyKey]; rfl
  | array ref =>
    by_cases isLength : key = .text "length"
    · subst isLength
      unfold writeMember
      simp [resizeWriteRenumber]
    have other (t : Store) (k u : Value) (h : k ≠ .text "length") : writeMember t (.array ref) k u =
        position? k >>= fun found => found.elim
          (do throw (.member ("Cannot set property '" ++ (← propertyKey t k) ++ "' of an array")))
          (elementWrite ref (t.array ref).size · u) := by
      unfold writeMember
      dsimp only
      split
      · contradiction
      · refine congrArg (position? k >>= ·) (funext fun found => ?_)
        cases found <;> rfl
    have kept : key.renumber ρ ≠ .text "length" := mt (renumberEqIff ρ (by simp)).mp isLength
    rw [renumberArray, other _ _ _ kept, other s _ _ isLength]
    simp only [positionRenumber, map_bind]
    congr 1; funext pos
    cases pos with
    | none => simp [propertyKey]; rfl
    | some pos => simp [elementWriteRenumber]
  | _ =>
    unfold Write.renumber
    unfold writeMember
    simp [propertyKey]

theorem modifyMap {α β : Type} (f : α → β) {g : α → α} {h : β → β} (same : ∀ a, h (f a) = f (g a))
    (items : Array α) (i : Nat) : (items.map f).modify i h = (items.modify i g).map f := by
  apply Array.ext (by simp)
  intro j _ _
  simp only [Array.getElem_modify, Array.getElem_map]
  split
  · exact same _
  · rfl

theorem setItemRenumber (items : Array Value) (pos : Nat) (v : Value) :
    setItem (items.map (Value.renumber ρ)) pos (v.renumber ρ) = (setItem items pos v).map (Value.renumber ρ) := by
  simp only [setItem, Array.size_map]
  split
  · simp [Array.map_setIfInBounds]
  · simp

theorem resizedRenumber (items : Array Value) (size : Nat) :
    resized (items.map (Value.renumber ρ)) size = (resized items size).map (Value.renumber ρ) := by
  simp [resized]

theorem Write.applyRenumber (s : Store) (change : Write) :
    (change.renumber ρ).apply (s.renumber ρ) = (change.apply s).renumber ρ := by
  cases change with
  | nothing => rfl
  | field ref key v =>
    unfold Write.renumber
    simp only [Write.apply, Store.modifyObject, Store.renumber]
    rw [modifyMap _ fun fields => (Fields.setRenumber ρ fields key v).symm]
  | element ref pos v =>
    unfold Write.renumber
    simp only [Write.apply, Store.modifyArray, Store.renumber]
    rw [modifyMap _ fun items => setItemRenumber ρ items pos v]
  | resize ref size =>
    unfold Write.renumber
    simp only [Write.apply, Store.modifyArray, Store.renumber]
    rw [modifyMap _ fun items => resizedRenumber ρ items size]
  | emptied ref =>
    unfold Write.renumber
    simp only [Write.apply, Store.modifyArray, Store.renumber]
    rw [modifyMap _ fun items => (Array.map_empty : (#[] : Array Value).map (Value.renumber ρ) = #[]).symm]

theorem Write.endingRenumber (change : Write) : (change.renumber ρ).ending = change.ending := by
  cases change <;> rfl

theorem setMemberRenumber (s : Store) (target key v : Value) :
    setMember (s.renumber ρ) (target.renumber ρ) (key.renumber ρ) (v.renumber ρ) =
      ((setMember s target key v).1, (setMember s target key v).2.renumber ρ) := by
  simp only [setMember, writeMemberRenumber]
  cases writeMember s target key v with
  | error => rfl
  | ok change => exact Prod.ext (change.endingRenumber ρ) (change.applyRenumber ρ s)

@[simp] theorem lengthRenumber (s : Store) (v : Value) : length (s.renumber ρ) (v.renumber ρ) = length s v := by
  unfold length
  cases v <;> simp

/-! Functions of the library -/

theorem mapOk {α β : Type} (f : α → β) (a : α) : f <$> (.ok a : Except Fault α) = .ok (f a) := rfl

theorem mapError {α β : Type} (f : α → β) (e : Fault) : f <$> (.error e : Except Fault α) = .error e := rfl


@[simp] theorem getDRenumber (arg : Option Value) :
    (arg.map (Value.renumber ρ)).getD .undefined = (arg.getD .undefined).renumber ρ := by
  cases arg <;> rfl

@[simp] theorem toTextComp (s : Store) : toText (s.renumber ρ) ∘ Value.renumber ρ = toText s :=
  funext (toTextRenumber ρ s)

@[simp] theorem toNumberComp (s : Store) : toNumber (s.renumber ρ) ∘ Value.renumber ρ = toNumber s :=
  funext (toNumberRenumber ρ s)

@[simp] theorem clampArgRenumber (s : Store) (v : Value) (default : Int) (length : Nat) :
    clampArg (s.renumber ρ) (v.renumber ρ) default length = clampArg s v default length := by
  simp [clampArg]

@[simp] theorem padRenumber (s : Store) (cs : List Char) (size filler : Value) (atStart : Bool) :
    pad (s.renumber ρ) cs (size.renumber ρ) (filler.renumber ρ) atStart = pad s cs size filler atStart := by
  have same := toTextRenumber ρ s filler
  unfold pad
  rw [toIntegerRenumber]
  cases filler with
  | undefined => rfl
  | _ =>
    unfold renumber at same ⊢
    dsimp only at same ⊢
    rw [same]

@[simp] theorem splitTextRenumber (s : Store) (cs : List Char) (separator limit : Value) :
    splitText (s.renumber ρ) cs (separator.renumber ρ) (limit.renumber ρ) = splitText s cs separator limit := by
  have same := toTextRenumber ρ s separator
  have count := toIntegerRenumber ρ s limit 0
  unfold renumber at same count ⊢
  cases separator <;> cases limit <;> simp only [splitText] at same count ⊢ <;> simp only [same, count]

@[simp] theorem positionValueRenumber (pos : Option Nat) : (positionValue pos).renumber ρ = positionValue pos := by
  cases pos <;> rfl

theorem callTextMemberRenumber (s : Store) (m : Member) (t : String) (args : List Value) :
    callTextMember (s.renumber ρ) m t (args.map (Value.renumber ρ)) =
      Produced.renumber ρ <$> callTextMember s m t args := by
  cases m with
  | charAt =>
    unfold callTextMember
    simp only [List.getD_eq_getElem?_getD, List.getElem?_map, getDRenumber, toIntegerRenumber, map_bind]
    congr 1; funext pos
    split
    · split <;> rfl
    · rfl
  | charCodeAt =>
    unfold callTextMember
    simp only [List.getD_eq_getElem?_getD, List.getElem?_map, getDRenumber, toIntegerRenumber, map_bind]
    congr 1; funext pos
    split
    · split <;> rfl
    · rfl
  | lastIndexOf =>
    unfold callTextMember
    simp only [List.getD_eq_getElem?_getD, List.getElem?_map, getDRenumber, toTextRenumber, map_bind]
    congr 1; funext piece
    generalize args[1]?.getD undefined = start
    have number := toNumberRenumber ρ s start
    have place := clampArgRenumber ρ s start
    cases start with
    | undefined =>
      unfold Produced.renumber
      simp [mapOk]
    | _ =>
      unfold renumber at number place ⊢
      dsimp only at number place ⊢
      simp only [number, place, map_bind, apply_ite (Produced.renumber ρ <$> ·), mapOk, Produced.renumber,
        positionValueRenumber]
  | split =>
    unfold callTextMember Produced.renumber
    simp only [List.getD_eq_getElem?_getD, List.getElem?_map, getDRenumber, splitTextRenumber, map_bind, map_pure,
      List.map_toArray, List.map_map]
    rfl
  | repeated =>
    unfold callTextMember
    simp only [List.getD_eq_getElem?_getD, List.getElem?_map, getDRenumber, toIntegerRenumber, toTextRenumber, map_bind]
    congr 1; funext times
    unfold Produced.renumber
    split <;> simp [mapOk]
  | _ => simp [callTextMember, mapOk, Produced.renumber]

@[simp] theorem fixedPlacesTextRenumber (s : Store) (n : Number) (digits : Value) :
    fixedPlacesText (s.renumber ρ) n (digits.renumber ρ) = fixedPlacesText s n digits := by
  simp [fixedPlacesText]

@[simp] theorem radixTextRenumber (s : Store) (n : Number) (radix : Value) :
    radixText (s.renumber ρ) n (radix.renumber ρ) = radixText s n radix := by
  simp [radixText]

theorem callMemberRenumber (s : Store) (m : Member) (receiver : Value) (args : List Value) :
    callMember (s.renumber ρ) m (receiver.renumber ρ) (args.map (Value.renumber ρ)) =
      Produced.renumber ρ <$> callMember s m receiver args := by
  have shown := toTextRenumber ρ s receiver
  unfold callMember
  simp only [List.length_map]
  split
  · rfl
  cases m.greatest?
  case' some most =>
    dsimp only
    split
    · rfl
  all_goals
    cases receiver with
    | text t => exact callTextMemberRenumber ρ s m t args
    | number n =>
      unfold Produced.renumber
      cases m <;> first | rfl | simp
    | bool b => cases m <;> first | rfl | simp [Produced.renumber]
    | _ => rfl

@[simp] theorem callUnaryRenumber (s : Store) (f : UnaryFunction) (v : Value) :
    callUnary (s.renumber ρ) f (v.renumber ρ) = callUnary s f v := by
  simp [callUnary]

@[simp] theorem numbersIfAllRenumber (s : Store) (args : List Value) :
    numbersIfAll (s.renumber ρ) (args.map (Value.renumber ρ)) = numbersIfAll s args := by
  simp [numbersIfAll]

@[simp] theorem parseFloatRenumber (s : Store) (v : Value) : parseFloat (s.renumber ρ) (v.renumber ρ) = parseFloat s v := by
  simp only [parseFloat, toTextRenumber]

@[simp] theorem parseIntRenumber (s : Store) (v radix : Value) :
    parseInt (s.renumber ρ) (v.renumber ρ) (radix.renumber ρ) = parseInt s v radix := by
  simp only [parseInt, toTextRenumber, toIntegerRenumber]

/-- Library functions give numbers, truth values and undefined. -/
theorem callScalar (f : LibraryFunction) (s : Store) (args : List Value) :
    (fun r => (r.1.renumber ρ, r.2)) <$> f.call s args = f.call s args := by
  simp only [LibraryFunction.call]
  cases f.greatest?
  case' some most =>
    dsimp only
    split
    · rfl
  all_goals
    cases f with
    | isFinite =>
      simp only [map_bind]
      congr 1; funext n
      congr 1; funext isNaN
      split <;> simp
    | max | min =>
      simp only [map_bind]
      congr 1; funext numbers
      split <;> rfl
    | _ => simp [mapOk]

theorem LibraryFunction.callRenumber (f : LibraryFunction) (s : Store) (args : List Value) :
    f.call (s.renumber ρ) (args.map (Value.renumber ρ)) =
      (fun r => (r.1.renumber ρ, r.2)) <$> f.call s args := by
  rw [callScalar]
  simp only [LibraryFunction.call, List.length_map]
  cases f.greatest?
  case' some most =>
    dsimp only
    split
    · rfl
  all_goals cases f <;> simp [Value.round, Value.sign, Value.hypot, logarithm]

end Value

namespace Target

/-! Operators of generated code -/

@[simp] theorem isTrueRenumber (s : Store) (v : Value) : isTrue (s.renumber ρ) (v.renumber ρ) = isTrue s v := by
  unfold isTrue
  cases v <;> simp [Fields.renumber, Array.isEmpty]

@[simp] theorem asNumberRenumber (v : Value) : asNumber? (v.renumber ρ) = asNumber? v := by
  cases v <;> rfl

@[simp] theorem asCountRenumber (v : Value) : asCount? (v.renumber ρ) = asCount? v := by
  cases v <;> rfl

theorem negateRenumber (v : Value) : negate (v.renumber ρ) = Value.renumber ρ <$> negate v := by
  simp only [negate, asNumberRenumber]
  split <;> rfl

theorem subscriptRenumber (s : Store) (v : Value) (key : String) :
    subscript (s.renumber ρ) (v.renumber ρ) key = Value.renumber ρ <$> subscript s v key := by
  cases v with
  | object ref =>
    unfold subscript
    simp only [Value.renumberObject, Store.objectRenumber, Fields.getRenumber]
    cases (s.object ref).get? key <;> rfl
  | _ => rfl

@[simp] theorem depthLimitRenumber (s : Store) : depthLimit (s.renumber ρ) = depthLimit s := by
  simp [depthLimit]

theorem allEqualRenumber {equal equal' : Value → Value → Except Fault Bool}
    (same : ∀ a b, equal' (a.renumber ρ) (b.renumber ρ) = equal a b) (as bs : List Value) :
    allEqual equal' (as.map (Value.renumber ρ)) (bs.map (Value.renumber ρ)) = allEqual equal as bs := by
  induction as generalizing bs with
  | nil => cases bs <;> rfl
  | cons a as ih =>
    cases bs with
    | nil => rfl
    | cons b bs =>
      unfold allEqual
      simp only [List.map_cons, same, ih]

theorem fieldsEqualRenumber {equal equal' : Value → Value → Except Fault Bool}
    (same : ∀ a b, equal' (a.renumber ρ) (b.renumber ρ) = equal a b) (other fields : Fields) :
    fieldsEqual equal' (other.renumber ρ) (fields.renumber ρ) = fieldsEqual equal other fields := by
  induction fields with
  | nil => rfl
  | cons f rest ih =>
    simp only [Fields.renumber, List.map_cons, fieldsEqual] at ih ⊢
    have found := Fields.getRenumber ρ other f.1
    simp only [Fields.renumber] at found
    rw [found]
    cases other.get? f.1 with
    | none => rfl
    | some w => simp only [Option.map_some, same, ih]

variable {ρ}

theorem equalWithinRenumber (inj : Function.Injective ρ) (s : Store) (depth : Nat) (a b : Value) :
    equalWithin (s.renumber ρ) depth (a.renumber ρ) (b.renumber ρ) = equalWithin s depth a b := by
  induction depth generalizing a b with
  | zero =>
    cases a <;> cases b <;> first | rfl | simp [equalWithin.eq_def, inj.eq_iff, Bool.beq_eq_decide_eq]
  | succ depth ih =>
    have items := allEqualRenumber ρ ih
    have fields := fieldsEqualRenumber ρ ih
    cases a <;> cases b <;> first
      | rfl
      | simp [equalWithin.eq_def, inj.eq_iff, Bool.beq_eq_decide_eq, items, fields]

theorem valuesEqualRenumber (inj : Function.Injective ρ) (s : Store) (a b : Value) :
    valuesEqual (s.renumber ρ) (a.renumber ρ) (b.renumber ρ) = valuesEqual s a b := by
  simp [valuesEqual, equalWithinRenumber inj]

theorem orderItemsRenumber {equal equal' order order' : Value → Value → Except Fault Bool}
    (equals : ∀ a b, equal' (a.renumber ρ) (b.renumber ρ) = equal a b)
    (orders : ∀ a b, order' (a.renumber ρ) (b.renumber ρ) = order a b) (op : OrderOp) (as bs : List Value) :
    orderItems equal' order' op (as.map (Value.renumber ρ)) (bs.map (Value.renumber ρ)) =
      orderItems equal order op as bs := by
  induction as generalizing bs with
  | nil =>
    unfold orderItems
    simp
  | cons a as ih =>
    cases bs with
    | nil =>
      unfold orderItems
      simp
    | cons b bs =>
      unfold orderItems
      simp only [List.map_cons, equals, orders, ih]

theorem orderWithinRenumber (inj : Function.Injective ρ) (s : Store) (op : OrderOp) (depth : Nat) (a b : Value) :
    orderWithin (s.renumber ρ) op depth (a.renumber ρ) (b.renumber ρ) = orderWithin s op depth a b := by
  induction depth generalizing a b with
  | zero =>
    unfold orderWithin asNumber?
    cases a <;> cases b <;> simp
  | succ depth ih =>
    have items := orderItemsRenumber (valuesEqualRenumber inj s) ih op
    unfold orderWithin asNumber?
    cases a <;> cases b <;> simp [items]

theorem orderRenumber (inj : Function.Injective ρ) (s : Store) (op : OrderOp) (a b : Value) :
    order (s.renumber ρ) op (a.renumber ρ) (b.renumber ρ) = order s op a b := by
  simp [order, orderWithinRenumber inj]

theorem repeatListRenumber (items : Array Value) (times : Int) :
    repeatList (items.map (Value.renumber ρ)) times = Array.map (Value.renumber ρ) <$> repeatList items times := by
  have joined (n : Nat) : Nat.repeat (· ++ items.map (Value.renumber ρ)) n #[] =
      (Nat.repeat (· ++ items) n #[]).map (Value.renumber ρ) := by
    induction n with
    | zero => simp [Nat.repeat]
    | succ n ih => simp [Nat.repeat, ih]
  simp only [repeatList, Array.size_map, joined]
  split
  · rfl
  · split <;> rfl

theorem scalarRenumber (r : Except Fault Number) :
    Produced.renumber ρ <$> (r.map .number).map .value = (r.map .number).map .value := by
  cases r <;> rfl

theorem repeatTextRenumber (t : String) (times : Int) :
    Produced.renumber ρ <$> (repeatText t times).map .value = (repeatText t times).map .value := by
  simp only [repeatText]
  cases Value.repeatChars t.toList times <;> rfl

theorem mapArray (r : Except Fault (Array Value)) :
    Produced.renumber ρ <$> r.map .array = (Array.map (Value.renumber ρ) <$> r).map .array := by
  cases r <;> rfl

theorem applyRenumber (inj : Function.Injective ρ) (op : Operator) (s : Store) (a b : Value) :
    op.apply (s.renumber ρ) (a.renumber ρ) (b.renumber ρ) = Produced.renumber ρ <$> op.apply s a b := by
  cases op with
  | less | greater | lessEqual | greaterEqual =>
    simp only [Operator.apply, orderRenumber inj]
    cases order s _ a b <;> rfl
  | equal | notEqual =>
    simp only [Operator.apply, valuesEqualRenumber inj]
    cases valuesEqual s a b <;> rfl
  | sub =>
    simp only [Operator.apply, asNumberRenumber]
    split
    · rw [scalarRenumber]
    · rfl
  | add =>
    cases a <;> cases b <;>
      simp [Operator.apply, asNumber?, Value.mapOk, Value.mapError, Produced.renumber, scalarRenumber]
  | mul =>
    cases a <;> cases b <;>
      simp [Operator.apply, asNumber?, asCount?, Value.mapError, scalarRenumber, repeatTextRenumber,
        repeatListRenumber, mapArray]
    -- Only an integer says how often to repeat.
    all_goals split <;> simp [repeatTextRenumber, mapArray, Value.mapError]

end Target

end Fragment
