import Fragment.Value.Access
import Fragment.Proofs.WholeDoubles
import Mathlib.Data.Nat.Digits.Defs

/-! Stores are read back.
A place of an array has several keys: its number, as an integer or a double, and its decimal spelling. What is written
under one of them is read under all of them, and every other place keeps what it has. Objects have one field for all
keys of one text.

A store that is refused leaves everything as it was, with one exception: a length below all that can be subtracted is
found out only when the elements are gone. -/
namespace Fragment.Value

open Double (Binary floatKind)

/-- A number that is the integer `n`. -/
inductive Counts (n : Nat) : Value → Prop
  | int : Counts n (.int n)
  | float {x : Float} (same : (Number.float x).equals (.int n) = true) : Counts n (.float x)

/-- A key of the place `n`: its number, or its decimal spelling. -/
inductive Places (n : Nat) : Value → Prop
  | number {key : Value} (counts : Counts n key) : Places n key
  | spelled : Places n (.text (toString n))

/-! Keys of places -/

/-- A double that equals an integer has no fraction, and cut off it is that integer. -/
theorem equalsWhole {x : Float} {n : Int} (same : (Number.float x).equals (.int n) = true) :
    ∃ b, floatKind x = .finite b ∧ b.isInteger = true ∧ b.truncate = n := by
  simp only [Number.equals, Number.compare?] at same
  cases kind : floatKind x with
  | nan => simp [kind] at same
  | infinite negative => cases negative <;> simp [kind] at same
  | finite b =>
    refine ⟨b, rfl, ?_⟩
    simp only [kind, Binary.compareInt, beq_iff_eq, Option.some.injEq, Ordering.swap_eq_eq, compare_eq_iff_eq] at same
    simp only [Binary.isInteger, Binary.truncate, decide_eq_true_eq]
    have positive : 0 < Nat.pow 2 (-b.exponent).toNat := Nat.pow_pos (by decide)
    generalize Nat.pow 2 (-b.exponent).toNat = scale at same positive ⊢
    have size : b.mantissa * Nat.pow 2 b.exponent.toNat = n.natAbs * scale := by
      have sizes := congrArg Int.natAbs same
      rw [Int.natAbs_mul, Int.natAbs_natCast] at sizes
      rw [sizes]
      split <;> simp [Int.natAbs_mul]
    rw [size, Nat.mul_div_cancel _ positive]
    refine ⟨Nat.mul_mod_left .., ?_⟩
    rw [← Int.natCast_mul, size] at same
    split at same
    case isTrue negative =>
      have below : n ≤ 0 := nonpos_of_mul_nonpos_left (by omega) (Int.natCast_pos.mpr positive)
      simp only [negative, if_true]
      omega
    case isFalse positiveSign =>
      have above : 0 ≤ n := nonneg_of_mul_nonneg_left (by omega) (Int.natCast_pos.mpr positive)
      simp only [positiveSign, Bool.false_eq_true, if_false]
      omega

/-- The decimal digits of a number are read as that number. -/
theorem digitsRead (n : Nat) : (Nat.toDigits 10 n).foldlM (fun n c => do
    let d ← Double.baseDigit? c
    if d < 10 then some (n * 10 + d) else none) 0 = some n := by
  have single : ∀ d < 10, Double.baseDigit? d.digitChar = some d := by decide
  induction n using Nat.strongRecOn with
  | ind n ih =>
    rw [Nat.toDigits_eq_if (by decide)]
    split
    case isTrue small => simp [single n small, small]
    case isFalse large =>
      have low : n % 10 < 10 := Nat.mod_lt _ (by decide)
      rw [List.foldlM_append, ih (n / 10) (by omega)]
      simp [single _ low, low]
      omega

variable {n : Nat} {key : Value}

theorem spelledPosition (small : n < 2 ^ 53) : positionOfText (toString n) = .ok (some (n : Int)) := by
  have shown : (toString n).toList = Nat.toDigits 10 n := by simp
  have signs : (Nat.toDigits 10 n).all Text.isDigitSign = true := by
    refine List.all_eq_true.mpr fun c member => ?_
    have digit := Nat.isDigit_of_mem_toDigits (by decide) (by decide) member
    have ascii : c.toNat < 0x80 := by
      have upper : c.val ≤ 57 := by
        simp only [Char.isDigit, Bool.and_eq_true, decide_eq_true_eq] at digit
        exact digit.2
      exact Nat.lt_of_le_of_lt (UInt32.le_iff_toNat_le.mp upper) (by decide)
    simp [Text.isDigitSign, Text.isDecimalDigit, Text.digitValue?, ascii, digit]
  have length : (Nat.toDigits 10 n).length ≤ 16 := Nat.toDigits_length _ _ _ (by decide) (by omega)
  simp only [positionOfText, shown, signs, Double.readInteger?, Double.integerDigitLimit]
  rw [if_neg (by simp), if_neg (by simp), if_neg (by simp; omega), digitsRead]

theorem countsPosition (small : n < 2 ^ 53) (counts : Counts n key) : position? key = .ok (some (n : Int)) := by
  cases counts with
  | int =>
    have found := Double.ofIntSafe (n := n) (by simpa [Double.isSafe] using small)
    unfold position?
    simp [Value.int, Number.toFloat, found]
  | float same =>
    obtain ⟨b, finite, integer, whole⟩ := equalsWhole same
    unfold position?
    simp [Value.float, Double.isIntegral, Double.truncate?, finite, integer, whole]

theorem placesPosition (small : n < 2 ^ 53) (places : Places n key) : position? key = .ok (some (n : Int)) := by
  cases places with
  | number counts => exact countsPosition small counts
  | spelled => exact spelledPosition small

theorem countsInteger (s : Store) (small : n < 2 ^ 53) (counts : Counts n key) : toInteger s key 0 = .ok (.finite n) := by
  cases counts with
  | int =>
    have found := Double.ofIntSafe (n := n) (by simpa [Double.isSafe] using small)
    have steps : toInteger s (.int n) 0 = (Number.int n).toFloat >>= fun _ => .ok (.finite n) := rfl
    rw [steps, Number.toFloat, found]
    rfl
  | float same =>
    obtain ⟨b, finite, integer, whole⟩ := equalsWhole same
    change truncated (.float _) = _
    simp [truncated, finite, whole]

/-- Neither a number nor the spelling of one is the name of the length. -/
theorem placesOther (places : Places n key) : key ≠ .text "length" := by
  intro same
  cases places with
  | number counts => cases counts <;> cases same
  | spelled =>
    have shown : Nat.toDigits 10 n = "length".toList := by
      simpa using congrArg String.toList (Value.text.inj same)
    have digit := Nat.isDigit_of_mem_toDigits (b := 10) (n := n) (c := 'l') (by decide) (by decide) (shown ▸ by decide)
    exact absurd digit (by decide)

/-! Elements of arrays -/

/-- The element at a place; where there is none, `undefined`. -/
def readAt (items : Array Value) (place : Nat) : Value := items[place]?.getD .undefined

theorem setItemSize (items : Array Value) (place : Nat) (v : Value) :
    (setItem items place v).size = max items.size (place + 1) := by
  unfold setItem
  split
  · rw [Array.size_setIfInBounds]; omega
  · simp only [Array.size_push, Array.size_append, Array.size_replicate]; omega

theorem setItemRead (items : Array Value) (place other : Nat) (v : Value) :
    readAt (setItem items place v) other = if other = place then v else readAt items other := by
  unfold setItem readAt
  split
  case isTrue inside =>
    rw [Array.getElem?_setIfInBounds]
    grind
  case isFalse outside =>
    rw [Array.getElem?_push, Array.getElem?_append, Array.getElem?_replicate]
    grind

theorem resizedSize (items : Array Value) (size : Nat) : (resized items size).size = size := by
  simp only [resized, Array.size_append, Array.size_extract, Array.size_replicate]
  omega

theorem resizedRead (items : Array Value) (size place : Nat) :
    readAt (resized items size) place = if place < size then readAt items place else .undefined := by
  unfold resized readAt
  rw [Array.getElem?_append, Array.getElem?_extract, Array.getElem?_replicate, Array.size_extract]
  grind

/-! One array or object of the store -/

variable (s : Store) {ref : Nat}

theorem modifiedArray (f : Array Value → Array Value) (there : ref < s.arrays.size) (other : Nat) :
    (s.modifyArray ref f).array other = if other = ref then f (s.array ref) else s.array other := by
  simp only [Store.modifyArray, Store.array, Array.getD_eq_getD_getElem?, Array.getElem?_modify]
  grind

theorem modifiedObject (f : Fields → Fields) (there : ref < s.objects.size) (other : Nat) :
    (s.modifyObject ref f).object other = if other = ref then f (s.object ref) else s.object other := by
  simp only [Store.modifyObject, Store.object, Array.getD_eq_getD_getElem?, Array.getElem?_modify]
  grind

/-- Texts do not look into objects. -/
theorem textModified (f : Fields → Fields) (v : Value) : toText (s.modifyObject ref f) v = toText s v := by
  have within (depth : Nat) (v : Value) : textWithin (s.modifyObject ref f) depth v = textWithin s depth v := by
    induction depth generalizing v with
    | zero => cases v <;> rfl
    | succ depth ih =>
      cases v with
      | array other =>
        unfold textWithin
        simp only [ih]; rfl
      | _ => rfl
  exact within _ v

theorem setRead (fields : Fields) (name other : String) (v : Value) :
    (fields.set name v).get? other = if other = name then some v else fields.get? other := by
  induction fields with
  | nil => simp only [Fields.set, Fields.get?, List.lookup_cons, List.lookup_nil]; grind
  | cons first rest ih =>
    obtain ⟨key, old⟩ := first
    simp only [Fields.get?, Fields.set] at ih ⊢
    split <;> simp only [List.lookup_cons, ih] <;> grind

theorem setNames (fields : Fields) (name : String) (v : Value) :
    (fields.set name v).map Prod.fst = fields.map Prod.fst ++ if name ∈ fields.map Prod.fst then [] else [name] := by
  induction fields with
  | nil => simp [Fields.set]
  | cons first rest ih =>
    obtain ⟨key, old⟩ := first
    simp only [Fields.set]
    split
    case isTrue same => simp_all
    case isFalse other =>
      simp only [List.map_cons, ih, List.mem_cons]
      grind

/-! Stores in arrays -/

variable {v : Value}

theorem indexAt (small : n < 2 ^ 53) (places : Places n key) :
    index s (.array ref) key = .ok (.value (readAt (s.array ref) n)) := by
  unfold index
  simp [placesPosition small places, elementAt, itemAt, readAt, bind, Except.bind, pure, Except.pure]

theorem roomChecked (missing : Nat) (small : missing ≤ 2 ^ 53) :
    checkRoom missing = if memoryLimit < missing then .error .memory else .ok () := by
  have inRange : ¬ sizeLimit < missing := by
    have : sizeLimit = 2 ^ 63 - 1 := rfl
    omega
  rw [checkRoom, if_neg inRange]

theorem elementWriteAt (small : n < 2 ^ 53) (count : Nat) :
    elementWrite ref count n v = if memoryLimit < n + 1 - count then .error .memory else .ok (.element ref n v) := by
  have missing : ((n : Int) + 1 - count).toNat = n + 1 - count := by omega
  rw [elementWrite, missing, roomChecked _ (by omega)]
  split <;> simp [bind, Except.bind, pure, Except.pure]

theorem resizeWriteAt (small : n < 2 ^ 53) (count : Nat) :
    resizeWrite ref count n = if memoryLimit < n - count then .error .memory else .ok (.resize ref n) := by
  have missing : ((n : Int) - count).toNat = n - count := by omega
  rw [resizeWrite, missing, roomChecked _ (by omega)]
  split <;> simp [bind, Except.bind, pure, Except.pure]

theorem setMemberAt (small : n < 2 ^ 53) (places : Places n key) :
    setMember s (.array ref) key v =
      if memoryLimit < n + 1 - (s.array ref).size then (.error .memory, s)
      else (.ok (), s.modifyArray ref (setItem · n v)) := by
  have other := placesOther places
  have written : writeMember s (.array ref) key v = elementWrite ref (s.array ref).size n v := by
    unfold writeMember
    dsimp only
    split
    · contradiction
    · rw [placesPosition small places]
      rfl
  rw [setMember, written, elementWriteAt small]
  by_cases full : memoryLimit < n + 1 - (s.array ref).size
  · simp only [full, if_true]
  · simp only [full, if_false]
    rfl

theorem setLengthAt (small : n < 2 ^ 53) (counts : toInteger s v 0 = .ok (.finite n)) :
    setMember s (.array ref) (.text "length") v =
      if memoryLimit < n - (s.array ref).size then (.error .memory, s)
      else (.ok (), s.modifyArray ref (resized · n)) := by
  have written : writeMember s (.array ref) (.text "length") v = resizeWrite ref (s.array ref).size n := by
    unfold writeMember
    simp [counts, Whole.toInt, bind, Except.bind]
  rw [setMember, written, resizeWriteAt small]
  by_cases full : memoryLimit < n - (s.array ref).size
  · simp only [full, if_true]
  · simp only [full, if_false]
    rfl

/-! The laws -/

/-- What a store of `v` at the place `n` of an array gives. -/
structure ElementStored (s : Store) (ref n : Nat) (v : Value) (t : Store) : Prop where
  read : ∀ key, Places n key → index t (.array ref) key = .ok (.value v)
  length : length t (.array ref) = .ok (max (s.array ref).size (n + 1))
  others : ∀ m < 2 ^ 53, m ≠ n → ∀ key, Places m key → index t (.array ref) key = index s (.array ref) key
  beyond : ∀ m < 2 ^ 53, m ≠ n → (s.array ref).size ≤ m → ∀ key, Places m key →
    index t (.array ref) key = .ok (.value .undefined)
  arrays : ∀ other ≠ ref, t.array other = s.array other
  objects : t.objects = s.objects

/-- What a new length `n` of an array gives. -/
structure LengthStored (s : Store) (ref n : Nat) (t : Store) : Prop where
  length : length t (.array ref) = .ok n
  surviving : ∀ m < n, ∀ key, Places m key → index t (.array ref) key = index s (.array ref) key
  beyond : ∀ m < 2 ^ 53, (s.array ref).size ≤ m ∨ n ≤ m → ∀ key, Places m key →
    index t (.array ref) key = .ok (.value .undefined)
  arrays : ∀ other ≠ ref, t.array other = s.array other
  objects : t.objects = s.objects

/-- The names of an object's fields, in order. -/
def fieldNames (s : Store) (ref : Nat) : List String := (s.object ref).map Prod.fst

/-- What a store of `v` under the name `name` of an object gives. -/
structure FieldStored (s : Store) (ref : Nat) (name : String) (v : Value) (t : Store) : Prop where
  read : ∀ key, toText s key = .ok name → index t (.object ref) key = .ok (.value v)
  others : ∀ key, toText s key ≠ .ok name → index t (.object ref) key = index s (.object ref) key
  names : fieldNames t ref = fieldNames s ref ++ if name ∈ fieldNames s ref then [] else [name]
  objects : ∀ other ≠ ref, t.object other = s.object other
  arrays : t.arrays = s.arrays

theorem elementStored (there : ref < s.arrays.size) (small : n < 2 ^ 53) (v : Value) :
    ElementStored s ref n v (s.modifyArray ref (setItem · n v)) where
  read key places := by
    rw [indexAt _ small places, modifiedArray s _ there, if_pos rfl, setItemRead, if_pos rfl]
  length := by rw [Value.length, modifiedArray s _ there, if_pos rfl, setItemSize]
  others m bound other key places := by
    rw [indexAt _ bound places, indexAt s bound places, modifiedArray s _ there, if_pos rfl, setItemRead, if_neg other]
  beyond m bound other past key places := by
    rw [indexAt _ bound places, modifiedArray s _ there, if_pos rfl, setItemRead, if_neg other, readAt,
      Array.getElem?_eq_none past, Option.getD_none]
  arrays other apart := by rw [modifiedArray s _ there, if_neg apart]
  objects := rfl

theorem lengthStored (there : ref < s.arrays.size) (small : n < 2 ^ 53) :
    LengthStored s ref n (s.modifyArray ref (resized · n)) where
  length := by rw [Value.length, modifiedArray s _ there, if_pos rfl, resizedSize]
  surviving m inside key places := by
    have bound : m < 2 ^ 53 := by omega
    rw [indexAt _ bound places, indexAt s bound places, modifiedArray s _ there, if_pos rfl, resizedRead, if_pos inside]
  beyond m bound past key places := by
    rw [indexAt _ bound places, modifiedArray s _ there, if_pos rfl, resizedRead]
    split
    case isTrue inside =>
      rw [readAt, Array.getElem?_eq_none (by omega), Option.getD_none]
    case isFalse => rfl
  arrays other apart := by rw [modifiedArray s _ there, if_neg apart]
  objects := rfl

theorem indexField (key : Value) :
    index s (.object ref) key = (toText s key).map fun name => .value (((s.object ref).get? name).getD .undefined) := by
  unfold index
  simp only [propertyKey]
  cases toText s key <;> rfl

theorem fieldStored (there : ref < s.objects.size) (name : String) (v : Value) :
    FieldStored s ref name v (s.modifyObject ref (·.set name v)) where
  read key named := by
    rw [indexField, textModified, named, modifiedObject s _ there, if_pos rfl]
    simp only [Except.map, setRead, if_true, Option.getD_some]
  others key apart := by
    rw [indexField, indexField, textModified, modifiedObject s _ there, if_pos rfl]
    cases text : toText s key with
    | error => rfl
    | ok other =>
      have different : other ≠ name := fun same => apart (same ▸ text)
      simp only [Except.map, setRead, different, if_false]
  names := by
    rw [fieldNames, modifiedObject s _ there, if_pos rfl]
    exact setNames ..
  objects other apart := by rw [modifiedObject s _ there, if_neg apart]
  arrays := rfl

/-! Stores that are refused -/

/-- The length is found out of range only when the elements are gone. -/
structure Emptied (s : Store) (target key v : Value) (f : Fault) (t : Store) : Prop where
  key : key = .text "length"
  size : ∃ n, toInteger s v 0 = .ok (.finite n) ∧ n < -2 ^ 63
  fault : f = .overflow
  gone : ∃ ref, target = .array ref ∧ t = s.modifyArray ref fun _ => #[]

theorem resizeEmpties {count : Nat} {size : Int} (written : resizeWrite ref count size = .ok (.emptied n)) :
    ref = n ∧ size < -2 ^ 63 := by
  have limit : sizeLimit = 2 ^ 63 - 1 := rfl
  simp only [resizeWrite, bind, Except.bind] at written
  split at written
  · cases written
  split at written
  · cases written
    exact ⟨rfl, by omega⟩
  · cases written

theorem elementKeeps {count : Nat} {place : Int} (written : elementWrite ref count place v = .ok (.emptied n)) : False := by
  simp only [elementWrite, bind, Except.bind] at written
  repeat' split at written
  all_goals cases written

theorem writeEmpties {target : Value} (written : writeMember s target key v = .ok (.emptied ref)) :
    target = .array ref ∧ key = .text "length" ∧ ∃ n, toInteger s v 0 = .ok (.finite n) ∧ n < -2 ^ 63 := by
  cases target with
  | array at' =>
    unfold writeMember at written
    simp only [bind, Except.bind] at written
    split at written
    case h_1 =>
      cases counts : toInteger s v 0 with
      | error => simp [counts] at written
      | ok whole =>
        cases whole with
        | infinite => simp [counts, Whole.toInt] at written
        | finite size =>
          simp only [counts, Whole.toInt] at written
          obtain ⟨rfl, low⟩ := resizeEmpties written
          exact ⟨rfl, rfl, size, rfl, low⟩
    case h_2 =>
      split at written
      · cases written
      split at written
      · exact (elementKeeps written).elim
      · repeat' split at written
        all_goals cases written
  | _ =>
    unfold writeMember at written
    simp only [bind, Except.bind] at written
    repeat' split at written
    all_goals cases written

theorem refusedStore {target key v : Value} {f : Fault} {t : Store} (failed : setMember s target key v = (.error f, t)) :
    t = s ∨ Emptied s target key v f t := by
  simp only [setMember] at failed
  split at failed
  case h_2 => exact .inl (Prod.ext_iff.mp failed).2.symm
  case h_1 change written =>
    obtain ⟨ended, rfl⟩ := Prod.ext_iff.mp failed
    cases change with
    | emptied ref =>
      obtain ⟨array, length, size⟩ := writeEmpties s written
      exact .inr ⟨length, size, by cases ended; rfl, ref, array, rfl⟩
    | _ => cases ended

theorem lengthEmpties {size : Int} (counts : toInteger s v 0 = .ok (.finite size)) (low : size < -2 ^ 63) :
    setMember s (.array ref) (.text "length") v = (.error .overflow, s.modifyArray ref fun _ => #[]) := by
  have limit : sizeLimit = 2 ^ 63 - 1 := rfl
  have below : sizeLimit + 1 < (-size).toNat := by omega
  have missing : (size - (s.array ref).size).toNat = 0 := by omega
  have written : writeMember s (.array ref) (.text "length") v = .ok (.emptied ref) := by
    unfold writeMember
    simp [counts, Whole.toInt, resizeWrite, missing, roomChecked, below, bind, Except.bind, pure, Except.pure]
  rw [setMember, written]
  rfl

/-- What is stored is read back, everything else stays, and what is refused changes nothing, up to a length that is
found out too late. -/
structure StoreLaws (s : Store) : Prop where
  element : ∀ (ref n : Nat) key v, ref < s.arrays.size → n < 2 ^ 53 → Places n key →
    if memoryLimit < n + 1 - (s.array ref).size then setMember s (.array ref) key v = (.error .memory, s)
    else ∃ t, setMember s (.array ref) key v = (.ok (), t) ∧ ElementStored s ref n v t
  integer : ∀ (n : Nat) v, n < 2 ^ 53 → Counts n v → toInteger s v 0 = .ok (.finite n)
  length : ∀ (ref n : Nat) v, ref < s.arrays.size → n < 2 ^ 53 → toInteger s v 0 = .ok (.finite n) →
    if memoryLimit < n - (s.array ref).size then setMember s (.array ref) (.text "length") v = (.error .memory, s)
    else ∃ t, setMember s (.array ref) (.text "length") v = (.ok (), t) ∧ LengthStored s ref n t
  field : ∀ ref key name v, ref < s.objects.size → toText s key = .ok name →
    ∃ t, setMember s (.object ref) key v = (.ok (), t) ∧ FieldStored s ref name v t
  refused : ∀ target key v f t, setMember s target key v = (.error f, t) → t = s ∨ Emptied s target key v f t
  emptied : ∀ ref v size, toInteger s v 0 = .ok (.finite size) → size < -2 ^ 63 →
    setMember s (.array ref) (.text "length") v = (.error .overflow, s.modifyArray ref fun _ => #[])

theorem storesReadBack (s : Store) : StoreLaws s where
  element ref n key v there small places := by
    rw [setMemberAt s small places]
    split
    · rfl
    · exact ⟨_, rfl, elementStored s there small v⟩
  integer n v small counts := countsInteger s small counts
  length ref n v there small counts := by
    rw [setLengthAt s small counts]
    split
    · rfl
    · exact ⟨_, rfl, lengthStored s there small⟩
  field ref key name v there named := by
    refine ⟨_, ?_, fieldStored s there name v⟩
    simp only [setMember, writeMember, propertyKey, named]
    rfl
  refused target key v f t failed := refusedStore s failed
  emptied ref v size counts low := lengthEmpties s counts low

/-- The array `[1, 2]` is empty after its length is refused. -/
theorem refusalEmpties : ∃ s target key v f t, setMember s target key v = (.error f, t) ∧ t ≠ s := by
  let s : Store := { arrays := #[#[.int 1, .int 2]] }
  have counts : toInteger s (.int (-10 ^ 30)) 0 = .ok (.finite (-10 ^ 30)) := rfl
  refine ⟨s, .array 0, .text "length", .int (-10 ^ 30), .overflow, _, lengthEmpties s counts (by decide), ?_⟩
  intro same
  exact absurd (congrArg (fun s : Store => (s.array 0).size) same) (by decide)

end Fragment.Value
