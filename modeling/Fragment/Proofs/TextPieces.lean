import Fragment.Proofs.StoreLaws
import Fragment.Proofs.TextSearch

/-! Texts in pieces.
A text is cut at the occurrences of a piece, each the first one in what is left. Put together again, the parts are the
text; with something else in between, they are the text with all occurrences replaced. Two slices at one position are
the text, too. -/
namespace Fragment.Text

/-- `cs` cut at the occurrences of `piece`, each the first one in what is left. -/
inductive Cuts (piece : List Char) : List Char → List (List Char) → Prop
  | last {cs : List Char} (none : ∀ i, ¬ StandsAt piece cs i) : Cuts piece cs [cs]
  | cut {front back : List Char} {parts : List (List Char)}
      (first : IsLeast {i | StandsAt piece (front ++ piece ++ back) i} front.length) (rest : Cuts piece back parts) :
      Cuts piece (front ++ piece ++ back) (front :: parts)

section Cutting

variable {piece text cs front back part : List Char} {parts : List (List Char)}

theorem Cuts.some (cuts : Cuts piece cs parts) : parts ≠ [] := by cases cuts <;> exact List.cons_ne_nil _ _

theorem Cuts.joined (cuts : Cuts piece cs parts) : piece.intercalate parts = cs := by
  induction cuts with
  | last => exact List.intercalate_singleton
  | cut first rest ih => rw [List.intercalate_cons_of_ne_nil rest.some, ih]

theorem Cuts.apart (cuts : Cuts piece cs parts) (filled : piece ≠ []) (member : part ∈ parts) (i : Nat) :
    ¬ StandsAt piece part i := by
  induction cuts with
  | last none =>
    rw [List.mem_singleton.mp member]
    exact none i
  | @cut front back parts first rest ih =>
    obtain rfl | later := List.mem_cons.mp member
    · intro stands
      have within := standsWithin stands
      have size := List.length_pos_iff.mpr filled
      obtain ⟨start, stop, same, place⟩ := stands
      have earlier := first.2 (⟨start, stop ++ (piece ++ back), by rw [same]; simp [List.append_assoc], place⟩ :
        StandsAt piece (part ++ piece ++ back) i)
      omega
    · exact ih later

/-! Cutting -/

theorem skipSplit (piece part : List Char) (n : Nat) (cs : List Char) :
    splitFrom piece part n cs = splitFrom piece part 0 (cs.drop n) := by
  induction cs generalizing n with
  | nil => cases n <;> rfl
  | cons c cs ih => cases n with
    | zero => rfl
    | succ n => exact ih n

theorem skipReplace (piece text : List Char) (n : Nat) (cs : List Char) :
    replaceFrom piece text n cs = replaceFrom piece text 0 (cs.drop n) := by
  induction cs generalizing n with
  | nil => cases n <;> rfl
  | cons c cs ih => cases n with
    | zero => rfl
    | succ n => exact ih n

/-- What is dropped behind the first character of a piece that stands there is the rest of the piece. -/
theorem pieceDropped {c : Char} (filled : piece ≠ []) (same : piece ++ back = c :: cs) : cs.drop (piece.length - 1) = back := by
  have size := List.length_pos_iff.mpr filled
  have behind : (c :: cs).drop piece.length = back := by rw [← same, List.drop_left]
  rwa [← Nat.sub_add_cancel size, List.drop_succ_cons] at behind

/-- `part` has been passed, backwards, without an occurrence that starts in it. -/
theorem splitCuts (filled : piece ≠ []) (part cs : List Char)
    (clear : ∀ i < part.length, ¬ StandsAt piece (part.reverse ++ cs) i) :
    Cuts piece (part.reverse ++ cs) (splitFrom piece part 0 cs) := by
  have size := List.length_pos_iff.mpr filled
  induction length : cs.length using Nat.strong_induction_on generalizing part cs with
  | _ n ih =>
    subst length
    cases cs with
    | nil =>
      rw [List.append_nil] at clear ⊢
      refine .last fun i stands => clear i ?_ stands
      have within := standsWithin stands
      rw [List.length_reverse] at within
      omega
    | cons c cs =>
      simp only [splitFrom]
      split
      case isTrue first =>
        obtain ⟨back, same⟩ := List.isPrefixOf_iff_prefix.mp first
        have whole : part.reverse ++ c :: cs = part.reverse ++ piece ++ back := by rw [← same, List.append_assoc]
        have shorter := congrArg List.length same
        rw [List.length_append, List.length_cons] at shorter
        rw [skipSplit, pieceDropped filled same]
        rw [whole] at clear ⊢
        refine .cut ⟨⟨part.reverse, back, rfl, rfl⟩, fun i stands => ?_⟩ (ih _ (by rw [List.length_cons]; omega) [] back nofun rfl)
        rw [List.length_reverse]
        exact not_lt.mp fun earlier => clear i earlier stands
      case isFalse other =>
        have whole : part.reverse ++ c :: cs = (c :: part).reverse ++ cs := by simp
        rw [whole] at clear ⊢
        refine ih _ (Nat.lt_succ_self _) (c :: part) cs (fun i passed stands => ?_) rfl
        obtain before | here := Nat.lt_succ_iff_lt_or_eq.mp passed
        · exact clear i before stands
        · refine other (List.isPrefixOf_iff_prefix.mpr ?_)
          rw [here, ← whole] at stands
          have starts := (standsPrefix.mp stands).2
          rwa [← List.length_reverse, List.drop_left] at starts

theorem splitOnCuts (filled : piece ≠ []) (cs : List Char) : Cuts piece cs (splitOn piece cs) :=
  splitCuts filled [] cs nofun

/-! Replacing -/

theorem replaceNone (none : ∀ i, ¬ StandsAt piece cs i) : replaceFrom piece text 0 cs = cs := by
  induction cs with
  | nil => rfl
  | cons c cs ih =>
    unfold replaceFrom
    rw [if_neg fun first => none 0 (standsFirst.mpr (List.isPrefixOf_iff_prefix.mp first)),
      ih fun i stands => none (i + 1) (standsNext.mpr stands)]

theorem replaceCut (filled : piece ≠ []) (first : IsLeast {i | StandsAt piece (front ++ piece ++ back) i} front.length) :
    replaceFrom piece text 0 (front ++ piece ++ back) = front ++ text ++ replaceFrom piece text 0 back := by
  induction front with
  | nil =>
    obtain ⟨c, cs, same⟩ := List.exists_cons_of_ne_nil filled
    have starts : piece.isPrefixOf (c :: (cs ++ back)) = true :=
      List.isPrefixOf_iff_prefix.mpr ⟨back, by rw [same, List.cons_append]⟩
    have whole : [] ++ piece ++ back = c :: (cs ++ back) := by rw [List.nil_append, same, List.cons_append]
    rw [whole, replaceFrom, if_pos starts, skipReplace, pieceDropped filled (by rw [← whole, List.nil_append]), List.nil_append]
  | cons c front ih =>
    have later : ¬ piece.isPrefixOf (c :: (front ++ piece ++ back)) = true := fun starts =>
      absurd (first.2 (standsFirst.mpr (List.isPrefixOf_iff_prefix.mp starts))) (Nat.not_succ_le_zero _)
    have next : IsLeast {i | StandsAt piece (front ++ piece ++ back) i} front.length :=
      ⟨⟨front, back, rfl, rfl⟩, fun i stands => Nat.le_of_succ_le_succ (first.2 (standsNext.mpr stands))⟩
    rw [List.cons_append, List.cons_append, replaceFrom, if_neg later, ih next]
    rfl

theorem Cuts.replaced (cuts : Cuts piece cs parts) (filled : piece ≠ []) : replaceAll piece text cs = text.intercalate parts := by
  have scan : replaceFrom piece text 0 cs = text.intercalate parts := by
    induction cuts with
    | last none => rw [replaceNone none, List.intercalate_singleton]
    | cut first rest ih => rw [replaceCut filled first, ih, List.intercalate_cons_of_ne_nil rest.some]
  rw [replaceAll, if_neg (by simpa using filled), scan]

/-- One replacement is made at the place that the search finds. -/
theorem firstReplaced (piece text cs : List Char) : replaceFirst piece text cs = match find? piece cs 0 with
    | some i => cs.take i ++ text ++ cs.drop (i + piece.length)
    | none => cs := by
  have shift (pos : Nat) (cs : List Char) : findFrom? piece (pos + 1) cs = (findFrom? piece pos cs).map (· + 1) := by
    induction cs generalizing pos with
    | nil =>
      unfold findFrom?
      split <;> rfl
    | cons c cs ih =>
      unfold findFrom?
      split
      · rfl
      · exact ih (pos + 1)
  rw [find?, List.drop_zero]
  induction cs with
  | nil => cases piece <;> simp [replaceFirst, findFrom?]
  | cons c cs ih =>
    unfold replaceFirst findFrom?
    split
    case isTrue => simp
    case isFalse =>
      rw [ih, shift]
      cases findFrom? piece 0 cs with
      | none => rfl
      | some i => simp [Nat.add_right_comm i 1]

end Cutting

end Fragment.Text

namespace Fragment.Value

open Text (StandsAt Cuts splitOn)

/-- The parts of the text `t` between the occurrences of `x`. -/
structure Pieces (s : Store) (t x : String) (parts : List String) : Prop where
  split : callMember s .split (.text t) [.text x] = .ok (.array (parts.map Value.text).toArray)
  cuts : Cuts x.toList t.toList (parts.map String.toList)
  joined : x.intercalate parts = t
  apart : ∀ part ∈ parts, ∀ i, ¬ StandsAt x.toList part.toList i
  replaced (r : String) :
    callMember s .replaceAll (.text t) [.text x, .text r] = .ok (.value (.text (r.intercalate parts)))
  limited {n : Nat} (small : n < 2 ^ 53) {limit : Value} (counts : Counts n limit) :
    callMember s .split (.text t) [.text x, limit] = .ok (.array ((parts.take n).map Value.text).toArray)

/-- Laws of the members that cut, replace and slice the text `t`. -/
structure PieceLaws (s : Store) (t x : String) : Prop where
  parts : ∃ parts, Pieces s t x parts
  first (r : String) :
    (∃ front back : String, t = front ++ x ++ back ∧
      callMember s .indexOf (.text t) [.text x] = .ok (.value (.int front.length)) ∧
      callMember s .replace (.text t) [.text x, .text r] = .ok (.value (.text (front ++ r ++ back)))) ∨
    callMember s .indexOf (.text t) [.text x] = .ok (.value (.int (-1))) ∧
      callMember s .replace (.text t) [.text x, .text r] = .ok (.value (.text t))
  sliced {k : Value} {w : Whole} (given : k ≠ .undefined) (counted : toInteger s k 0 = .ok w) : ∃ front back : String,
    callMember s .slice (.text t) [.int 0, k] = .ok (.value (.text front)) ∧
    callMember s .slice (.text t) [k] = .ok (.value (.text back)) ∧ front ++ back = t
  swapped {i j : Value} {v w : Whole} (first : i ≠ .undefined) (second : j ≠ .undefined) (counted : toInteger s i 0 = .ok v)
    (other : toInteger s j 0 = .ok w) : ∃ part : String,
    callMember s .substring (.text t) [i, j] = .ok (.value (.text part)) ∧
    callMember s .substring (.text t) [j, i] = .ok (.value (.text part))

section Members

variable {s : Store} {t x r : String} {i j k limit : Value} {v w : Whole} {n : Nat}

theorem splitWhole (filled : x.toList ≠ []) (s : Store) (cs : List Char) :
    splitText s cs (.text x) .undefined = .ok (splitOn x.toList cs) := by
  have text : toText s (.text x) = .ok x := rfl
  unfold splitText
  simp [text, filled, bind, Except.bind, pure, Except.pure]

/-- A limit that is an integer leaves so many parts. -/
theorem splitTaken (filled : x.toList ≠ []) (given : limit ≠ .undefined) (counted : toInteger s limit 0 = .ok (.finite n))
    (cs : List Char) : splitText s cs (.text x) limit = .ok ((splitOn x.toList cs).take n) := by
  have steps : splitText s cs (.text x) limit = (do
      let parts ← splitText s cs (.text x) .undefined
      let count ← toInteger s limit 0
      if count.isInfinite && count.less 0 then throw .overflow
      return parts.take (count.clamp parts.length)) := by
    cases limit <;> first | exact absurd rfl given | rfl
  rw [steps, splitWhole filled, counted]
  simp [Whole.isInfinite, Whole.clamp, bind, Except.bind, pure, Except.pure, List.take_eq_take_min]

theorem countsGiven (counts : Counts n limit) : limit ≠ .undefined := by cases counts <;> exact nofun

theorem splitCall (filled : x.toList ≠ []) (s : Store) (t : String) : callMember s .split (.text t) [.text x] =
    .ok (.array ((splitOn x.toList t.toList).map fun p => Value.text (String.ofList p)).toArray) := by
  rw [textCall rfl]
  unfold callTextMember
  simp only [List.getD_cons_zero, List.getD_cons_succ, List.getD_nil, splitWhole filled, bind, Except.bind]
  rfl

theorem splitLimited (filled : x.toList ≠ []) (s : Store) (t : String) (small : n < 2 ^ 53) (counts : Counts n limit) :
    callMember s .split (.text t) [.text x, limit] =
      .ok (.array (((splitOn x.toList t.toList).take n).map fun p => Value.text (String.ofList p)).toArray) := by
  rw [textCall rfl]
  unfold callTextMember
  simp only [List.getD_cons_zero, List.getD_cons_succ,
    splitTaken filled (countsGiven counts) (countsInteger s small counts), bind, Except.bind]
  rfl

theorem replaceAllCall (s : Store) (t x r : String) : callMember s .replaceAll (.text t) [.text x, .text r] =
    .ok (.value (.text (String.ofList (Text.replaceAll x.toList r.toList t.toList)))) := rfl

theorem replaceCall (s : Store) (t x r : String) : callMember s .replace (.text t) [.text x, .text r] =
    .ok (.value (.text (String.ofList (Text.replaceFirst x.toList r.toList t.toList)))) := rfl

/-- The parts are what is cut out, and everything else follows from the cuts. -/
theorem pieces (some : x ≠ "") (s : Store) (t : String) : ∃ parts, Pieces s t x parts := by
  have filled : x.toList ≠ [] := fun none => some (String.toList_eq_nil_iff.mp none)
  have cuts := Text.splitOnCuts filled t.toList
  have shown (parts : List (List Char)) : (parts.map String.ofList).map String.toList = parts := by simp
  refine ⟨(splitOn x.toList t.toList).map String.ofList, ?_, by rwa [shown], ?_, ?_, fun r => ?_, fun small _ counts => ?_⟩
  · rw [splitCall filled, List.map_map]
    rfl
  · rw [← String.toList_inj, String.toList_intercalate, shown, cuts.joined]
  · rintro _ member
    obtain ⟨part, inside, rfl⟩ := List.mem_map.mp member
    rw [String.toList_ofList]
    exact cuts.apart filled inside
  · rw [replaceAllCall, cuts.replaced filled]
    congr
    rw [← String.toList_inj, String.toList_intercalate, shown, String.toList_ofList]
  · rw [splitLimited filled s t small counts, ← List.map_take, List.map_map]
    rfl

/-- The occurrence that is replaced is the one that is found. -/
theorem firstReplacement (s : Store) (t x r : String) :
    (∃ front back : String, t = front ++ x ++ back ∧
      callMember s .indexOf (.text t) [.text x] = .ok (.value (.int front.length)) ∧
      callMember s .replace (.text t) [.text x, .text r] = .ok (.value (.text (front ++ r ++ back)))) ∨
    callMember s .indexOf (.text t) [.text x] = .ok (.value (.int (-1))) ∧
      callMember s .replace (.text t) [.text x, .text r] = .ok (.value (.text t)) := by
  have asked : callMember s .indexOf (.text t) [.text x] =
      .ok (.value (positionValue (Text.find? x.toList t.toList 0))) := by
    have start : (Whole.finite 0).clamp t.toList.length = 0 := by simp [Whole.clamp]
    rw [← start]
    exact indexOfCall (p := .undefined) rfl
  have search := Text.foundLeast x.toList (Nat.zero_le t.toList.length)
  have replaced := Text.firstReplaced x.toList r.toList t.toList
  rw [asked, replaceCall, replaced]
  cases found : Text.find? x.toList t.toList 0 with
  | none => exact .inr ⟨rfl, by simp⟩
  | some i =>
    rw [found] at search
    obtain ⟨front, back, same, rfl⟩ := search.1.2
    refine .inl ⟨String.ofList front, String.ofList back, ?_, ?_, ?_⟩
    · rw [← String.toList_inj]
      simpa using same
    · unfold positionValue
      simp
    · simp only [same]
      congr
      rw [← String.toList_inj]
      simp [List.append_assoc]

/-! Slices -/

theorem slicesMeet (given : k ≠ .undefined) (counted : toInteger s k 0 = .ok w) (t : String) : ∃ front back : String,
    callMember s .slice (.text t) [.int 0, k] = .ok (.value (.text front)) ∧
    callMember s .slice (.text t) [k] = .ok (.value (.text back)) ∧ front ++ back = t := by
  have zero : toInteger s (.int 0) 0 = .ok (.finite 0) := rfl
  have start : (Whole.finite 0).relative t.toList.length = 0 := by simp [Whole.relative]
  have stop : toInteger s k t.toList.length = .ok w := by rw [integerGiven given, counted]
  have behind : toInteger s .undefined t.toList.length = .ok (.finite t.toList.length) := rfl
  have last : (Whole.finite t.toList.length).relative t.toList.length = t.toList.length := by simp [Whole.relative]
  refine ⟨String.ofList (t.toList.take (w.relative t.toList.length)), String.ofList (t.toList.drop (w.relative t.toList.length)),
    ?_, ?_, ?_⟩
  · rw [textCall rfl]
    unfold callTextMember
    simp only [List.getD_cons_zero, List.getD_cons_succ, zero, stop, start, bind, Except.bind, Text.slice,
      List.drop_zero]
  · rw [textCall rfl]
    unfold callTextMember
    simp only [List.getD_cons_zero, List.getD_cons_succ, List.getD_nil, counted, behind, last, bind,
      Except.bind, Text.slice, List.take_length]
  · rw [← String.toList_inj]
    simp

theorem substringCall (given : j ≠ .undefined) (counted : toInteger s i 0 = .ok v) (other : toInteger s j 0 = .ok w)
    (t : String) : callMember s .substring (.text t) [i, j] = .ok (.value (.text (String.ofList (Text.slice t.toList
      (min (v.clamp t.toList.length) (w.clamp t.toList.length)) (max (v.clamp t.toList.length) (w.clamp t.toList.length)))))) := by
  have stop : clampArg s j t.toList.length t.toList.length = .ok (w.clamp t.toList.length) := by
    rw [clampArg, integerGiven given, other]
    rfl
  rw [textCall rfl]
  unfold callTextMember
  simp only [List.getD_cons_zero, List.getD_cons_succ, clampCounted counted, stop, bind, Except.bind]

theorem substringSwapped (first : i ≠ .undefined) (second : j ≠ .undefined) (counted : toInteger s i 0 = .ok v)
    (other : toInteger s j 0 = .ok w) (t : String) : ∃ part : String,
    callMember s .substring (.text t) [i, j] = .ok (.value (.text part)) ∧
    callMember s .substring (.text t) [j, i] = .ok (.value (.text part)) :=
  ⟨_, substringCall second counted other t, by rw [substringCall first other counted t, min_comm, max_comm]⟩

end Members

theorem textPieces (s : Store) (t x : String) (some : x ≠ "") : PieceLaws s t x where
  parts := pieces some s t
  first := firstReplacement s t x
  sliced given counted := slicesMeet given counted t
  swapped first second counted other := substringSwapped first second counted other t

/-- A piece that overlaps itself. -/
theorem overlappingPieces : "aa" ≠ "" ∧ PieceLaws {} "aaabaaaa" "aa" := ⟨by decide, textPieces {} "aaabaaaa" "aa" (by decide)⟩

end Fragment.Value
