import Fragment.Value.Member
import Mathlib.Order.Bounds.Basic

/-! Searching texts.
A piece stands at a place of a text. The two searches give the least and the greatest of these places, and the members
that only ask whether a piece is somewhere, at the start or at the end agree with them, for every value that has a
position. -/
namespace Fragment.Text

/-- `piece` stands at the place `i` of `cs`. -/
def StandsAt (piece cs : List Char) (i : Nat) : Prop := ∃ front back, cs = front ++ piece ++ back ∧ front.length = i

/-- What a search over some places comes to: one of them, or nothing where there are none. -/
def Finds (extreme : Set Nat → Nat → Prop) (places : Set Nat) : Option Nat → Prop
  | some i => extreme places i
  | none => places = ∅

section Finds

variable {extreme : Set Nat → Nat → Prop} {places : Set Nat} {found : Option Nat} {i : Nat}

theorem Finds.nothing (finds : Finds extreme places found) (inside : ∀ {i}, extreme places i → i ∈ places) :
    found = none ↔ places = ∅ := by
  cases found with
  | none => exact iff_of_true rfl finds
  | some i => exact iff_of_false nofun fun none => Set.notMem_empty i (none ▸ inside finds)

theorem Finds.place (finds : Finds extreme places found) (inside : ∀ {i}, extreme places i → i ∈ places)
    (unique : ∀ {i j}, extreme places i → extreme places j → i = j) : found = some i ↔ extreme places i := by
  cases found with
  | none => exact iff_of_false nofun fun is => Set.notMem_empty i ((show places = ∅ from finds) ▸ inside is)
  | some j => exact ⟨fun same => Option.some.inj same ▸ finds, fun is => congrArg some (unique finds is)⟩

theorem Finds.least (finds : Finds IsLeast places found) : found = some i ↔ IsLeast places i :=
  finds.place (fun is => is.1) IsLeast.unique

theorem Finds.greatest (finds : Finds IsGreatest places found) : found = some i ↔ IsGreatest places i :=
  finds.place (fun is => is.1) IsGreatest.unique

end Finds

section Places

variable {piece cs : List Char} {c : Char} {i n start : Nat}

theorem standsPrefix : StandsAt piece cs i ↔ i ≤ cs.length ∧ piece <+: cs.drop i := by
  constructor
  · rintro ⟨front, back, rfl, rfl⟩
    simp [List.append_assoc]
  · rintro ⟨inside, back, same⟩
    refine ⟨cs.take i, back, ?_, List.length_take_of_le inside⟩
    rw [List.append_assoc, same, List.take_append_drop]

theorem standsWithin (stands : StandsAt piece cs i) : i + piece.length ≤ cs.length := by
  obtain ⟨front, back, rfl, rfl⟩ := stands
  simp only [List.length_append]
  omega

theorem standsFirst : StandsAt piece cs 0 ↔ piece <+: cs := by simp [standsPrefix]

theorem standsNext : StandsAt piece (c :: cs) (i + 1) ↔ StandsAt piece cs i := by simp [standsPrefix]

theorem standsNowhere : StandsAt piece [] i ↔ piece = [] ∧ i = 0 := by
  simp [standsPrefix, and_comm]

theorem standsDropped (inside : n ≤ cs.length) : StandsAt piece (cs.drop n) i ↔ StandsAt piece cs (n + i) := by
  rw [standsPrefix, standsPrefix, List.drop_drop, List.length_drop]
  exact and_congr_left fun _ => by omega

theorem standsTaken : StandsAt piece (cs.take n) i ↔ i + piece.length ≤ n ∧ StandsAt piece cs i := by
  constructor
  · intro stands
    have within := standsWithin stands
    rw [List.length_take] at within
    refine ⟨by omega, ?_⟩
    obtain ⟨front, back, same, size⟩ := stands
    exact ⟨front, back ++ cs.drop n, by rw [← List.append_assoc, ← same, List.take_append_drop], size⟩
  · rintro ⟨few, front, back, rfl, rfl⟩
    refine ⟨front, back.take (n - (front ++ piece).length), ?_, rfl⟩
    rw [List.take_append, List.take_of_length_le (by simpa using few)]

/-! The searches -/

/-- The least place is the first one, or the least one behind it. -/
theorem foundFrom (pos : Nat) : Finds IsLeast {i | ∃ j, i = pos + j ∧ StandsAt piece cs j} (findFrom? piece pos cs) := by
  induction cs generalizing pos with
  | nil =>
    unfold findFrom?
    cases piece with
    | nil => exact ⟨⟨0, rfl, standsFirst.mpr List.prefix_rfl⟩, by rintro i ⟨j, rfl, -⟩; exact Nat.le_add_right pos j⟩
    | cons => simp [Finds, standsNowhere]
  | cons c cs ih =>
    unfold findFrom?
    split
    case isTrue first =>
      rw [List.isPrefixOf_iff_prefix] at first
      exact ⟨⟨0, rfl, standsFirst.mpr first⟩, by rintro i ⟨j, rfl, -⟩; exact Nat.le_add_right pos j⟩
    case isFalse other =>
      rw [List.isPrefixOf_iff_prefix, ← standsFirst] at other
      have later : {i | ∃ j, i = pos + j ∧ StandsAt piece (c :: cs) j} = {i | ∃ j, i = pos + 1 + j ∧ StandsAt piece cs j} := by
        ext i
        constructor
        · rintro ⟨_ | j, rfl, stands⟩
          · exact absurd stands other
          · exact ⟨j, by omega, standsNext.mp stands⟩
        · rintro ⟨j, rfl, stands⟩
          exact ⟨j + 1, by omega, standsNext.mpr stands⟩
      rw [later]
      exact ih (pos + 1)

theorem foundLeast (piece : List Char) (inside : start ≤ cs.length) :
    Finds IsLeast {i | start ≤ i ∧ StandsAt piece cs i} (find? piece cs start) := by
  have same : {i | start ≤ i ∧ StandsAt piece cs i} = {i | ∃ j, i = start + j ∧ StandsAt piece (cs.drop start) j} := by
    ext i
    constructor
    · rintro ⟨behind, stands⟩
      exact ⟨i - start, by omega, (standsDropped inside).mpr (by rwa [Nat.add_sub_cancel' behind])⟩
    · rintro ⟨j, rfl, stands⟩
      exact ⟨Nat.le_add_right .., (standsDropped inside).mp stands⟩
  rw [same]
  exact foundFrom start

/-- The place found so far is the answer only if the piece stands nowhere in the rest. -/
theorem foundLast (piece cs : List Char) (pos : Nat) (found : Option Nat) :
    (∃ j, findLastFrom? piece pos found cs = some (pos + j) ∧ IsGreatest {j | StandsAt piece cs j} j) ∨
    findLastFrom? piece pos found cs = found ∧ ∀ j, ¬ StandsAt piece cs j := by
  induction cs generalizing pos found with
  | nil =>
    unfold findLastFrom?
    cases piece with
    | nil => exact .inl ⟨0, rfl, standsFirst.mpr List.prefix_rfl, fun j stands => (standsNowhere.mp stands).2.le⟩
    | cons => exact .inr ⟨rfl, fun j stands => by cases (standsNowhere.mp stands).1⟩
  | cons c cs ih =>
    unfold findLastFrom?
    obtain ⟨j, reply, stands, greatest⟩ | ⟨reply, none⟩ :=
      ih (pos + 1) (if piece.isPrefixOf (c :: cs) then some pos else found)
    · refine .inl ⟨j + 1, by rw [reply]; congr 1; omega, standsNext.mpr stands, ?_⟩
      rintro (_ | k) place
      · exact Nat.zero_le _
      · exact Nat.succ_le_succ (greatest (standsNext.mp place))
    · rw [reply]
      split
      case isTrue first =>
        rw [List.isPrefixOf_iff_prefix, ← standsFirst] at first
        refine .inl ⟨0, rfl, first, ?_⟩
        rintro (_ | k) place
        · exact Nat.le_refl 0
        · exact absurd (standsNext.mp place) (none k)
      case isFalse other =>
        rw [List.isPrefixOf_iff_prefix, ← standsFirst] at other
        refine .inr ⟨rfl, ?_⟩
        rintro (_ | k) place
        · exact other place
        · exact none k (standsNext.mp place)

/-- The last search looks at a text that ends where a piece at the greatest place ends. -/
theorem foundGreatest (last : Nat) :
    Finds IsGreatest {i | i ≤ last ∧ StandsAt piece cs i} (findLast? piece cs (last + piece.length)) := by
  have same : {i | i ≤ last ∧ StandsAt piece cs i} = {i | StandsAt piece (cs.take (last + piece.length)) i} := by
    ext i
    exact (standsTaken.trans (and_congr_left' Nat.add_le_add_iff_right)).symm
  rw [same, findLast?]
  obtain ⟨j, reply, greatest⟩ | ⟨reply, none⟩ := foundLast piece (cs.take (last + piece.length)) 0 .none
  · rw [reply, Nat.zero_add]
    exact greatest
  · rw [reply]
    exact Set.eq_empty_of_forall_notMem none

theorem containsAnywhere : contains piece cs = true ↔ ∃ i, StandsAt piece cs i := by
  have search := foundLeast piece (Nat.zero_le cs.length)
  rw [contains, ← Option.not_isNone, Bool.not_eq_true', ← Bool.not_eq_true, Option.isNone_iff_eq_none,
    search.nothing fun is => is.1, ← ne_eq, ← Set.nonempty_iff_ne_empty]
  exact exists_congr fun i => and_iff_right (Nat.zero_le i)

/-- A piece at the first of the places that are searched is the one that is found. -/
theorem firstFound (inside : start ≤ cs.length) : find? piece cs start = some start ↔ piece <+: cs.drop start := by
  rw [(foundLeast piece inside).least]
  constructor
  · exact fun least => (standsPrefix.mp least.1.2).2
  · exact fun starts => ⟨⟨Nat.le_refl start, standsPrefix.mpr ⟨inside, starts⟩⟩, fun i place => place.1⟩

theorem standsLast : piece <:+ cs ↔ piece.length ≤ cs.length ∧ StandsAt piece cs (cs.length - piece.length) := by
  constructor
  · rintro ⟨front, rfl⟩
    exact ⟨by simp, front, [], by simp, by simp⟩
  · rintro ⟨few, front, back, rfl, size⟩
    have none : back = [] := by
      rw [← List.length_eq_zero_iff]
      simp only [List.length_append] at few size
      omega
    exact ⟨front, by simp [none]⟩

/-- A piece at the end of the text is the last one that is found. -/
theorem lastFound : findLast? piece cs (cs.length + piece.length) = some (cs.length - piece.length) ∧ piece.length ≤ cs.length ↔
    piece <:+ cs := by
  rw [(foundGreatest cs.length).greatest, standsLast, and_comm]
  refine and_congr_right fun few => ⟨fun greatest => greatest.1.2, fun stands => ⟨⟨Nat.sub_le .., stands⟩, ?_⟩⟩
  rintro i ⟨-, place⟩
  have within := standsWithin place
  omega

end Places

end Fragment.Text

namespace Fragment.Value

open Text (StandsAt Finds find? findLast? contains)

/-- A position that has no number: `undefined`, or a value whose number is NaN. -/
def Unplaced (s : Store) (p : Value) : Prop := p = .undefined ∨ ∃ n, toNumber s p = .ok n ∧ n.isNaN = .ok true

/-- A search member gives the extreme one of some places, or `-1` where there are none. -/
def Answers (extreme : Set Nat → Nat → Prop) (places : Set Nat) (reply : Except Fault Produced) : Prop :=
  (∃ i : Nat, extreme places i ∧ reply = .ok (.value (.int i))) ∨ places = ∅ ∧ reply = .ok (.value (.int (-1)))

/-- Whether a member takes so many arguments. -/
def Member.takes (m : Member) (count : Nat) : Bool := m.least ≤ count && m.greatest?.all (count ≤ ·)

section Searches

variable {s : Store} {t x : String} {p : Value} {w : Whole} {extreme : Set Nat → Nat → Prop} {places : Set Nat}

theorem clampInside (w : Whole) (length : Nat) : w.clamp length ≤ length := by
  cases w with
  | finite n => exact Nat.min_le_right ..
  | infinite negative => cases negative <;> simp [Whole.clamp]

theorem answersFound {found : Option Nat} (finds : Finds extreme places found) :
    Answers extreme places (.ok (.value (positionValue found))) := by
  cases found with
  | some i => exact .inl ⟨i, finds, rfl⟩
  | none => exact .inr ⟨finds, rfl⟩

/-- Only a place is answered with its number. -/
theorem positionSame {found : Option Nat} {i : Nat} :
    (Except.ok (.value (positionValue found)) : Except Fault Produced) = .ok (.value (.int i)) ↔ found = some i := by
  cases found with
  | none =>
    unfold positionValue
    simp [Value.int]
  | some j =>
    unfold positionValue
    simp [Value.int, Int.natCast_inj]

theorem positionNone {found : Option Nat} :
    (Except.ok (.value (positionValue found)) : Except Fault Produced) = .ok (.value (.int (-1))) ↔ found = none := by
  cases found with
  | none =>
    unfold positionValue
    simp
  | some j =>
    unfold positionValue
    simp [Value.int]

theorem textCall {m : Member} {args : List Value} (taken : m.takes args.length = true) :
    callMember s m (.text t) args = callTextMember s m t args := by
  obtain ⟨enough, few⟩ := Bool.and_eq_true_iff.mp taken
  rw [decide_eq_true_eq] at enough
  unfold callMember
  rw [if_neg (by omega)]
  cases limit : m.greatest? with
  | none => rfl
  | some most =>
    rw [limit, Option.all_some, decide_eq_true_eq] at few
    simp only [bind, Except.bind]
    rw [if_neg (by omega)]

theorem clampCounted (counted : toInteger s p 0 = .ok w) (length : Nat) : clampArg s p 0 length = .ok (w.clamp length) := by
  rw [clampArg, counted]
  rfl

theorem clampOpen (s : Store) (length : Nat) : clampArg s .undefined length length = .ok length := by
  simp [clampArg, toInteger, Whole.clamp, bind, Except.bind, pure, Except.pure]

theorem indexOfCall (counted : toInteger s p 0 = .ok w) : callMember s .indexOf (.text t) [.text x, p] =
    .ok (.value (positionValue (find? x.toList t.toList (w.clamp t.toList.length)))) := by
  have text : toText s (.text x) = .ok x := rfl
  rw [textCall rfl]
  unfold callTextMember
  simp [text, clampCounted counted, bind, Except.bind]

theorem includesCall (counted : toInteger s p 0 = .ok w) : callMember s .includes (.text t) [.text x, p] =
    .ok (.value (.bool (contains x.toList (t.toList.drop (w.clamp t.toList.length))))) := by
  have text : toText s (.text x) = .ok x := rfl
  rw [textCall rfl]
  unfold callTextMember
  simp [text, clampCounted counted, bind, Except.bind]

theorem startsWithCall (counted : toInteger s p 0 = .ok w) : callMember s .startsWith (.text t) [.text x, p] =
    .ok (.value (.bool (x.toList.isPrefixOf (t.toList.drop (w.clamp t.toList.length))))) := by
  have text : toText s (.text x) = .ok x := rfl
  rw [textCall rfl]
  unfold callTextMember
  simp [text, clampCounted counted, bind, Except.bind]

theorem endsWithCall (s : Store) (t x : String) :
    callMember s .endsWith (.text t) [.text x] = .ok (.value (.bool (x.toList.isSuffixOf t.toList))) := by
  have text : toText s (.text x) = .ok x := rfl
  rw [textCall rfl]
  unfold callTextMember
  simp only [List.getD_cons_zero, List.getD_cons_succ, List.getD_nil, clampOpen, text, bind, Except.bind,
    List.take_length]

/-- What can be cut off to an integer can be asked whether it is NaN. -/
theorem truncatedAsked {n : Number} (cut : truncated n = .ok w) : ∃ lost, n.isNaN = .ok lost := by
  cases n with
  | float x => exact ⟨_, rfl⟩
  | int n =>
    cases converted : (Number.int n).toFloat with
    | ok x => exact ⟨false, by simp [Number.isNaN, converted, bind, Except.bind, pure, Except.pure]⟩
    | error f =>
      unfold truncated at cut
      simp [converted, bind, Except.bind] at cut

/-- What stands for `undefined` matters to nothing else. -/
theorem integerGiven (given : p ≠ .undefined) (default : Int) : toInteger s p default = toInteger s p 0 := by
  cases p <;> first | rfl | exact absurd rfl given

/-- A position has a number; unless that is NaN, the position is not `undefined`. -/
theorem positionAsked (counted : toInteger s p 0 = .ok w) : ∃ n lost, toNumber s p = .ok n ∧ n.isNaN = .ok lost ∧
    (lost = true ∨ p ≠ .undefined) := by
  by_cases missing : p = .undefined
  · subst missing
    exact ⟨Number.nan, true, rfl, rfl, .inl rfl⟩
  · have steps : toInteger s p 0 = (toNumber s p).bind truncated := by cases p <;> rfl
    rw [steps] at counted
    cases asked : toNumber s p with
    | error f =>
      rw [asked] at counted
      cases counted
    | ok n =>
      rw [asked] at counted
      obtain ⟨lost, number⟩ := truncatedAsked counted
      exact ⟨n, lost, rfl, number, .inr missing⟩

/-- The greatest place that is looked for: the position, or the end of the text if that has no number. -/
theorem lastIndexOfCall (counted : toInteger s p 0 = .ok w) : ∃ last, callMember s .lastIndexOf (.text t) [.text x, p] =
      .ok (.value (positionValue (findLast? x.toList t.toList (last + x.toList.length)))) ∧
    (Unplaced s p → last = t.toList.length) ∧ (¬ Unplaced s p → last = w.clamp t.toList.length) := by
  have steps : callTextMember s .lastIndexOf t [.text x, p] = (do
      let n ← toNumber s p
      let start ← if (← n.isNaN) then pure t.toList.length else clampArg s p t.toList.length t.toList.length
      .ok (.value (positionValue (findLast? x.toList t.toList (start + x.toList.length))))) := by
    rw [String.length_toList (s := x)]
    cases p <;> rfl
  obtain ⟨n, lost, asked, number, placed⟩ := positionAsked counted
  rw [textCall rfl, steps, asked]
  simp only [bind, Except.bind, number]
  cases lost with
  | true =>
    refine ⟨t.toList.length, rfl, fun _ => rfl, fun placed => absurd (.inr ⟨n, asked, number⟩) placed⟩
  | false =>
    have given := placed.resolve_left Bool.false_ne_true
    refine ⟨w.clamp t.toList.length, ?_, ?_, fun _ => rfl⟩
    · simp [clampArg, integerGiven given, counted, bind, Except.bind, pure, Except.pure]
    · rintro (rfl | ⟨m, other, none⟩)
      · cases asked
        cases number
      · cases asked.symm.trans other
        cases number.symm.trans none

/-- How the search members of the text `t` answer for `x` and the position `p`, which is `w` as an integer. -/
structure SearchLaws (s : Store) (t x : String) (p : Value) (w : Whole) : Prop where
  least : Answers IsLeast {i | w.clamp t.toList.length ≤ i ∧ StandsAt x.toList t.toList i}
    (callMember s .indexOf (.text t) [.text x, p])
  includes : ∃ b, callMember s .includes (.text t) [.text x, p] = .ok (.value (.bool b)) ∧
    (b = true ↔ callMember s .indexOf (.text t) [.text x, p] ≠ .ok (.value (.int (-1))))
  starts : ∃ b, callMember s .startsWith (.text t) [.text x, p] = .ok (.value (.bool b)) ∧
    (b = true ↔ callMember s .indexOf (.text t) [.text x, p] = .ok (.value (.int (w.clamp t.toList.length))))
  greatest (placed : ¬ Unplaced s p) : Answers IsGreatest {i | i ≤ w.clamp t.toList.length ∧ StandsAt x.toList t.toList i}
    (callMember s .lastIndexOf (.text t) [.text x, p])
  last (unplaced : Unplaced s p) : Answers IsGreatest {i | i ≤ t.toList.length ∧ StandsAt x.toList t.toList i}
    (callMember s .lastIndexOf (.text t) [.text x, p])
  ends : ∃ b, callMember s .endsWith (.text t) [.text x] = .ok (.value (.bool b)) ∧
    (b = true ↔ x.toList.length ≤ t.toList.length ∧
      callMember s .lastIndexOf (.text t) [.text x] = .ok (.value (.int (t.toList.length - x.toList.length : Nat))))

theorem includesAgrees (counted : toInteger s p 0 = .ok w) :
    ∃ b, callMember s .includes (.text t) [.text x, p] = .ok (.value (.bool b)) ∧
      (b = true ↔ callMember s .indexOf (.text t) [.text x, p] ≠ .ok (.value (.int (-1)))) := by
  have inside := clampInside w t.toList.length
  have search := Text.foundLeast x.toList inside
  refine ⟨_, includesCall counted, ?_⟩
  rw [indexOfCall counted, ne_eq, positionNone, search.nothing fun is => is.1, Text.containsAnywhere, ← ne_eq,
    ← Set.nonempty_iff_ne_empty]
  constructor
  · rintro ⟨i, stands⟩
    exact ⟨_, Nat.le_add_right .., (Text.standsDropped inside).mp stands⟩
  · rintro ⟨i, behind, stands⟩
    exact ⟨_, (Text.standsDropped inside).mpr (by rwa [Nat.add_sub_cancel' behind])⟩

theorem startsAgrees (counted : toInteger s p 0 = .ok w) :
    ∃ b, callMember s .startsWith (.text t) [.text x, p] = .ok (.value (.bool b)) ∧
      (b = true ↔ callMember s .indexOf (.text t) [.text x, p] = .ok (.value (.int (w.clamp t.toList.length)))) := by
  refine ⟨_, startsWithCall counted, ?_⟩
  rw [indexOfCall counted, positionSame, List.isPrefixOf_iff_prefix, Text.firstFound (clampInside w t.toList.length)]

theorem endsAgrees (s : Store) (t x : String) : ∃ b, callMember s .endsWith (.text t) [.text x] = .ok (.value (.bool b)) ∧
    (b = true ↔ x.toList.length ≤ t.toList.length ∧
      callMember s .lastIndexOf (.text t) [.text x] = .ok (.value (.int (t.toList.length - x.toList.length : Nat)))) := by
  obtain ⟨last, call, unplaced, -⟩ := lastIndexOfCall (s := s) (t := t) (x := x) (p := .undefined) rfl
  have asked : callMember s .lastIndexOf (.text t) [.text x] = callMember s .lastIndexOf (.text t) [.text x, .undefined] := rfl
  refine ⟨_, endsWithCall s t x, ?_⟩
  rw [asked, call, unplaced (.inl rfl), positionSame, List.isSuffixOf_iff_suffix, ← Text.lastFound, and_comm]

end Searches

theorem searchesAgree (s : Store) (t x : String) (p : Value) {w : Whole} (counted : toInteger s p 0 = .ok w) :
    SearchLaws s t x p w where
  least := by
    rw [indexOfCall counted]
    exact answersFound (Text.foundLeast x.toList (clampInside w t.toList.length))
  includes := includesAgrees counted
  starts := startsAgrees counted
  greatest placed := by
    obtain ⟨last, call, -, same⟩ := lastIndexOfCall (t := t) (x := x) counted
    rw [call, same placed]
    exact answersFound (Text.foundGreatest _)
  last unplaced := by
    obtain ⟨last, call, same, -⟩ := lastIndexOfCall (t := t) (x := x) counted
    rw [call, same unplaced]
    exact answersFound (Text.foundGreatest _)
  ends := endsAgrees s t x

/-- An empty piece behind the end of a text. -/
theorem emptySearched : toInteger {} (.text " 7 ") 0 = .ok (.finite 7) ∧ SearchLaws {} "abcab" "" (.text " 7 ") (.finite 7) := by
  have counted : toInteger {} (.text " 7 ") 0 = .ok (.finite 7) := rfl
  exact ⟨counted, searchesAgree {} "abcab" "" (.text " 7 ") counted⟩

end Fragment.Value
