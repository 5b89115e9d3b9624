import Fragment.Proofs.Making
import Mathlib.Data.Finset.Card
import Mathlib.Data.Nat.Digits.Defs

/-! The supply of names.
The choices for a name are all different, and but for the first none is a reserved word, so among one
more choice than there are names in use one can be given. The single underscore alone is without
supply: a number behind it makes a name that the code keeps for itself. Over any run of requests the
names that are given stay apart. -/
namespace Fragment.Emit

/-! Choices -/

theorem digitsInjective {i j : Nat} (same : (toString i).toList = (toString j).toList) : i = j := by
  have numbers := congrArg (fun ds => Nat.ofDigitChars 10 ds 0) same
  simpa [Nat.toString_eq_ofList_toDigits] using numbers

theorem numberedList (base : String) {k : Nat} (numbered : k ≠ 0) :
    (candidate base k).toList = base.toList ++ '_' :: (toString k).toList := by
  simp [candidate, numbered]

theorem candidateInjective (base : String) : Function.Injective (candidate base) := by
  have longer {k : Nat} (numbered : k ≠ 0) : candidate base 0 ≠ candidate base k := by
    intro same
    have lists : base.toList = (candidate base k).toList := congrArg String.toList same
    simp [numberedList base numbered] at lists
  intro i j same
  by_cases first : i = 0
  · by_cases other : j = 0
    · rw [first, other]
    · exact absurd (first ▸ same) (longer other)
  · by_cases other : j = 0
    · exact absurd (other ▸ same.symm) (longer first)
    · have lists := congrArg String.toList same
      rw [numberedList base first, numberedList base other] at lists
      exact digitsInjective (List.cons.inj (List.append_cancel_left lists)).2

theorem temporaryInjective (label : String) : Function.Injective (temporaryName label) := by
  intro i j same
  have lists := congrArg String.toList same
  simp only [temporaryName, String.toList_append] at lists
  exact digitsInjective (List.append_cancel_left lists)

/-- Names cannot take one more of different choices than they are. -/
theorem someUnused {choice : Nat → String} (different : Function.Injective choice) (names : List String) :
    ∃ k ≤ names.length, choice k ∉ names := by
  by_contra! taken
  have fits : (List.range (names.length + 1)).map choice ⊆ names := by
    intro c member
    obtain ⟨k, bound, rfl⟩ := List.mem_map.mp member
    exact taken k (Nat.lt_succ_iff.mp (List.mem_range.mp bound))
  have := (List.subperm_of_subset (List.nodup_range.map different) fits).length_le
  simp at this

theorem reservedLetters : ∀ word ∈ reservedWords, '_' ∉ word.toList := by decide

theorem numberedUnreserved (base : String) {k : Nat} (numbered : k ≠ 0) : candidate base k ∉ reservedWords := by
  intro reserved
  apply reservedLetters _ reserved
  simp [numberedList base numbered]

/-- A number in digits is not empty and does not begin with an underscore. -/
theorem numberDigits (k : Nat) : ∃ digit digits, (toString k).toList = digit :: digits ∧ digit ≠ '_' := by
  have shown : (toString k).toList = Nat.toDigits 10 k := by simp
  match digits : Nat.toDigits 10 k with
  | [] => exact absurd digits Nat.toDigits_ne_nil
  | digit :: rest =>
    refine ⟨digit, rest, shown.trans digits, ?_⟩
    rintro rfl
    have := Nat.isDigit_of_mem_toDigits (b := 10) (by decide) (by decide) (digits ▸ List.mem_cons_self)
    exact absurd this (by decide)

theorem startsWithUnderscoresIff (name : String) :
    startsWithUnderscores name = true ↔ ∃ rest, name.toList = '_' :: '_' :: rest := by
  rw [startsWithUnderscores, List.isPrefixOf_iff_prefix]
  exact ⟨fun ⟨rest, same⟩ => ⟨rest, same.symm⟩, fun ⟨rest, same⟩ => ⟨rest, same.symm⟩⟩

/-- A number behind a base makes no kept name, unless the base is the single underscore. -/
theorem numberedKeptIff {base : String} (plain : startsWithUnderscores base = false) {k : Nat} (numbered : k ≠ 0) :
    startsWithUnderscores (candidate base k) = true ↔ base = "_" := by
  rw [startsWithUnderscoresIff, numberedList base numbered]
  constructor
  · rintro ⟨rest, same⟩
    match letters : base.toList with
    | [] =>
      obtain ⟨digit, digits, shown, other⟩ := numberDigits k
      rw [letters, shown] at same
      exact absurd (List.cons.inj (List.cons.inj same).2).1 other
    | [c] =>
      rw [letters] at same
      obtain ⟨rfl, -⟩ := List.cons.inj same
      exact String.toList_inj.mp letters
    | c :: d :: more =>
      rw [letters] at same
      obtain ⟨first, rest⟩ := List.cons.inj same
      have kept := (startsWithUnderscoresIff base).mpr ⟨more, by rw [letters, first, (List.cons.inj rest).1]⟩
      simp [plain] at kept
  · rintro rfl
    exact ⟨_, rfl⟩

/-! Bases -/

theorem baseNameCases (name : String) :
    (startsWithUnderscores (plainName name) = true ∧ baseName name = "u" ++ plainName name) ∨
      (startsWithUnderscores (plainName name) = false ∧ baseName name = plainName name) := by
  cases kept : startsWithUnderscores (plainName name) with
  | true => exact .inl ⟨rfl, by rw [baseName, kept, if_pos rfl]⟩
  | false => exact .inr ⟨rfl, by rw [baseName, kept, if_neg nofun]⟩

theorem letteredList (name : String) : ("u" ++ name).toList = 'u' :: name.toList := String.toList_append

theorem baseNamePlain (name : String) : startsWithUnderscores (baseName name) = false := by
  obtain ⟨-, base⟩ | ⟨plain, base⟩ := baseNameCases name
  · rw [base, ← Bool.not_eq_true, startsWithUnderscoresIff, letteredList]
    rintro ⟨rest, same⟩
    exact absurd (List.cons.inj same).1 (by decide)
  · rw [base, plain]

/-- Letters of which none is dropped and only single ones stay single. -/
theorem flatMapSingle {f : Char → List Char} {letters : List Char} {x : Char}
    (kept : ∀ c, f c = [c] ∨ 1 < (f c).length) (single : letters.flatMap f = [x]) : letters = [x] := by
  cases letters with
  | nil => nomatch single
  | cons c rest =>
    have lengths := congrArg List.length single
    rw [List.flatMap_cons, List.length_append, List.length_singleton] at lengths
    obtain same | long := kept c
    · rw [same, List.length_singleton] at lengths
      have gone : rest.flatMap f = [] := List.length_eq_zero_iff.mp (by omega)
      have none : rest = [] := by
        refine List.eq_nil_iff_forall_not_mem.mpr fun d member => ?_
        have empty := List.flatMap_eq_nil_iff.mp gone d member
        obtain same | long := kept d <;> simp_all
      rw [none, List.flatMap_singleton, same] at single
      rw [none, single]
    · omega

theorem plainNameUnderscore {name : String} (single : plainName name = "_") : name = "_" := by
  have letters : (plainName name).toList = ['_'] := congrArg String.toList single
  rw [plainName, String.toList_ofList] at letters
  refine String.toList_inj.mp (flatMapSingle (fun c => ?_) letters)
  split
  case isTrue => exact .inr (by decide)
  case isFalse => exact .inl rfl

theorem baseNameUnderscoreIff (name : String) : baseName name = "_" ↔ name = "_" := by
  constructor
  · intro single
    obtain ⟨-, base⟩ | ⟨-, base⟩ := baseNameCases name
    · have := congrArg String.toList (base.symm.trans single)
      rw [letteredList] at this
      exact absurd (List.cons.inj this).1 (by decide)
    · exact plainNameUnderscore (base.symm.trans single)
  · rintro rfl
    decide

/-! The search -/

namespace Names

variable {n : Names} {base name : String}

theorem isFreeIff : n.isFree name = true ↔ name ∉ n.used ∧ name ∉ reservedWords ∧ startsWithUnderscores name = false := by
  simp [isFree, and_assoc]

/-- The search among the choices of a base, from the `k`-th on, stops after `j` more: there is the first
that is free. -/
structure StopsAfter (n : Names) (base : String) (k j : Nat) : Prop where
  free : n.isFree (candidate base (k + j)) = true
  first : ∀ i < j, n.isFree (candidate base (k + i)) = false

theorem StopsAfter.here {k : Nat} (free : n.isFree (candidate base k) = true) : n.StopsAfter base k 0 :=
  ⟨free, nofun⟩

theorem StopsAfter.succIff {k j : Nat} (taken : n.isFree (candidate base k) = false) :
    n.StopsAfter base k (j + 1) ↔ n.StopsAfter base (k + 1) j := by
  constructor
  · intro stops
    refine ⟨by simpa [Nat.add_right_comm, Nat.add_assoc] using stops.free, fun i bound => ?_⟩
    have := stops.first (i + 1) (by omega)
    rwa [← Nat.add_assoc, Nat.add_right_comm] at this
  · intro stops
    refine ⟨by simpa [Nat.add_right_comm, Nat.add_assoc] using stops.free, fun i bound => ?_⟩
    cases i with
    | zero => exact taken
    | succ i =>
      have := stops.first i (by omega)
      rwa [Nat.add_right_comm] at this

/-- The search finds a choice exactly if it stops there within its fuel. -/
theorem freeFromSomeIff {fuel k : Nat} {found : String} :
    n.freeFrom base fuel k = some found ↔ ∃ j < fuel, n.StopsAfter base k j ∧ candidate base (k + j) = found := by
  induction fuel generalizing k with
  | zero => simp [freeFrom]
  | succ fuel ih =>
    rw [freeFrom]
    split
    case isTrue free =>
      constructor
      · intro same
        exact ⟨0, Nat.succ_pos _, .here free, Option.some.inj same⟩
      · rintro ⟨j, -, stops, rfl⟩
        cases j with
        | zero => rfl
        | succ j =>
          have := stops.first 0 (Nat.succ_pos _)
          simp [free] at this
    case isFalse taken =>
      rw [Bool.not_eq_true] at taken
      rw [ih]
      constructor
      · rintro ⟨j, bound, stops, same⟩
        exact ⟨j + 1, by omega, (StopsAfter.succIff taken).mpr stops, by rw [← same, Nat.add_right_comm, Nat.add_assoc]⟩
      · rintro ⟨j, bound, stops, same⟩
        cases j with
        | zero => exact absurd stops.free (by simp [taken])
        | succ j =>
          exact ⟨j, by omega, (StopsAfter.succIff taken).mp stops, by rw [← same, Nat.add_right_comm, Nat.add_assoc]⟩

/-- Where a choice is free, the search stops there or before. -/
theorem stopsOfFree {k : Nat} (free : n.isFree (candidate base k) = true) : ∃ j ≤ k, n.StopsAfter base 0 j := by
  have some : ∃ j, n.isFree (candidate base (0 + j)) = true := ⟨k, by rwa [Nat.zero_add]⟩
  refine ⟨Nat.find some, Nat.find_min' some (by rwa [Nat.zero_add]), Nat.find_spec some, fun i bound => ?_⟩
  exact Bool.not_eq_true _ ▸ Nat.find_min some bound

/-- The numbered choices of a name other than the single underscore are taken only by names in use. -/
theorem numberedFreeIff (other : name ≠ "_") {k : Nat} (numbered : k ≠ 0) :
    n.isFree (candidate (baseName name) k) = true ↔ candidate (baseName name) k ∉ n.used := by
  have plain : startsWithUnderscores (candidate (baseName name) k) = false := by
    rw [← Bool.not_eq_true, numberedKeptIff (baseNamePlain name) numbered, baseNameUnderscoreIff]
    exact other
  rw [isFreeIff, plain]
  exact ⟨And.left, fun unused => ⟨unused, numberedUnreserved _ numbered, rfl⟩⟩

theorem numberedFree (other : name ≠ "_") :
    ∃ k ≤ n.used.length + 1, n.isFree (candidate (baseName name) k) = true := by
  have different : Function.Injective fun k => candidate (baseName name) (k + 1) :=
    fun i j same => Nat.succ_injective (candidateInjective _ same)
  obtain ⟨k, bound, unused⟩ := someUnused different n.used
  exact ⟨k + 1, Nat.succ_le_succ bound, (numberedFreeIff other k.succ_ne_zero).mpr unused⟩

/-- The single underscore has one choice. -/
theorem underscoreFreeIff (k : Nat) : n.isFree (candidate (baseName "_") k) = true ↔ k = 0 ∧ "_" ∉ n.used := by
  rw [(baseNameUnderscoreIff "_").mpr rfl]
  cases k with
  | zero =>
    have plain : "_" ∉ reservedWords ∧ startsWithUnderscores "_" = false := by decide
    change n.isFree "_" = true ↔ _
    rw [isFreeIff]
    simp [plain]
  | succ k =>
    have plain : startsWithUnderscores "_" = false := by decide
    have kept := (numberedKeptIff plain k.succ_ne_zero).mpr rfl
    simp [isFreeIff, kept]

theorem StopsAfter.supplied {k : Nat} (stops : n.StopsAfter (baseName name) 0 k) : name ≠ "_" ∨ "_" ∉ n.used := by
  by_contra! both
  obtain ⟨rfl, used⟩ := both
  have free := stops.free
  rw [underscoreFreeIff] at free
  exact free.2 used

/-- The search for a name stops, after no more choices than there are names in use and one, unless the
name is the single underscore and in use. -/
theorem searchStops (supplied : name ≠ "_" ∨ "_" ∉ n.used) :
    ∃ k ≤ n.used.length + 1, n.StopsAfter (baseName name) 0 k := by
  have free : ∃ k ≤ n.used.length + 1, n.isFree (candidate (baseName name) k) = true := by
    by_cases other : name = "_"
    · subst other
      exact ⟨0, Nat.zero_le _, (underscoreFreeIff 0).mpr ⟨rfl, supplied.resolve_left (· rfl)⟩⟩
    · exact numberedFree other
  obtain ⟨k, bound, free⟩ := free
  obtain ⟨j, before, stops⟩ := stopsOfFree free
  exact ⟨j, before.trans bound, stops⟩

/-- A search that stops does so within the bound on its choices. -/
theorem StopsAfter.bounded {k : Nat} (stops : n.StopsAfter (baseName name) 0 k) : k ≤ n.used.length + 1 := by
  obtain ⟨j, bound, other⟩ := searchStops stops.supplied
  by_contra far
  have taken := stops.first j (by omega)
  exact Bool.false_ne_true (taken.symm.trans other.free)

theorem noneFreeIff : (∀ k, n.isFree (candidate (baseName name) k) = false) ↔ name = "_" ∧ "_" ∈ n.used := by
  constructor
  · intro taken
    by_contra short
    have supplied : name ≠ "_" ∨ "_" ∉ n.used := by tauto
    obtain ⟨k, -, stops⟩ := searchStops supplied
    exact Bool.false_ne_true ((taken _).symm.trans stops.free)
  · rintro ⟨rfl, used⟩ k
    rw [← Bool.not_eq_true, underscoreFreeIff]
    exact fun free => free.2 used

theorem forSymbolKnown {x : Nat} {known : String} (named : n.symbols.lookup x = some known) :
    n.forSymbol x name = some (known, n) := by
  rw [forSymbol, named]

/-- A symbol without a name is given the choice where the search stops. -/
theorem forSymbolFreshIff {x : Nat} (fresh : n.symbols.lookup x = none) {given : String} {names : Names} :
    n.forSymbol x name = some (given, names) ↔
      names = { n with used := given :: n.used, symbols := (x, given) :: n.symbols } ∧
      ∃ k ≤ n.used.length + 1, candidate (baseName name) k = given ∧ n.StopsAfter (baseName name) 0 k := by
  rw [forSymbol, fresh, Option.map_eq_some_iff]
  constructor
  · rintro ⟨free, found, same⟩
    obtain ⟨rfl, rfl⟩ := Prod.mk.inj same
    obtain ⟨k, bound, stops, chosen⟩ := freeFromSomeIff.mp found
    exact ⟨rfl, k, Nat.le_of_lt_succ bound, Nat.zero_add k ▸ chosen, stops⟩
  · rintro ⟨rfl, k, bound, chosen, stops⟩
    exact ⟨given, freeFromSomeIff.mpr ⟨k, Nat.lt_succ_of_le bound, stops, (Nat.zero_add k).symm ▸ chosen⟩, rfl⟩

theorem forSymbolNoneIff {x : Nat} :
    n.forSymbol x name = none ↔ n.symbols.lookup x = none ∧ name = "_" ∧ "_" ∈ n.used := by
  constructor
  · intro unnamed
    have fresh : n.symbols.lookup x = none := by
      cases named : n.symbols.lookup x with
      | none => rfl
      | some known => simp [forSymbolKnown named] at unnamed
    refine ⟨fresh, ?_⟩
    by_contra short
    have supplied : name ≠ "_" ∨ "_" ∉ n.used := by tauto
    obtain ⟨k, bound, stops⟩ := searchStops supplied
    have given := (forSymbolFreshIff fresh).mpr ⟨rfl, k, bound, rfl, stops⟩
    simp [given] at unnamed
  · rintro ⟨fresh, supply⟩
    cases given : n.forSymbol x name with
    | none => rfl
    | some result =>
      obtain ⟨-, k, -, -, stops⟩ := (forSymbolFreshIff fresh).mp given
      exact absurd stops.supplied (by tauto)

end Names

/-- A symbol gets a name unless it has none, is called by the single underscore, and that name is in
use. Then, and only then, no choice is ever free; else the symbol keeps the name that it has, or is given
the first choice that is free, which is one of the first `n.used.length + 2`. -/
theorem namingStopsIff (n : Names) (x : Nat) (name : String) :
    (n.forSymbol x name = none ↔ n.symbols.lookup x = none ∧ name = "_" ∧ "_" ∈ n.used) ∧
    ((∀ k, n.isFree (candidate (baseName name) k) = false) ↔ name = "_" ∧ "_" ∈ n.used) ∧
    ∀ given names, n.forSymbol x name = some (given, names) ↔
      (n.symbols.lookup x = some given ∧ names = n) ∨
      (n.symbols.lookup x = none ∧
        names = { n with used := given :: n.used, symbols := (x, given) :: n.symbols } ∧
        ∃ k ≤ n.used.length + 1, candidate (baseName name) k = given ∧ n.isFree given = true ∧
          ∀ j < k, n.isFree (candidate (baseName name) j) = false) := by
  refine ⟨Names.forSymbolNoneIff, Names.noneFreeIff, fun given names => ?_⟩
  cases named : n.symbols.lookup x with
  | some known =>
    rw [Names.forSymbolKnown named]
    constructor
    · rintro ⟨⟩
      exact .inl ⟨rfl, rfl⟩
    · rintro (⟨same, rfl⟩ | ⟨fresh, -⟩)
      · rw [Option.some.inj same]
      · nomatch fresh
  | none =>
    rw [Names.forSymbolFreshIff named]
    constructor
    · rintro ⟨rfl, k, bound, rfl, stops⟩
      exact .inr ⟨rfl, rfl, k, bound, rfl, Nat.zero_add k ▸ stops.free, fun j before => Nat.zero_add j ▸ stops.first j before⟩
    · rintro (⟨known, -⟩ | ⟨-, rfl, k, bound, rfl, free, first⟩)
      · nomatch known
      · exact ⟨rfl, k, bound, rfl, (Nat.zero_add k).symm ▸ free, fun j before => (Nat.zero_add j).symm ▸ first j before⟩

/-- The second symbol called by the single underscore gets no name, as no choice will ever be free. -/
theorem secondUnderscoreUnnamed :
    ∃ names, (Names.start []).forSymbol 1 "_" = some ("_", names) ∧ names.forSymbol 2 "_" = none ∧
      ∀ k, names.isFree (candidate (baseName "_") k) = false := by
  refine ⟨_, by rfl, by rfl, ?_⟩
  exact Names.noneFreeIff.mpr ⟨rfl, by decide⟩

/-! Requests -/

inductive NameRequest where
  | symbol (x : Nat) (name : String)
  | temporary (label : String)

namespace Names

variable {n : Names} {label : String}

def answer (n : Names) : NameRequest → Option (String × Names)
  | .symbol x name => n.forSymbol x name
  | .temporary label => some (n.temporary label)

/-- The requests with the names that they get, if all of them return. -/
def answers (n : Names) : List NameRequest → Option (List (NameRequest × String) × Names)
  | [] => some ([], n)
  | r :: rest => do
    let (a, n) ← n.answer r
    let (given, n) ← n.answers rest
    return ((r, a) :: given, n)

theorem temporarySearch {fuel k : Nat} (taken : temporaryName label (n.temporaryFrom label fuel k) ∈ n.used) :
    ∀ j ≤ fuel, temporaryName label (k + j) ∈ n.used := by
  induction fuel generalizing k with
  | zero =>
    intro j bound
    rwa [Nat.le_zero.mp bound]
  | succ fuel ih =>
    rw [temporaryFrom] at taken
    split at taken
    case isTrue first =>
      intro j bound
      cases j with
      | zero => exact List.contains_iff_mem.mp first
      | succ j => exact Nat.add_right_comm k 1 j ▸ ih taken j (Nat.le_of_succ_le_succ bound)
    case isFalse free => exact absurd (List.contains_iff_mem.mpr taken) free

theorem temporaryUnused (n : Names) (label : String) : (n.temporary label).1 ∉ n.used := by
  intro taken
  have different (k : Nat) : Function.Injective fun j => temporaryName label (k + j) :=
    fun i j same => Nat.add_left_cancel (temporaryInjective label same)
  obtain ⟨j, bound, unused⟩ := someUnused (different _) n.used
  exact unused (temporarySearch taken j bound)

theorem temporaryKept (label : String) (k : Nat) : startsWithUnderscores (temporaryName label k) = true := by
  rw [startsWithUnderscoresIff]
  exact ⟨label.toList ++ (toString k).toList, by simp [temporaryName]⟩

end Names

/-- What is given to requests: one name for each symbol, and each temporary once. -/
structure Apart (reserved : List String) (given : List (NameRequest × String)) : Prop where
  symbols : ∀ x name a y other b, (.symbol x name, a) ∈ given → (.symbol y other, b) ∈ given → (a = b ↔ x = y)
  plain : ∀ x name a, (.symbol x name, a) ∈ given →
    a ∉ reserved ∧ a ∉ reservedWords ∧ startsWithUnderscores a = false
  kept : ∀ label a, (.temporary label, a) ∈ given → a ∉ reserved ∧ startsWithUnderscores a = true
  once : given.Pairwise fun g h => ∀ label other, g.1 = .temporary label → h.1 = .temporary other → g.2 ≠ h.2

section Apart

variable {reserved : List String} {given : List (NameRequest × String)} {a : String}

theorem Apart.others (apart : Apart reserved given) {label : String} {x : Nat} {name b : String}
    (temporary : (.temporary label, a) ∈ given) (symbol : (.symbol x name, b) ∈ given) : a ≠ b := by
  rintro rfl
  have kept := (apart.kept label a temporary).2
  rw [(apart.plain x name a symbol).2.2] at kept
  cases kept

theorem Apart.symbol (apart : Apart reserved given) {x : Nat} (name : String)
    (same : ∀ y other b, (.symbol y other, b) ∈ given → (a = b ↔ x = y))
    (plain : a ∉ reserved ∧ a ∉ reservedWords ∧ startsWithUnderscores a = false) :
    Apart reserved (given ++ [(NameRequest.symbol x name, a)]) where
  symbols y n b z m c first second := by
    rcases List.mem_append.mp first with old | new <;> rcases List.mem_append.mp second with old' | new'
    · exact apart.symbols y n b z m c old old'
    · cases List.mem_singleton.mp new'
      rw [eq_comm, same y n b old, eq_comm]
    · cases List.mem_singleton.mp new
      exact same z m c old'
    · cases List.mem_singleton.mp new
      cases List.mem_singleton.mp new'
      simp
  plain y n b member := by
    rcases List.mem_append.mp member with old | new
    · exact apart.plain y n b old
    · cases List.mem_singleton.mp new
      exact plain
  kept label b member := by
    rcases List.mem_append.mp member with old | new
    · exact apart.kept label b old
    · cases List.mem_singleton.mp new
  once := by
    refine List.pairwise_append.mpr ⟨apart.once, List.pairwise_singleton .., fun g _ h member _ other _ temporary => ?_⟩
    cases List.mem_singleton.mp member
    cases temporary

theorem Apart.temporary (apart : Apart reserved given) (label : String) (fresh : ∀ r, (r, a) ∉ given)
    (kept : a ∉ reserved ∧ startsWithUnderscores a = true) : Apart reserved (given ++ [(NameRequest.temporary label, a)]) where
  symbols y n b z m c first second := by
    rcases List.mem_append.mp first with old | new <;> rcases List.mem_append.mp second with old' | new'
    · exact apart.symbols y n b z m c old old'
    · cases List.mem_singleton.mp new'
    · cases List.mem_singleton.mp new
    · cases List.mem_singleton.mp new
  plain y n b member := by
    rcases List.mem_append.mp member with old | new
    · exact apart.plain y n b old
    · cases List.mem_singleton.mp new
  kept other b member := by
    rcases List.mem_append.mp member with old | new
    · exact apart.kept other b old
    · cases List.mem_singleton.mp new
      exact kept
  once := by
    refine List.pairwise_append.mpr ⟨apart.once, List.pairwise_singleton .., fun g old h member _ _ _ _ same => ?_⟩
    cases List.mem_singleton.mp member
    have entry : g = (g.1, a) := Prod.ext rfl same
    exact fresh g.1 (entry ▸ old)

end Apart

namespace Names

variable {n n' : Names} {label name a : String} {x : Nat} {reserved : List String} {r : NameRequest}
  {given : List (NameRequest × String)}

/-- The names in use are the reserved ones and those given, and a symbol is known by the name that it was given. -/
structure Holds (n : Names) (reserved : List String) (given : List (NameRequest × String)) : Prop where
  apart : Apart reserved given
  used : ∀ a, a ∈ n.used ↔ a ∈ reserved ∨ ∃ r, (r, a) ∈ given
  known : ∀ x a, n.symbols.lookup x = some a ↔ ∃ name, (.symbol x name, a) ∈ given

theorem Holds.start (reserved : List String) : Holds { used := reserved } reserved [] where
  apart := ⟨nofun, nofun, nofun, .nil⟩
  used a := by simp
  known x a := by simp

theorem Holds.symbol (holds : Holds n reserved given) (run : n.forSymbol x name = some (a, n')) :
    Holds n' reserved (given ++ [(NameRequest.symbol x name, a)]) := by
  cases named : n.symbols.lookup x with
  | some known =>
    rw [forSymbolKnown named] at run
    cases run
    obtain ⟨first, before⟩ := (holds.known x a).mp named
    refine ⟨holds.apart.symbol name (fun y other b => holds.apart.symbols x first a y other b before)
      (holds.apart.plain x first a before), fun b => ?_, fun y b => ?_⟩
    · rw [holds.used]
      grind
    · rw [holds.known]
      grind
  | none =>
    obtain ⟨rfl, k, -, rfl, stops⟩ := (forSymbolFreshIff named).mp run
    obtain ⟨unused, unreserved, plain⟩ := isFreeIff.mp (Nat.zero_add k ▸ stops.free)
    rw [holds.used, not_or] at unused
    have unknown (other b : String) : (.symbol x other, b) ∉ given := by
      intro member
      rw [(holds.known x b).mpr ⟨other, member⟩] at named
      cases named
    refine ⟨holds.apart.symbol name (fun y other b member => ?_) ⟨unused.1, unreserved, plain⟩, fun b => ?_, fun y b => ?_⟩
    · constructor
      · rintro rfl
        exact absurd ⟨_, member⟩ unused.2
      · rintro rfl
        exact absurd member (unknown other b)
    · rw [List.mem_cons, holds.used]
      grind
    · rw [List.lookup_cons]
      grind [holds.known y b]

theorem Holds.temporary (holds : Holds n reserved given) (label : String) :
    Holds (n.temporary label).2 reserved (given ++ [(NameRequest.temporary label, (n.temporary label).1)]) := by
  have unused := n.temporaryUnused label
  rw [holds.used, not_or, not_exists] at unused
  refine ⟨holds.apart.temporary label unused.2 ⟨unused.1, temporaryKept label _⟩, fun b => ?_, fun y b => ?_⟩
  · have used : (n.temporary label).2.used = (n.temporary label).1 :: n.used := rfl
    rw [used, List.mem_cons, holds.used]
    grind
  · have known : (n.temporary label).2.symbols = n.symbols := rfl
    rw [known, holds.known]
    grind

theorem Holds.answer (holds : Holds n reserved given) (run : n.answer r = some (a, n')) :
    Holds n' reserved (given ++ [(r, a)]) := by
  cases r with
  | symbol x name => exact holds.symbol run
  | temporary label =>
    cases run
    exact holds.temporary label

theorem Holds.answers {requests : List NameRequest} {more : List (NameRequest × String)} (holds : Holds n reserved given)
    (run : n.answers requests = some (more, n')) : more.map (·.1) = requests ∧ Holds n' reserved (given ++ more) := by
  induction requests generalizing n given more with
  | nil =>
    cases run
    exact ⟨rfl, (List.append_nil given).symm ▸ holds⟩
  | cons r rest ih =>
    unfold Names.answers at run
    simp only [bind, Option.bind_eq_some_iff, pure, Prod.exists] at run
    obtain ⟨a, next, first, given', after, later, last⟩ := run
    cases last
    obtain ⟨asked, holds⟩ := ih (holds.answer first) later
    rw [List.append_assoc] at holds
    exact ⟨congrArg (r :: ·) asked, holds⟩

end Names

/-- Whatever names are reserved: over a run of requests that return, a symbol always gets the same name, and different
ones different names. None is reserved, a reserved word or begun with two underscores. A temporary is begun with
them, not reserved, and apart from all other temporaries and the names of all symbols. -/
theorem namesApart (reserved : List String) {requests : List NameRequest} {given : List (NameRequest × String)}
    {n : Names} (returns : ({ used := reserved } : Names).answers requests = some (given, n)) :
    given.map (·.1) = requests ∧ Apart reserved given ∧
      ∀ label a x name b, (.temporary label, a) ∈ given → (.symbol x name, b) ∈ given → a ≠ b := by
  obtain ⟨asked, holds⟩ := (Names.Holds.start reserved).answers returns
  rw [List.nil_append] at holds
  exact ⟨asked, holds.apart, fun _ _ _ _ _ => holds.apart.others⟩

/-- Names that differ only by a dollar sign, a number behind or underscores in front. -/
def closeRequests : List NameRequest := [
  .symbol 1 "$", .temporary "t", .symbol 2 "_dollar_", .temporary "t1", .symbol 3 "__t1", .symbol 4 "u__t1",
  .symbol 1 "$", .temporary "t"]

theorem closeNamesApart : ∃ given n, ({ used := ["__t2", "_dollar_"] } : Names).answers closeRequests = some (given, n) ∧
    given.map (·.2) = ["_dollar__1", "__t1", "_dollar__2", "__t11", "u__t1", "u__t1_1", "_dollar__1", "__t3"] ∧
    Apart ["__t2", "_dollar_"] given := by
  have named : (({ used := ["__t2", "_dollar_"] } : Names).answers closeRequests).map (·.1.map (·.2)) =
      some ["_dollar__1", "__t1", "_dollar__2", "__t11", "u__t1", "u__t1_1", "_dollar__1", "__t3"] := by
    decide
  obtain ⟨⟨given, n⟩, run, names⟩ := Option.map_eq_some_iff.mp named
  exact ⟨given, n, run, names, (namesApart _ run).2.1⟩

end Fragment.Emit
