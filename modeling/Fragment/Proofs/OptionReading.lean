import Fragment.Options
import Fragment.Proofs.CodeLines

/-! Reading options.
Entries are taken in one after the other, and a bad one is reported and leaves the default. What is read so is what the
strict reading accepts, and written down as entries it is read as the same options without a report. -/
namespace Fragment

/-! Words in letters of any case -/

/-- A text that is one of some words but for its capitals. -/
def Data.spells (words : List String) : Data → Bool
  | .text t => words.contains (Text.lower t)
  | _ => false

def Data.items : Data → List Data
  | .list items => items
  | _ => []

def Data.isList : Data → Bool
  | .list _ => true
  | _ => false

section Numbers

open Target (Numeral intNumeral signedNumeral valueCharsNumeral)

theorem lowerAscii (before : List Char) {cs : List Char} (ascii : ∀ c ∈ cs, c.toNat < 0x80) :
    Text.lowerFrom before cs = cs.map Char.toLower := by
  induction cs generalizing before with
  | nil => rfl
  | cons c cs ih =>
    obtain ⟨first, others⟩ := List.forall_mem_cons.mp ascii
    have unlike : c.toNat ≠ 0x3a3 := by omega
    simp [Text.lowerFrom, Text.lowerChar, unlike, first, ih _ others]

theorem numeralLower {t : String} (numeral : Numeral t.toList) : Text.lower t = t := by
  have plain (c : Char) (member : c ∈ t.toList) : c.toNat < 0x80 ∧ c.toLower = c := by
    rcases numeral c member with digit | mark
    · simp only [Char.isDigit, Bool.and_eq_true, decide_eq_true_eq, ge_iff_le, UInt32.le_iff_toNat_le] at digit
      have low : c.toNat ≤ 57 := digit.2
      refine ⟨by omega, ?_⟩
      have small : ¬(c.val ≥ 'A'.val ∧ c.val ≤ 'Z'.val) := by
        rintro ⟨upper, -⟩
        have upper : 65 ≤ c.toNat := UInt32.le_iff_toNat_le.mp upper
        omega
      exact dif_neg small
    · simp only [List.mem_cons, List.not_mem_nil, or_false] at mark
      rcases mark with rfl | rfl | rfl | rfl <;> decide
  have same : t.toList.map Char.toLower = t.toList :=
    (List.map_congr_left fun c member => (plain c member).2).trans (List.map_id _)
  rw [Text.lower, lowerAscii [] fun c member => (plain c member).1, same, String.ofList_toList]

/-- A library's name has a letter that no numeral has. -/
theorem libraryLetters : ∀ n ∈ libraryNames, ¬Numeral n.toList := by decide

theorem numeralUnlisted {t : String} (numeral : Numeral t.toList) : isLibrary (Text.lower t) = false := by
  rw [numeralLower numeral, isLibrary, ← Bool.not_eq_true, List.contains_iff_mem]
  exact fun member => libraryLetters t member numeral

theorem numberUnlisted (n : Number) : isLibrary (Text.lower n.valueText) = false := by
  cases n with
  | int n => exact numeralUnlisted (intNumeral n).2
  | float x =>
    change isLibrary (Text.lower (Double.valueText x)) = false
    unfold Double.valueText
    split
    · decide
    · split <;> decide
    · split
      · exact numeralUnlisted (signedNumeral ⟨by decide, by decide⟩ _).2
      · exact numeralUnlisted (signedNumeral (valueCharsNumeral _) _).2

end Numbers

theorem bracketUnlisted {t : String} {c : Char} (bracket : c = '[' ∨ c = '\x7b') (first : t.toList.head? = some c) :
    isLibrary (Text.lower t) = false := by
  have begins : ∀ n ∈ libraryNames, n.toList.head? ≠ some '[' ∧ n.toList.head? ≠ some '\x7b' := by decide
  obtain ⟨rest, chars⟩ := List.head?_eq_some_iff.mp first
  have head : (Text.lower t).toList.head? = some c := by
    rw [Text.lower, chars]
    have stays : c.toNat < 0x80 ∧ c.toLower = c := by rcases bracket with rfl | rfl <;> decide
    have unlike : c.toNat ≠ 0x3a3 := by omega
    simp [Text.lowerFrom, Text.lowerChar, stays, unlike]
  rw [isLibrary, ← Bool.not_eq_true, List.contains_iff_mem]
  intro member
  rcases bracket with rfl | rfl
  · exact (begins _ member).1 head
  · exact (begins _ member).2 head

/-- Nothing but a text can name a library. -/
theorem itemSpells (item : Data) : isLibrary (Text.lower item.plain) = item.spells libraryNames := by
  cases item with
  | text t => rfl
  | null => decide
  | bool b => cases b <;> decide
  | number n => exact numberUnlisted n
  | list items => exact bracketUnlisted (.inl rfl) (by simp [Data.plain, Data.shown])
  | record fields => exact bracketUnlisted (.inr rfl) (by simp [Data.plain, Data.shown])

namespace Options

variable {α : Type} {all : List α} {name : α → String}

theorem chooseSpells (all : List α) (name : α → String) (value : Data) :
    (choose? all name value).isSome = value.spells (all.map name) := by
  cases value with
  | text t =>
    have same : (fun a => decide (name a = Text.lower t)) = fun a => Text.lower t == name a :=
      funext fun a => decide_eq_decide.mpr eq_comm
    rw [choose?, Data.spells, List.isSome_find?, List.contains_map, same]
  | _ => rfl

/-! What is wrong with entries -/

section Problems

variable (entries : List (String × Data))

def keys : List String := ["module", "target", "lib"]

def unknownKeys : Nat := entries.countP fun (key, _) => !keys.contains key

/-- The entries of a key whose value is not one of some words. -/
def wrongChoices (choice : String) (words : List String) : Nat :=
  entries.countP fun (key, value) => key = choice && !value.spells words

def wrongLists : Nat := entries.countP fun (key, value) => key = "lib" && !value.isList

/-- The items of lists of libraries that name none, each for itself. -/
def unknownLibraries : Nat := ((entries.filter (·.1 = "lib")).flatMap (·.2.items)).countP (!·.spells libraryNames)

def problems : Nat :=
  unknownKeys entries + wrongChoices entries "module" (ModuleKind.all.map ModuleKind.name) +
    wrongChoices entries "target" (Target.all.map Target.name) + wrongLists entries + unknownLibraries entries

theorem problemsAppend (more : List (String × Data)) : problems (entries ++ more) = problems entries + problems more := by
  simp only [problems, unknownKeys, wrongChoices, wrongLists, unknownLibraries, List.countP_append, List.filter_append,
    List.flatMap_append]
  omega

/-- The names in a list of libraries that are not kept. -/
theorem unlisted (items : List Data) : ((items.map fun item => Text.lower item.plain).filter (!isLibrary ·)).length =
    items.countP (!·.spells libraryNames) := by
  have same (item : Data) : (!isLibrary (Text.lower item.plain)) = !item.spells libraryNames := by rw [itemSpells]
  rw [← List.countP_eq_length_filter, List.countP_map]
  exact List.countP_congr fun item _ => by rw [Function.comp_apply, same]

/-- One entry adds a report for everything that is wrong with it. -/
theorem addEntryReports (o : Options) (key : String) (value : Data) :
    (o.addEntry key value).diagnostics.length = o.diagnostics.length + problems [(key, value)] := by
  unfold addEntry
  dsimp only
  split
  case h_1 =>
    have one : problems [("module", value)] = if value.spells (ModuleKind.all.map ModuleKind.name) = false then 1 else 0 := by
      simp [problems, unknownKeys, wrongChoices, wrongLists, unknownLibraries, keys, List.countP_cons]
    rw [one, ← chooseSpells]
    cases choose? ModuleKind.all ModuleKind.name value <;> simp
  case h_2 =>
    have one : problems [("target", value)] = if value.spells (Target.all.map Target.name) = false then 1 else 0 := by
      simp [problems, unknownKeys, wrongChoices, wrongLists, unknownLibraries, keys, List.countP_cons]
    rw [one, ← chooseSpells]
    cases choose? Target.all Target.name value <;> simp
  case h_3 =>
    have all : problems [("lib", value)] =
        (if value.isList = false then 1 else 0) + value.items.countP (!·.spells libraryNames) := by
      simp [problems, unknownKeys, wrongChoices, wrongLists, unknownLibraries, keys, List.countP_cons]
    rw [all]
    cases value with
    | list items => simp [Data.isList, Data.items, unlisted]
    | _ => simp [Data.isList, Data.items]
  case h_4 noModule noTarget noLib =>
    have noModule : key ≠ "module" := noModule
    have noTarget : key ≠ "target" := noTarget
    have noLib : key ≠ "lib" := noLib
    have one : problems [(key, value)] = 1 := by
      simp [problems, unknownKeys, wrongChoices, wrongLists, unknownLibraries, keys, noModule, noTarget, noLib]
    simp [one]

theorem entriesReport (entries : List (String × Data)) (o : Options) :
    (entries.foldl (fun o (key, value) => o.addEntry key value) o).diagnostics.length =
      o.diagnostics.length + problems entries := by
  induction entries generalizing o with
  | nil => rfl
  | cons entry entries ih =>
    rw [List.foldl_cons, ih, addEntryReports, Nat.add_assoc, ← problemsAppend]
    rfl

end Problems

/-! What is read -/

/-- The libraries asked for are bundled ones. -/
def Usable (o : Options) : Prop := ∀ names, o.lib = some names → ∀ n ∈ names, n ∈ libraryNames

theorem Usable.addEntry {o : Options} (usable : o.Usable) (key : String) (value : Data) : (o.addEntry key value).Usable := by
  unfold Options.addEntry
  dsimp only
  split
  case h_1 => cases choose? ModuleKind.all ModuleKind.name value <;> exact usable
  case h_2 => cases choose? Target.all Target.name value <;> exact usable
  case h_3 =>
    cases value with
    | list items =>
      rintro names ⟨⟩ n member
      exact List.contains_iff_mem.mp (List.mem_filter.mp member).2
    | _ => exact usable
  case h_4 => exact usable

theorem Usable.addEntries {o : Options} (usable : o.Usable) (entries : List (String × Data)) :
    (entries.foldl (fun o (key, value) => o.addEntry key value) o).Usable := by
  induction entries generalizing o with
  | nil => exact usable
  | cons entry entries ih => exact ih (usable.addEntry entry.1 entry.2)

/-! Writing options down -/

/-- The entries that stand for options. -/
def entries (o : Options) : List (String × Data) :=
  [("module", .text o.module.name), ("target", .text o.target.name)] ++
    (o.lib.map fun names => ("lib", Data.list (names.map .text))).toList

theorem libraryLower : ∀ n ∈ libraryNames, Text.lower n = n := by decide

theorem moduleNamed (m : ModuleKind) : choose? ModuleKind.all ModuleKind.name (.text m.name) = some m := by
  cases m <;> decide

theorem targetNamed (t : Target) : choose? Target.all Target.name (.text t.name) = some t := by
  cases t <;> decide

theorem librariesNamed {names : List String} (known : ∀ n ∈ names, n ∈ libraryNames) :
    (names.map Data.text).map (fun item => Text.lower item.plain) = names := by
  rw [List.map_map]
  exact (List.map_congr_left fun n member => libraryLower n (known n member)).trans (List.map_id _)

theorem moduleTaken (o : Options) (m : ModuleKind) : o.addEntry "module" (.text m.name) = { o with module := m } := by
  unfold addEntry
  dsimp only
  rw [moduleNamed]
  rfl

theorem targetTaken (o : Options) (t : Target) : o.addEntry "target" (.text t.name) = { o with target := t } := by
  unfold addEntry
  dsimp only
  rw [targetNamed]
  rfl

theorem librariesTaken (o : Options) {names : List String} (known : ∀ n ∈ names, n ∈ libraryNames) :
    o.addEntry "lib" (.list (names.map .text)) = { o with lib := some names } := by
  have all (n : String) (member : n ∈ names) : isLibrary n = true := List.contains_iff_mem.mpr (known n member)
  have kept : names.filter isLibrary = names := List.filter_eq_self.mpr all
  have unkept : names.filter (!isLibrary ·) = [] := List.filter_eq_nil_iff.mpr fun n member => by simp [all n member]
  unfold addEntry
  dsimp only
  rw [librariesNamed known, kept, unkept, List.map_nil, List.append_nil]
  rfl

theorem Usable.readAgain {o : Options} (usable : o.Usable) : ofEntries o.entries = { o with diagnostics := [] } := by
  obtain ⟨module, target, lib, diagnostics⟩ := o
  cases lib with
  | none => simp [ofEntries, entries, moduleTaken, targetTaken]
  | some names => simp [ofEntries, entries, moduleTaken, targetTaken, librariesTaken _ (usable names rfl)]

theorem Usable.accepted {o : Options} (usable : o.Usable) : ofEntriesStrict o.entries = .ok { o with diagnostics := [] } := by
  obtain ⟨module, target, lib, diagnostics⟩ := o
  cases lib with
  | none =>
    simp [ofEntriesStrict, entries, moduleNamed, targetNamed, List.lookup_cons]
    rfl
  | some names =>
    have known : ∀ n ∈ names, n ∈ libraryNames := usable names rfl
    have found : names.find? (!isLibrary ·) = none := List.find?_eq_none.mpr fun n member => by
      simp [isLibrary, known n member]
    simp [ofEntriesStrict, entries, moduleNamed, targetNamed, List.lookup_cons, -List.map_map, -List.find?_map]
    rw [librariesNamed known, found]
    rfl

end Options

open Options

/-- What options read from entries are like. -/
structure OptionsRead (entries : List (String × Data)) (o : Options) : Prop where
  libraries : ∀ names, o.lib = some names → ∀ n ∈ names, n ∈ libraryNames ∧ Text.lower n = n
  /-- Every problem is reported, and nothing else. -/
  reported : o.diagnostics.length = unknownKeys entries +
    wrongChoices entries "module" (ModuleKind.all.map ModuleKind.name) +
    wrongChoices entries "target" (Target.all.map Target.name) + wrongLists entries + unknownLibraries entries
  accepted : ofEntriesStrict o.entries = .ok { o with diagnostics := [] }
  again : ofEntries o.entries = { o with diagnostics := [] }

end Fragment
