import Fragment.Proofs.Nearest
import Fragment.Proofs.Numbering

/-! The libraries that come with options, found twice.
Declarations are loaded by name from the texts of libraries; a compilation then reads them by path and
follows the references of what it has parsed. Both are runs of one work list, so a compilation finds
every file that it asks for. -/
namespace Fragment

open Declarations (loadQueue loadWith queueBound)
open Nearest (Visits BreadthFirst visit)
open Source (parse parseFrom references)

/-- Options as they are made: of entries with problems reported, or of entries that have to be right. -/
inductive Options.Made : Options → Prop
  | lenient (entries : List (String × Data)) : Made (.ofEntries entries)
  | strict {o : Options} (entries : List (String × Data)) (ok : Options.ofEntriesStrict entries = .ok o) : Made o

def Options.Listed (o : Options) : Prop := ∀ names, o.lib = some names → ∀ name ∈ names, isLibrary name

theorem addEntryListed {o : Options} (listed : o.Listed) (key : String) (value : Data) : (o.addEntry key value).Listed := by
  unfold Options.addEntry
  repeat' split
  all_goals first
    | exact listed
    | rintro names ⟨⟩ name member
      exact (List.mem_filter.mp member).2

theorem ofEntriesListed (entries : List (String × Data)) : (Options.ofEntries entries).Listed := by
  unfold Options.ofEntries
  have first : ({} : Options).Listed := fun _ h => by cases h
  revert first
  generalize ({} : Options) = o
  intro listed
  induction entries generalizing o with
  | nil => exact listed
  | cons entry rest ih => exact ih _ (addEntryListed listed entry.1 entry.2)

theorem ofEntriesStrictListed {entries : List (String × Data)} {o : Options}
    (ok : Options.ofEntriesStrict entries = .ok o) : o.Listed := by
  -- The last step looks for a name that is not bundled, and there is none.
  have last {names : Option (List String)} {made : Options} (lib : made.lib = names)
      (none : (names.getD []).find? (!isLibrary ·) = none) : made.Listed := by
    intro listed some name member
    have known := List.find?_eq_none.mp none name (by simpa [← lib, some] using member)
    simpa using known
  simp only [Options.ofEntriesStrict, bind, Except.bind] at ok
  repeat' split at ok
  all_goals cases ok
  all_goals exact last rfl (by assumption)

theorem Options.Made.librariesKnown {o : Options} (made : o.Made) : ∀ name ∈ o.libraries, isLibrary name := by
  have listed : o.Listed := by
    cases made with
    | lenient entries => exact ofEntriesListed entries
    | strict entries ok => exact ofEntriesStrictListed ok
  unfold Options.libraries
  cases lib : o.lib with
  | some names => exact listed names lib
  | none => cases o.target <;> decide

theorem libraryPathInjective : Function.Injective libraryPath := by
  intro a b same
  have same := congrArg String.toList same
  simp only [libraryPath, String.toList_append, List.append_assoc, List.append_cancel_left_eq,
    List.append_cancel_right_eq] at same
  exact String.toList_inj.mp same

theorem libraryPathNeRoot (name : String) : libraryPath name ≠ rootPath := by
  intro same
  have second := congrArg (fun path => path.toList[1]?) same
  simp [libraryPath, rootPath] at second

namespace Declarations

/-- The bundled libraries that a library refers to. -/
def referred (textOf : String → String) (name : String) : List String := (references (textOf name)).filter isLibrary

def filesOf (textOf : String → String) (names : List String) : Files := ⟨names.map fun n => (libraryPath n, textOf n)⟩

variable {textOf : String → String} {names : List String} {name : String}

theorem filesOfPaths : (filesOf textOf names).paths = names.map libraryPath := by
  simp [filesOf, Files.paths]

theorem memPaths : libraryPath name ∈ names.map libraryPath ↔ name ∈ names :=
  List.mem_map_of_injective libraryPathInjective

theorem loadQueueVisits (fuel : Nat) (queue taken : List String) :
    loadQueue textOf fuel queue (filesOf textOf taken) = filesOf textOf (visit (referred textOf) fuel queue taken) := by
  induction fuel generalizing queue taken with
  | zero => rfl
  | succ fuel ih =>
    cases queue with
    | nil => rfl
    | cons name queue =>
      simp only [loadQueue, visit, filesOfPaths, List.contains_iff_mem, memPaths]
      split
      · exact ih queue taken
      · rw [← ih]
        simp [filesOf, referred]

theorem queueBoundEq :
    queueBound textOf names = names.length + ∑ n ∈ libraryNames.toFinset, (references (textOf n)).length := by
  have distinct : libraryNames.Nodup := by decide
  rw [List.sum_toFinset _ distinct, queueBound]
  generalize names.length = start
  generalize libraryNames = known
  induction known generalizing start with
  | nil => rfl
  | cons n known ih => simp [ih, Nat.add_assoc]

/-- The bound suffices for any references that are among those of the texts. -/
theorem boundSuffices {refs : String → List String} {known : Finset String} (bundled : known ⊆ libraryNames.toFinset)
    (fewer : ∀ n ∈ known, (refs n).length ≤ (references (textOf n)).length) :
    names.length + ∑ n ∈ known \ ([] : List String).toFinset, (refs n).length ≤ queueBound textOf names := by
  rw [queueBoundEq, List.toFinset_nil, Finset.sdiff_empty]
  gcongr
  calc ∑ n ∈ known, (refs n).length
    _ ≤ ∑ n ∈ known, (references (textOf n)).length := Finset.sum_le_sum fewer
    _ ≤ ∑ n ∈ libraryNames.toFinset, (references (textOf n)).length := Finset.sum_le_sum_of_subset bundled

theorem isLibraryIff : isLibrary name ↔ name ∈ libraryNames.toFinset := by simp [isLibrary]

/-- The libraries that some bundled ones bring in, in the order of loading. -/
theorem loadWithVisits (textOf : String → String) (bundled : ∀ n ∈ names, isLibrary n) :
    ∃ all, Visits (referred textOf) names [] all ∧
      ∀ fuel ≥ queueBound textOf names, loadQueue textOf fuel names {} = filesOf textOf all := by
  have closed (n : String) (_ : n ∈ libraryNames.toFinset) (m : String) (refers : m ∈ referred textOf n) :
      m ∈ libraryNames.toFinset := isLibraryIff.mp (List.mem_filter.mp refers).2
  have ends (fuel : Nat) (enough : queueBound textOf names ≤ fuel) :
      Visits (referred textOf) names [] (visit (referred textOf) fuel names []) := by
    refine Nearest.visitEnds closed (fun n h => isLibraryIff.mp (bundled n h)) (le_trans ?_ enough)
    exact boundSuffices subset_rfl fun n _ => List.length_filter_le _ _
  refine ⟨_, ends _ le_rfl, fun fuel enough => ?_⟩
  rw [← (ends _ enough).unique (ends _ le_rfl)]
  exact loadQueueVisits fuel names []

end Declarations

/-- The bundled libraries that a compilation goes on to: an unparsed library refers to none. -/
def followed (textOf : String → String) (name : String) : List String :=
  match parse (textOf name) (libraryPath name) with
  | .ok _ => Declarations.referred textOf name
  | .error _ => []

namespace Compilation

variable {c d : Compilation} {textOf : String → String} {path text : String}

/-- Reading a file that is there stops only at a fault of its text. -/
theorem readThere (there : c.files.read path = .ok text) :
    (∃ fault, parse text path = .error (.fault fault) ∧ c.read path = .error (.fault fault)) ∨
    (∃ file d, (∀ fault, parse text path ≠ .error (.fault fault)) ∧ c.read path = .ok (file, d) ∧
      d.order = c.order ++ [path] ∧ d.files = c.files ∧
      file.elim [] (·.references) = match parse text path with
        | .ok _ => references text
        | .error _ => []) := by
  have alike := Source.parseFromAlike c.nextNode text path
  simp only [Compilation.read, Failure.ofError, there, Except.mapError, bind, Except.bind]
  cases here : parseFrom c.nextNode text path with
  | ok parsed =>
    cases whole : parse text path with
    | error e => simp [here, whole, Except.map] at alike
    | ok file =>
      exact .inr ⟨some parsed.1, _, by simp, rfl, rfl, rfl, Source.parseFromReferences here⟩
  | error e =>
    have whole : parse text path = .error e := by
      cases whole : parse text path <;> simp_all [Except.map]
    cases e with
    | diagnostic problem => exact .inr ⟨none, _, by simp [whole], rfl, rfl, rfl, by simp [whole]⟩
    | fault fault => exact .inl ⟨fault, whole, rfl⟩

/-- Reading a queue is a run of the work list, or stops at the fault of a library. -/
theorem readLibrariesVisits {files : Files} {known : List String}
    (there : ∀ n ∈ known, files.read (libraryPath n) = .ok (textOf n))
    (closed : ∀ n ∈ known, ∀ m ∈ followed textOf n, m ∈ known) (fuel : Nat) {queue taken : List String}
    (inside : ∀ n ∈ queue, n ∈ known) (own : c.files = files) (order : c.order = taken.map libraryPath) :
    (∃ n ∈ known, ∃ fault, parse (textOf n) (libraryPath n) = .error (.fault fault) ∧
      readLibraries fuel queue c = .error (.fault fault)) ∨
    (∃ d, readLibraries fuel queue c = .ok d ∧ d.files = files ∧
      d.order = (visit (followed textOf) fuel queue taken).map libraryPath) := by
  induction fuel generalizing queue taken c with
  | zero => exact .inr ⟨c, rfl, own, order⟩
  | succ fuel ih =>
    cases queue with
    | nil => exact .inr ⟨c, rfl, own, order⟩
    | cons name queue =>
      obtain ⟨here, inside⟩ := List.forall_mem_cons.mp inside
      unfold readLibraries
      simp only [visit, order, List.contains_iff_mem, Declarations.memPaths]
      split
      case isTrue => exact ih inside own order
      case isFalse =>
        have text := there name here
        rw [← own] at text
        obtain ⟨fault, bad, stopped⟩ | ⟨file, d, _, read, ordered, kept, names⟩ := readThere text
        · exact .inl ⟨name, here, fault, bad, by simp [stopped, bind, Except.bind]⟩
        · have goesOn : (file.elim [] (·.references)).filter isLibrary = followed textOf name := by
            rw [names, followed]
            cases parse (textOf name) (libraryPath name) <;> rfl
          simp only [read, bind, Except.bind, goesOn]
          refine ih ?_ (kept.trans own) (by simp [ordered, order])
          simpa [or_imp, forall_and] using ⟨inside, closed name here⟩

end Compilation

section Fragment

variable {textOf : String → String} {names : List String} {name : String}

theorem setRootEntry (source : String) :
    (Files.forFragment source (Declarations.filesOf textOf names)).entries =
      (Declarations.filesOf textOf names).entries ++ [(rootPath, source)] := by
  simp only [Files.forFragment, Files.insert, Declarations.filesOf]
  induction names with
  | nil => rfl
  | cons name names ih => simp [Files.setEntry, libraryPathNeRoot, ih]

theorem lookupLibrary (source : String) (member : name ∈ names) :
    (Files.forFragment source (Declarations.filesOf textOf names)).entries.lookup (libraryPath name) =
      some (textOf name) := by
  rw [setRootEntry, Declarations.filesOf]
  induction names with
  | nil => cases member
  | cons first names ih =>
    by_cases same : name = first
    · simp [same]
    · have apart : (libraryPath name == libraryPath first) = false := by simp [libraryPathInjective.eq_iff, same]
      simpa [List.lookup, apart] using ih (by simpa [same] using member)

theorem lookupRoot (source : String) :
    (Files.forFragment source (Declarations.filesOf textOf names)).entries.lookup rootPath = some source := by
  rw [setRootEntry, Declarations.filesOf]
  induction names with
  | nil => simp
  | cons first names ih =>
    have apart : (rootPath == libraryPath first) = false := by simp [(libraryPathNeRoot first).symm]
    simpa [List.lookup, apart] using ih

theorem followedReferred {other : String} (follows : other ∈ followed textOf name) :
    other ∈ Declarations.referred textOf name := by
  unfold followed at follows
  split at follows
  · exact follows
  · cases follows

theorem followedLength : (followed textOf name).length ≤ (references (textOf name)).length := by
  unfold followed
  split
  · exact List.length_filter_le _ _
  · exact Nat.zero_le _

/-- The bound that a compilation takes from its files suffices for the libraries that were loaded. -/
theorem readingEnds {all : List String} (source : String) (bundled : ∀ n ∈ all, isLibrary n)
    (listed : ∀ n ∈ names, n ∈ all) (closed : ∀ n ∈ all, ∀ m ∈ followed textOf n, m ∈ all) :
    let files := Files.forFragment source (Declarations.filesOf textOf all)
    let textAt (n : String) : String := (files.entries.lookup (libraryPath n)).getD ""
    Visits (followed textOf) names [] (visit (followed textOf) (queueBound textAt names) names []) := by
  intro files textAt
  have known : all.toFinset ⊆ libraryNames.toFinset :=
    fun n h => Declarations.isLibraryIff.mp (bundled n (List.mem_toFinset.mp h))
  have fewer (n : String) (h : n ∈ all.toFinset) : (followed textOf n).length ≤ (references (textAt n)).length := by
    have same : textAt n = textOf n := by
      simp only [textAt, files, lookupLibrary source (List.mem_toFinset.mp h), Option.getD_some]
    rw [same]
    exact followedLength
  exact Nearest.visitEnds (by simpa using closed) (by simpa using listed) (Declarations.boundSuffices known fewer)

theorem loadRoot (o : Options) (files : Files) :
    Compilation.load [rootPath] o files = (do
      let textAt (n : String) : String := (files.entries.lookup (libraryPath n)).getD ""
      let c ← Compilation.readLibraries (queueBound textAt o.libraries) o.libraries { options := o, roots := [rootPath], files }
      let (_, c) ← c.read rootPath
      return c) := rfl

/-- A compilation of the files that were loaded stops only at the fault of a text; else it has read
libraries that were loaded, and the fragment after them. -/
theorem loadLoaded {o : Options} {all : List String} (source : String) (bundled : ∀ n ∈ o.libraries, isLibrary n)
    (order : BreadthFirst (Declarations.referred textOf) o.libraries all) :
    ∃ read ⊆ all, Visits (followed textOf) o.libraries [] read ∧
      let loaded := Compilation.load [rootPath] o (Files.forFragment source (Declarations.filesOf textOf all))
      (∃ n ∈ all, ∃ fault, parse (textOf n) (libraryPath n) = .error (.fault fault) ∧ loaded = .error (.fault fault)) ∨
      (∃ fault, parse source rootPath = .error (.fault fault) ∧ loaded = .error (.fault fault)) ∨
      (∃ c, (∀ fault, parse source rootPath ≠ .error (.fault fault)) ∧ loaded = .ok c ∧
        c.order = read.map libraryPath ++ [rootPath]) := by
  have listed (n : String) (h : n ∈ o.libraries) : n ∈ all := (order.reached n).mpr ⟨0, .start h⟩
  have closed (n : String) (h : n ∈ all) (m : String) (follows : m ∈ followed textOf n) : m ∈ all := by
    obtain ⟨steps, reached⟩ := (order.reached n).mp h
    exact (order.reached m).mpr ⟨steps + 1, .next reached (followedReferred follows)⟩
  have known (n : String) (h : n ∈ all) : isLibrary n := by
    obtain ⟨steps, reached⟩ := (order.reached n).mp h
    exact reached.inside bundled fun _ _ m refers => (List.mem_filter.mp refers).2
  have run := readingEnds source known listed closed
  refine ⟨_, fun n h => ?_, run, ?_⟩
  · obtain ⟨steps, reached⟩ := (run.breadthFirst.reached n).mp h
    exact reached.inside listed closed
  intro loaded
  set files := Files.forFragment source (Declarations.filesOf textOf all) with own
  have there (n : String) (h : n ∈ all) : files.read (libraryPath n) = .ok (textOf n) := by
    simp only [Files.read, own, lookupLibrary source h]
  have rootThere : files.read rootPath = .ok source := by simp only [Files.read, own, lookupRoot]
  let start : Compilation := { options := o, roots := [rootPath], files }
  have unread : start.order = ([] : List String).map libraryPath := rfl
  obtain ⟨n, member, fault, bad, stopped⟩ | ⟨c, ok, kept, ordered⟩ :=
    Compilation.readLibrariesVisits there closed _ listed (rfl : start.files = files) unread
  · refine .inl ⟨n, member, fault, bad, ?_⟩
    simp only [loaded, loadRoot]
    rw [stopped]
    rfl
  · rw [← kept] at rootThere
    obtain ⟨fault, bad, stopped⟩ | ⟨_, d, fine, read, after, -⟩ := Compilation.readThere rootThere
    · refine .inr (.inl ⟨fault, bad, ?_⟩)
      simp only [loaded, loadRoot]
      rw [ok]
      simp [bind, Except.bind, stopped]
    · refine .inr (.inr ⟨d, fine, ?_, by rw [after, ordered]⟩)
      simp only [loaded, loadRoot]
      rw [ok]
      simp [bind, Except.bind, read, pure, Except.pure]

end Fragment

/-- Two libraries that refer to each other, one of them also to a third and to a name that is no
library. -/
def roundTexts : String → String
  | "es5" => "/// <reference lib=\"dom\" />"
  | "dom" => "/// <reference lib=\"ES5\" />\n/// <reference lib=\"nowhere\" />\n/// <reference lib=\"host\" />"
  | _ => ""

def roundOptions : Options := .ofEntries [("lib", .list [.text "dom", .text "Es5", .text "dom"])]

end Fragment
