import Fragment.Proofs.LabelledFiles
import Fragment.Proofs.Loading
import Fragment.Proofs.NodeNumbers

/-! The numbers of the files of a compilation.
Libraries are read before the fragment, and numbers are handed out in the order of reading. So all nodes of libraries
have lower numbers than those of the fragment. -/
namespace Fragment

open Source (SourceFile Node Stmt Expr Builder parseFrom isDeclarationName)

namespace Source

variable {start next : Nat} {text path : String} {file : SourceFile}

/-- The nodes of a parsed file have numbers of their own, between the first one and the next one. -/
theorem parseSpread (parsed : parseFrom start text path = .ok (file, next)) :
    Spread start next (file.statements.map .statement) := by
  unfold parseFrom at parsed
  obtain ⟨raw, -, parsed⟩ := okBind parsed
  obtain ⟨trees, -, parsed⟩ := okBind parsed
  obtain ⟨made, built, parsed⟩ := okBind parsed
  cases parsed
  exact (NumbersFrom.each (treesSpread _).stmt made.1 made.2 (okMapError built)).2

theorem parseNumbers (parsed : parseFrom start text path = .ok (file, next)) :
    start ≤ next ∧ ∀ st ∈ file.statements, (Node.statement st).All fun i => start ≤ i ∧ i < next :=
  ⟨(parseSpread parsed).order, fun _ member => (parseSpread parsed).range _ (List.mem_map_of_mem member)⟩

/-- In a file that is one expression the numbers in functions are told apart from those of the names outside. -/
theorem parseSplits (parsed : parseFrom start text path = .ok (file, next)) {m : Mark} {e : Expr}
    (single : file.statements = [.expr m e]) : ∃ A : Nat → Prop, (Node.expression e).Splits A := by
  unfold parseFrom at parsed
  obtain ⟨raw, -, parsed⟩ := okBind parsed
  obtain ⟨trees, -, parsed⟩ := okBind parsed
  obtain ⟨⟨made, k⟩, built, parsed⟩ := okBind parsed
  cases parsed
  have built := okMapError built
  cases nodes : trees.flatMap Tree.nodes with
  | nil =>
    rw [nodes] at built
    cases built
    cases single
  | cons first rest =>
    rw [nodes, List.mapM_cons] at built
    obtain ⟨st, k, ran, built⟩ := builderBindRun built
    obtain ⟨more, k', -, built⟩ := builderBindRun built
    cases built
    obtain ⟨rfl, -⟩ := List.cons.inj single
    exact stmtSplits _ first ran

theorem libraryIsDeclaration (name : String) : isDeclarationName (libraryPath name) = true := by
  unfold isDeclarationName String.endsWith
  rw [String.Slice.endsWith_string_iff, String.copy_toSlice]
  exact ⟨("/lib/lib." ++ name).toList, by simp [libraryPath]⟩

end Source

namespace Compilation

variable {c d : Compilation}

/-- The nodes of a file have numbers of their own, and files under different paths have different numbers. -/
structure Numbered (c : Compilation) : Prop where
  spread : ∀ entry ∈ c.sources, ∃ low high, Source.Spread low high (entry.2.statements.map .statement) ∧ high ≤ c.nextNode
  disjoint : ∀ entry ∈ c.sources, ∀ other ∈ c.sources, entry.1 ≠ other.1 →
    ∀ st ∈ entry.2.statements, ∀ st' ∈ other.2.statements, (Node.statement st).Disjoint (.statement st')

theorem Numbered.below (numbered : c.Numbered) {entry : String × SourceFile} (member : entry ∈ c.sources) {st : Stmt}
    (stands : st ∈ entry.2.statements) {i : Nat} (has : (Node.statement st).Has i) : i < c.nextNode := by
  obtain ⟨low, high, spread, before⟩ := numbered.spread entry member
  exact ((spread.range _ (List.mem_map_of_mem stands)).has has).2.trans_le before

theorem readNumbered {file : Option SourceFile} {path : String} (numbered : c.Numbered)
    (read : c.read path = .ok (file, d)) : d.Numbered := by
  unfold Compilation.read at read
  obtain ⟨text, -, read⟩ := okBind read
  dsimp only at read
  split at read
  next file next parsed =>
    cases read
    have spread := Source.parseSpread parsed
    -- All numbers of the new file are higher than those of the files before it.
    have above {entry : String × SourceFile} (old : entry ∈ c.sources) : ∀ st ∈ entry.2.statements,
        ∀ st' ∈ file.statements, (Node.statement st).Disjoint (.statement st') := fun st stands st' stands' i has has' =>
      Nat.not_lt.mpr ((spread.range _ (List.mem_map_of_mem stands')).has has').1 (numbered.below old stands has)
    refine ⟨fun entry member => ?_, fun entry member other member' different => ?_⟩
    · rcases memPut entry member with rfl | old
      · exact ⟨_, _, spread, le_rfl⟩
      · obtain ⟨low, high, spread', before⟩ := numbered.spread entry old
        exact ⟨low, high, spread', before.trans spread.order⟩
    · rcases memPut entry member with rfl | old <;> rcases memPut other member' with rfl | old'
      · exact absurd rfl different
      · exact fun st stands st' stands' => (above old' st' stands' st stands).symm
      · exact above old
      · exact numbered.disjoint entry old other old' different
  next =>
    cases read
    exact ⟨numbered.spread, numbered.disjoint⟩
  next => cases read

theorem loadNumbered {roots : List String} {options : Options} {files : Files} (loaded : load roots options files = .ok c) :
    c.Numbered :=
  loadInduction (fun _ _ _ _ => readNumbered) (fun _ _ numbered => ⟨numbered.spread, numbered.disjoint⟩) ⟨nofun, nofun⟩ loaded

/-- Only libraries have been read, and their nodes have numbers below the next one. -/
structure Bundled (c : Compilation) : Prop where
  order : rootPath ∉ c.order
  unread : c.source? rootPath = none
  files : ∀ entry ∈ c.sources, isDeclarationName entry.2.name = true ∧
    ∀ st ∈ entry.2.statements, (Node.statement st).All (· < c.nextNode)

theorem lookupPut {α : Type} (sources : List (String × α)) (path other : String) (a : α) :
    (put sources path a).lookup other = if other = path then some a else sources.lookup other := by
  have cons (key : String) (b : α) (rest : List (String × α)) :
      ((key, b) :: rest).lookup other = if other = key then some b else rest.lookup other := by
    by_cases same : other = key
    · simp [List.lookup, same]
    · simp [List.lookup, same, beq_false_of_ne same]
  induction sources with
  | nil => exact cons path a []
  | cons first rest ih =>
    obtain ⟨key, b⟩ := first
    unfold put
    split
    next own =>
      subst own
      simp only [cons]
      split <;> rfl
    next apart =>
      simp only [cons, ih]
      split
      next own => rw [if_neg (own ▸ apart)]
      next => rfl

theorem readBundled {file : Option SourceFile} {name : String} (bundled : c.Bundled)
    (read : c.read (libraryPath name) = .ok (file, d)) : d.Bundled := by
  have order : rootPath ∉ c.order ++ [libraryPath name] := by simp [bundled.order, (libraryPathNeRoot name).symm]
  unfold Compilation.read at read
  obtain ⟨text, -, read⟩ := okBind read
  dsimp only at read
  split at read
  next file next parsed =>
    cases read
    obtain ⟨after, numbers⟩ := Source.parseNumbers parsed
    refine ⟨order, ?_, fun entry member => ?_⟩
    · rw [source?, lookupPut, if_neg (libraryPathNeRoot name).symm]
      exact bundled.unread
    rcases memPut entry member with rfl | old
    · exact ⟨parseName parsed ▸ Source.libraryIsDeclaration name, fun st member => (numbers st member).imp fun _ => And.right⟩
    · obtain ⟨declares, below⟩ := bundled.files entry old
      exact ⟨declares, fun st member => (below st member).imp fun i low => Nat.lt_of_lt_of_le low after⟩
  next =>
    cases read
    exact ⟨order, bundled.unread, bundled.files⟩
  next => cases read

theorem readLibrariesBundled {fuel : Nat} {queue : List String} (bundled : c.Bundled)
    (read : readLibraries fuel queue c = .ok d) : d.Bundled := by
  induction fuel generalizing queue c with
  | zero =>
    cases read
    exact bundled
  | succ fuel ih =>
    cases queue with
    | nil =>
      cases read
      exact bundled
    | cons name queue =>
      unfold readLibraries at read
      dsimp only at read
      split at read
      case isTrue => exact ih bundled read
      case isFalse =>
        obtain ⟨⟨file, next⟩, first, read⟩ := okBind read
        have after := readBundled bundled first
        exact ih (by exact ⟨after.order, after.unread, after.files⟩) read

/-- The files of a compilation, if the fragment among them has been parsed: the libraries, then the fragment. -/
structure Fragmented (c : Compilation) (file : SourceFile) (libraries : List SourceFile) (start : Nat) : Prop where
  files : c.sourceFiles = libraries ++ [file]
  declares : ∀ f ∈ libraries, isDeclarationName f.name = true
  below : ∀ f ∈ libraries, ∀ st ∈ f.statements, (Node.statement st).All (· < start)
  parsed : ∃ text next, parseFrom start text rootPath = .ok (file, next)

/-- The fragment is read last. -/
theorem loadFragmented {options : Options} {files : Files} {file : SourceFile}
    (loaded : load [rootPath] options files = .ok c) (root : c.source? rootPath = some file) :
    ∃ libraries start, c.Fragmented file libraries start := by
  rw [loadRoot] at loaded
  obtain ⟨b, first, loaded⟩ := okBind loaded
  obtain ⟨⟨read, d⟩, last, loaded⟩ := okBind loaded
  cases loaded
  have bundled : b.Bundled := readLibrariesBundled ⟨by simp, rfl, by simp⟩ first
  unfold Compilation.read at last
  obtain ⟨text, -, last⟩ := okBind last
  dsimp only at last
  split at last
  next made next parsed =>
    cases last
    obtain rfl : made = file := by
      rw [source?, lookupPut, if_pos rfl] at root
      exact Option.some.inj root
    have others : b.order.filterMap (source? { b with sources := put b.sources rootPath made }) = b.sourceFiles := by
      refine List.filterMap_congr fun path member => ?_
      rw [source?, lookupPut, if_neg fun same : path = rootPath => bundled.order (same ▸ member)]
      rfl
    have known {f : SourceFile} (member : f ∈ b.sourceFiles) : ∃ path, (path, f) ∈ b.sources := by
      obtain ⟨path, -, found⟩ := List.mem_filterMap.mp member
      obtain ⟨_, _, sources, _⟩ := List.lookup_eq_some_iff.mp found
      exact ⟨path, by simp [sources]⟩
    refine ⟨b.sourceFiles, b.nextNode, ⟨?_, fun f member => ?_, fun f member => ?_, text, next, parsed⟩⟩
    · rw [sourceFiles, List.filterMap_append]
      refine congrArg₂ (· ++ ·) others ?_
      simp only [List.filterMap_cons, List.filterMap_nil, root]
    · obtain ⟨path, there⟩ := known member
      exact (bundled.files _ there).1
    · obtain ⟨path, there⟩ := known member
      exact (bundled.files _ there).2
  next =>
    cases last
    cases bundled.unread.symm.trans root
  next => cases last

end Compilation

end Fragment
