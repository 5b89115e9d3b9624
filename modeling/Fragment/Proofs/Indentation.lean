import Fragment.Proofs.CodeLines
import Mathlib.Data.List.Chain

/-! How the lines of code are indented.
A part one deeper stands behind every head of a statement and nowhere else, and every other branch stands
behind the branch that it belongs to. Lines of statements keep this when they are put one behind the other
or under a head. -/
namespace Fragment.Target

open Source (IsWord)

/-! Heads -/

/-- What heads of statements begin with. -/
def headWords : List String := ["def ", "async def ", "if ", "while "]

/-- The head of a condition. -/
def Line.IsCondition (l : Line) : Prop := ∃ test, l.text = "if " ++ test ++ ":"

/-- The head of the other branch of a condition. -/
def Line.IsAlternative (l : Line) : Prop := l.text = "else:"

/-- A head, which a deeper part belongs to. -/
def Line.IsHead (l : Line) : Prop := l.IsAlternative ∨ ∃ word ∈ headWords, ∃ inner, l.text = word ++ inner ++ ":"

variable {l : Line} {xs ys : List Line} {depth : Nat}

theorem Line.IsCondition.head (condition : l.IsCondition) : l.IsHead := by
  obtain ⟨test, same⟩ := condition
  exact .inr ⟨"if ", by simp [headWords], test, same⟩

/-- A line that ends with something other than a colon is no head. -/
theorem Ends.noHead (ends : Ends l.text) : ¬l.IsHead := by
  obtain ⟨c, last, colon⟩ := ends
  rintro (alternative | ⟨word, -, inner, same⟩)
  · rw [alternative] at last
    exact colon (Option.some.inj last).symm
  · rw [same] at last
    simp at last
    exact colon last.symm

/-! Parts -/

/-- The next line is deeper by one behind a head, and not deeper behind any other line. -/
def Line.Before (a b : Line) : Prop := (a.IsHead ∧ b.depth = a.depth + 1) ∨ (¬a.IsHead ∧ b.depth ≤ a.depth)

/-- Lines of statements at one depth. -/
structure Nested (depth : Nat) (lines : List Line) : Prop where
  inside : ∀ l ∈ lines, depth ≤ l.depth
  starts : ∀ l ∈ lines.head?, l.depth = depth
  steps : lines.IsChain Line.Before
  ends : ∀ l ∈ lines.getLast?, ¬l.IsHead

/-- Lines in which each other branch stands behind the branch of a condition at its depth. -/
def Paired (lines : List Line) : Prop :=
  ∀ before l after, lines = before ++ l :: after → l.IsAlternative →
    ∃ front condition branch, before = front ++ condition :: branch ∧ condition.IsCondition ∧
      condition.depth = l.depth ∧ branch ≠ [] ∧ ∀ inner ∈ branch, l.depth < inner.depth

theorem Nested.nil (depth : Nat) : Nested depth [] := ⟨nofun, nofun, .nil, nofun⟩

theorem Nested.single (plain : ¬l.IsHead) : Nested l.depth [l] := by
  refine ⟨by simp, by simp, .singleton l, fun m last => ?_⟩
  cases last
  exact plain

theorem Nested.append (first : Nested depth xs) (second : Nested depth ys) : Nested depth (xs ++ ys) := by
  refine ⟨fun l member => ?_, fun l head => ?_, ?_, fun l last => ?_⟩
  · exact (List.mem_append.mp member).elim (first.inside l) (second.inside l)
  · rw [List.head?_append] at head
    cases one : xs.head? with
    | none => exact second.starts l (by simpa [one] using head)
    | some m => exact first.starts l (by simpa [one] using head)
  · refine List.isChain_append.mpr ⟨first.steps, second.steps, fun a last b head => .inr ⟨first.ends a last, ?_⟩⟩
    rw [second.starts b head]
    exact first.inside a (List.mem_of_mem_getLast? last)
  · rw [List.getLast?_append] at last
    cases two : ys.getLast? with
    | none => exact first.ends l (by simpa [two] using last)
    | some m => exact second.ends l (by simpa [two] using last)

/-- A part under a head. -/
theorem Nested.under (head : l.IsHead) (some : xs ≠ []) (part : Nested (l.depth + 1) xs) : Nested l.depth (l :: xs) := by
  refine ⟨fun m member => ?_, by simp, ?_, fun m last => ?_⟩
  · rcases List.mem_cons.mp member with rfl | inner
    · exact Nat.le_refl _
    · exact Nat.le_of_succ_le (part.inside m inner)
  · exact List.isChain_cons.mpr ⟨fun m next => .inl ⟨head, part.starts m next⟩, part.steps⟩
  · exact part.ends m (by simpa [List.getLast?_cons, List.getLast?_eq_some_getLast some] using last)

theorem Paired.nil : Paired [] := fun before _ _ same => by simp at same

theorem Paired.cons (other : ¬l.IsAlternative) (paired : Paired xs) : Paired (l :: xs) := by
  intro before m after same alternative
  cases before with
  | nil =>
    obtain ⟨rfl, -⟩ := List.cons.inj same
    exact absurd alternative other
  | cons first before =>
    obtain ⟨rfl, rest⟩ := List.cons.inj same
    obtain ⟨front, condition, branch, rfl, found⟩ := paired before m after rest alternative
    exact ⟨l :: front, condition, branch, rfl, found⟩

/-- A place in a list that is put together from two. -/
theorem placeInAppend {before after : List Line} (same : xs ++ ys = before ++ l :: after) :
    (∃ rest, xs = before ++ l :: rest) ∨ ∃ front, before = xs ++ front ∧ ys = front ++ l :: after := by
  rcases List.append_eq_append_iff.mp same with ⟨front, first, second⟩ | ⟨rest, first, second⟩
  · exact .inr ⟨front, first, second⟩
  · cases rest with
    | nil => exact .inr ⟨[], by simpa using first.symm, second.symm⟩
    | cons m rest =>
      obtain ⟨rfl, -⟩ := List.cons.inj second
      exact .inl ⟨rest, first⟩

theorem Paired.append (first : Paired xs) (second : Paired ys) : Paired (xs ++ ys) := by
  intro before l after same alternative
  rcases placeInAppend same with ⟨rest, here⟩ | ⟨front, rfl, there⟩
  · exact first before l rest here alternative
  · obtain ⟨front, condition, branch, rfl, found⟩ := second front l after there alternative
    exact ⟨xs ++ front, condition, branch, by simp, found⟩

/-- Two branches of a condition under their heads. -/
theorem Paired.branches {other : Line} (condition : l.IsCondition) (level : l.depth = other.depth) (some : xs ≠ [])
    (yes : Nested (l.depth + 1) xs) (first : Paired (l :: xs)) (second : Paired ys) :
    Paired (l :: xs ++ other :: ys) := by
  intro before m after same alternative
  rcases placeInAppend same with ⟨rest, here⟩ | ⟨front, rfl, there⟩
  · exact first before m rest here alternative
  · cases front with
    | nil =>
      obtain ⟨rfl, -⟩ := List.cons.inj there
      exact ⟨[], l, xs, by simp, condition, level, some, fun inner member => level ▸ yes.inside inner member⟩
    | cons n front =>
      obtain ⟨rfl, inside⟩ := List.cons.inj there
      obtain ⟨front, condition, branch, rfl, found⟩ := second front m after inside alternative
      exact ⟨l :: xs ++ other :: front, condition, branch, by simp, found⟩

/-! Statements -/

/-- The lines of statements at one depth. -/
structure Block (depth : Nat) (lines : List Line) : Prop where
  neat : ∀ l ∈ lines, l.Neat
  nested : Nested depth lines
  paired : Paired lines

theorem Block.nil (depth : Nat) : Block depth [] := ⟨nofun, .nil depth, .nil⟩

theorem Block.append (first : Block depth xs) (second : Block depth ys) : Block depth (xs ++ ys) := by
  refine ⟨fun l member => ?_, first.nested.append second.nested, first.paired.append second.paired⟩
  exact (List.mem_append.mp member).elim (first.neat l) (second.neat l)

/-- A line that is no head. -/
theorem Block.single {text : String} (piece : Piece text) (depth : Nat) : Block depth [⟨depth, text⟩] := by
  have plain : ¬(⟨depth, text⟩ : Line).IsHead := piece.ends.noHead
  refine ⟨fun l member => ?_, .single plain, .cons (fun alternative => plain (.inl alternative)) .nil⟩
  obtain rfl := List.mem_singleton.mp member
  exact ⟨piece.unbroken, piece.begins⟩

theorem headWordsOther : ∀ word ∈ headWords, word.toList ≠ [] ∧ word.toList.head? ≠ some 'e' := by decide

theorem wordNotAlternative {word inner : String} (known : word ∈ headWords) : word ++ inner ++ ":" ≠ "else:" := by
  intro same
  obtain ⟨some, other⟩ := headWordsOther word known
  have first := congrArg (fun t => t.toList.head?) same
  rw [String.append_assoc, String.toList_append, List.head?_append_of_ne_nil _ some] at first
  exact other first

/-- A part under a head that begins with a word. -/
theorem Block.under {word inner : String} (known : word ∈ headWords)
    (neat : Unbroken (word ++ inner ++ ":") ∧ Begins (word ++ inner ++ ":")) (some : xs ≠ []) (part : Block (depth + 1) xs) :
    Block depth (⟨depth, word ++ inner ++ ":"⟩ :: xs) := by
  have head : (⟨depth, word ++ inner ++ ":"⟩ : Line).IsHead := .inr ⟨word, known, inner, rfl⟩
  refine ⟨fun l member => ?_, .under head some part.nested, ?_⟩
  · rcases List.mem_cons.mp member with rfl | inside
    · exact ⟨neat.1, neat.2⟩
    · exact part.neat l inside
  · exact .cons (wordNotAlternative known) part.paired

/-- A condition with both branches. -/
theorem Block.branches {test : String} (neat : Unbroken ("if " ++ test ++ ":") ∧ Begins ("if " ++ test ++ ":"))
    (someYes : xs ≠ []) (yes : Block (depth + 1) xs) (someNo : ys ≠ []) (no : Block (depth + 1) ys) :
    Block depth (⟨depth, "if " ++ test ++ ":"⟩ :: xs ++ ⟨depth, "else:"⟩ :: ys) := by
  have known : "if " ∈ headWords := by simp [headWords]
  have first := Block.under known neat someYes yes
  have head : (⟨depth, "else:"⟩ : Line).IsHead := .inl rfl
  have other : Unbroken "else:" ∧ Begins "else:" := ⟨by decide, 'e', by decide, by decide⟩
  refine ⟨fun l member => ?_, first.nested.append (.under head someNo no.nested), ?_⟩
  · rcases List.mem_append.mp member with here | there
    · exact first.neat l here
    · rcases List.mem_cons.mp there with rfl | inside
      · exact ⟨other.1, other.2⟩
      · exact no.neat l inside
  · exact .branches ⟨test, rfl⟩ rfl someYes yes.nested first.paired no.paired

/-- The head of a function definition is a word, what it is followed by, and a colon. -/
theorem defineHeadParts (name : String) (isAsync : Bool) (params : List Param) :
    ∃ word ∈ headWords, ∃ inner, defineHead name isAsync params = word ++ inner ++ ":" := by
  refine ⟨if isAsync then "async def " else "def ", by cases isAsync <;> simp [headWords],
    name ++ ("(" ++ (", ".intercalate (params.map Param.render) ++ ")")), ?_⟩
  have closed : "):" = ")" ++ ":" := by decide
  rw [defineHead, closed]
  simp only [String.append_assoc]

/-- A head of a statement about a value. -/
theorem headNeat {word inner : String} (known : word ∈ headWords) (unbroken : Unbroken inner) :
    Unbroken (word ++ inner ++ ":") ∧ Begins (word ++ inner ++ ":") := by
  have plain : ∀ word ∈ headWords, Unbroken word := by decide
  have begins : ∀ word ∈ headWords, Begins word := by
    simp only [headWords, List.forall_mem_cons]
    exact ⟨⟨'d', rfl, rfl⟩, ⟨'a', rfl, rfl⟩, ⟨'i', rfl, rfl⟩, ⟨'w', rfl, rfl⟩, nofun⟩
  exact ⟨by simp +decide only [unbrokenAppend, plain word known, unbroken], ((begins word known).append _).append _⟩

mutual

/-- The lines of a statement are a block with at least one line. -/
theorem Stmt.linesBlock : (s : Stmt) → s.Worded → (depth : Nat) → s.lines depth ≠ [] ∧ Block depth (s.lines depth)
  | .assign x value, worded, depth => by
    have name := wordPiece worded.1
    have stored := renderPiece value worded.2
    refine ⟨List.cons_ne_nil _ _, .single ⟨?_, (name.begins.append _).append _, .append _ stored.ends⟩ depth⟩
    simp +decide only [unbrokenAppend, name.unbroken, stored.unbroken]
  | .expr value, worded, depth => ⟨List.cons_ne_nil _ _, .single (renderPiece value worded) depth⟩
  | .ret value, worded, depth => by
    have given := renderPiece value worded
    refine ⟨List.cons_ne_nil _ _, .single ⟨?_, .append ⟨'r', rfl, by decide⟩ _, .append _ given.ends⟩ depth⟩
    simp +decide only [unbrokenAppend, given.unbroken]
  | .cond test yes no, worded, depth => by
    obtain ⟨tested, someYes, wordedYes, wordedNo⟩ := worded
    obtain ⟨filled, yes⟩ := linesOfBlock yes wordedYes (depth + 1)
    have known : "if " ∈ headWords := by simp [headWords]
    have head := headNeat known (renderPiece test tested).unbroken
    refine ⟨List.cons_ne_nil _ _, ?_⟩
    cases no with
    | none => exact (Block.under known head (filled someYes) yes).append (.nil depth)
    | some no =>
      obtain ⟨filledNo, no⟩ := linesOfBlock no wordedNo.2 (depth + 1)
      exact .branches head (filled someYes) yes (filledNo wordedNo.1) no
  | .loop test body, worded, depth => by
    obtain ⟨tested, some, wordedBody⟩ := worded
    obtain ⟨filled, body⟩ := linesOfBlock body wordedBody (depth + 1)
    have known : "while " ∈ headWords := by simp [headWords]
    exact ⟨List.cons_ne_nil _ _, .under known (headNeat known (renderPiece test tested).unbroken) (filled some) body⟩
  | .brk, _, depth | .cont, _, depth | .pass, _, depth =>
    ⟨List.cons_ne_nil _ _, .single (.ofChars (by decide) (by decide)) depth⟩
  | .globals names, words, depth | .nonlocals names, words, depth =>
    ⟨List.cons_ne_nil _ _, .single (namesPiece (by decide) ⟨_, rfl, by decide⟩ ⟨' ', rfl, by decide⟩ words) depth⟩
  | .collect x, word, depth => by
    have name := wordPiece word
    have closed : Ends "]" := ⟨']', rfl, by decide⟩
    refine ⟨List.cons_ne_nil _ _, .single ⟨?_, ((name.begins.append _).append _).append _, closed.append _⟩ depth⟩
    simp +decide only [unbrokenAppend, name.unbroken]
  | .define name isAsync params body, worded, depth => by
    obtain ⟨word, words, some, wordedBody⟩ := worded
    obtain ⟨filled, body⟩ := linesOfBlock body wordedBody (depth + 1)
    have head := defineHeadNeat word words isAsync
    obtain ⟨start, known, inner, parts⟩ := defineHeadParts name isAsync params
    rw [parts] at head
    refine ⟨List.cons_ne_nil _ _, ?_⟩
    unfold Stmt.lines
    rw [parts]
    exact .under known head (filled some) body

theorem linesOfBlock : (ss : List Stmt) → WordedStmts ss → (depth : Nat) →
    (ss ≠ [] → linesOf depth ss ≠ []) ∧ Block depth (linesOf depth ss)
  | [], _, depth => ⟨fun some => absurd rfl some, .nil depth⟩
  | s :: rest, worded, depth => by
    obtain ⟨filled, first⟩ := s.linesBlock worded.1 depth
    obtain ⟨-, later⟩ := linesOfBlock rest worded.2 depth
    exact ⟨fun _ => List.append_ne_nil_of_left_ne_nil filled _, first.append later⟩

end

/-! Modules -/

/-- A module whose source has a name without line ends is one block. -/
theorem Module.linesBlock {m : Module} (source : Unbroken m.source) (worded : WordedStmts m.body) : Block 0 m.lines := by
  have comment : Piece ("# Generated by fragc from " ++ m.source ++ ".") := by
    have begins : Begins "# Generated by fragc from " := ⟨'#', rfl, by decide⟩
    have ends : Ends "." := ⟨'.', rfl, by decide⟩
    refine ⟨?_, (begins.append _).append _, ends.append _⟩
    simp +decide only [unbrokenAppend, source]
  exact (Block.single comment 0).append (linesOfBlock m.body worded 0).2

theorem Module.linesOfRender {m : Module} (block : Block 0 m.lines) :
    Text.lines m.render.toList = m.lines.map fun l => l.render.toList := linesOfJoin block.neat

end Fragment.Target
