import Fragment.Source.Layout
import Fragment.Source.Lexer
import Fragment.Source.Build

/-! Names in tokens and trees.
Only the lexer makes names, of characters that a name may have. Layout turns no other token into a name,
and recognition puts tokens into trees as they are. -/
namespace Fragment.Source

/-- What holds of every character of a list is decided by going through the list, not through all characters. -/
instance decidableChars {p : Char → Prop} [DecidablePred p] (cs : List Char) : Decidable (∀ c ∈ cs, p c) :=
  List.decidableBAll p cs

/-- Made of characters that a name may have. -/
def IsWord (name : String) : Prop := name.toList ≠ [] ∧ ∀ c ∈ name.toList, isNamePart c

instance (name : String) : Decidable (IsWord name) :=
  inferInstanceAs (Decidable (name.toList ≠ [] ∧ ∀ c ∈ name.toList, isNamePart c))

/-- A token that is spelled like a name if it is one. -/
def Token.Spelled (t : Token) : Prop := t.kind = .name → IsWord t.text

/-! Tokens -/

theorem operatorsNameless : ∀ o ∈ TokenKind.operators, o.2 ≠ .name := by decide

theorem operatorNameless {cs spelled : List Char} {kind : TokenKind} (taken : takeOperator? cs = some (.token kind spelled)) :
    kind ≠ .name := by
  obtain ⟨o, found, is⟩ := Option.map_eq_some_iff.mp taken
  cases is
  exact operatorsNameless o (List.mem_of_find?_eq_some found)

theorem nameStartPart {c : Char} (starts : isNameStart c) : isNamePart c := by
  simp only [isNameStart, isNamePart, Char.isAlphanum, Bool.or_eq_true] at starts ⊢
  rcases starts with (alpha | line) | dollar
  · exact .inl (.inl (.inl alpha))
  · exact .inl (.inr line)
  · exact .inr dollar

theorem lexemeSpelled {cs spelled : List Char} {kind : TokenKind} (taken : takeLexeme? cs = some (.token kind spelled))
    (isName : kind = .name) : spelled ≠ [] ∧ ∀ c ∈ spelled, isNamePart c := by
  subst isName
  unfold takeLexeme? at taken
  split at taken
  · cases taken
  next c rest =>
    dsimp only at taken
    split at taken
    · cases taken
    · split at taken
      · obtain ⟨tail, -, is⟩ := Option.map_eq_some_iff.mp taken
        cases is
      · split at taken
        next starts =>
          have word := Option.some.inj taken
          injection word with _ chars
          subst chars
          refine ⟨?_, List.all_eq_true.mp List.all_takeWhile⟩
          rw [List.takeWhile_cons_of_pos (nameStartPart starts)]
          exact List.cons_ne_nil _ _
        · split at taken
          · cases taken
          · split at taken
            · cases taken
            · repeat' split at taken
              all_goals first | cases taken | exact absurd rfl (operatorNameless taken)

theorem lexFromSpelled (fuel : Nat) (pos : Position) {found : Array Token} {cs : List Char} {ts : Array Token}
    (spelled : ∀ t ∈ found, t.Spelled) (lexed : lexFrom fuel pos found cs = .ok ts) : ∀ t ∈ ts, t.Spelled := by
  fun_induction lexFrom fuel pos found cs with
  | case1 | case2 =>
    cases lexed
    exact spelled
  | case3 => cases lexed
  | case4 fuel pos found c rest lexeme taken after found' ih =>
    refine ih (fun t member => ?_) lexed
    cases lexeme with
    | skip => exact spelled t member
    | token kind chars =>
      rcases Array.mem_push.mp member with old | rfl
      · exact spelled t old
      · intro isName
        simpa [IsWord] using lexemeSpelled taken isName

theorem tokensSpelled {text : String} {ts : List Token} (lexed : tokens text = .ok ts) : ∀ t ∈ ts, t.Spelled := by
  unfold tokens at lexed
  dsimp only at lexed
  cases run : lexFrom text.toList.length ⟨1, 1⟩ #[] text.toList with
  | error e =>
    rw [run] at lexed
    cases lexed
  | ok found =>
    rw [run] at lexed
    cases lexed
    have spelled : ∀ t ∈ found, t.Spelled := lexFromSpelled _ _ (by simp) run
    simpa using spelled

/-! Layout -/

namespace Layout

variable {l : Layout} {t w : Token}

theorem settleNameless (kind : TokenKind) (written : w ∈ (l.settle kind).1) : w.kind ≠ .name := by
  unfold settle at written
  split at written
  · cases written
  · dsimp only at written
    split at written
    · obtain rfl := List.mem_singleton.mp written
      simp [Token.become]
    · cases written

theorem writeNames (rest : List Token) (written : w ∈ (l.write t rest).1) (isName : w.kind = .name) : w = t := by
  unfold write at written
  dsimp only at written
  split at written
  · split at written
    · exact List.mem_singleton.mp written
    · obtain rfl := List.mem_singleton.mp written
      cases isName
  · obtain rfl := List.mem_singleton.mp written
    split at isName
    · cases isName
    · rw [if_neg ‹_›]
  · exact List.mem_singleton.mp written
  · exact List.mem_singleton.mp written
  · exact List.mem_singleton.mp written
  · rcases List.mem_append.mp written with ended | same
    · split at ended
      · obtain rfl := List.mem_singleton.mp ended
        cases isName
      · cases ended
    · exact List.mem_singleton.mp same
  · exact List.mem_singleton.mp written

theorem stepNames (rest : List Token) (written : w ∈ (l.step t rest).1) (isName : w.kind = .name) : w = t := by
  unfold step at written
  split at written
  · cases written
  · obtain rfl := List.mem_singleton.mp written
    cases isName
  · rcases List.mem_append.mp written with ended | same
    · exact absurd isName (settleNameless _ ended)
    · exact writeNames rest same isName

theorem finishNameless (written : w ∈ l.finish) : w.kind ≠ .name := by
  unfold finish at written
  split at written
  · cases written
  · split at written
    · obtain rfl := List.mem_singleton.mp written
      simp [Token.become]
    · cases written

theorem runNames (ts : List Token) (written : w ∈ l.run ts) (isName : w.kind = .name) : w ∈ ts := by
  induction ts generalizing l with
  | nil => exact absurd isName (finishNameless written)
  | cons t ts ih =>
    rcases List.mem_append.mp written with here | later
    · exact stepNames ts here isName ▸ List.mem_cons_self
    · exact List.mem_cons_of_mem t (ih later)

end Layout

/-! Trees -/

/-- A tree all of whose tokens satisfy a condition. -/
inductive Tree.Over (P : Token → Prop) : Tree → Prop
  | leaf {t : Token} : P t → Over P (.leaf t)
  | node {l : Label} {e : Extent} {children : List Tree} : (∀ c ∈ children, Over P c) → Over P (.node l e children)

namespace Tree.Over

variable {P : Token → Prop} {t : Tree}

theorem children (good : t.Over P) : ∀ c ∈ t.children, c.Over P := by
  cases good with
  | leaf => exact nofun
  | node inside => exact inside

theorem nodes (good : t.Over P) : ∀ c ∈ t.nodes, c.Over P := fun c member =>
  good.children c (List.mem_filter.mp member).1

end Tree.Over

theorem Make.appliedOver {P : Token → Prop} {children : List Tree} (m : Make) (good : ∀ c ∈ children, c.Over P) :
    ∀ t ∈ m.apply children, t.Over P := by
  cases m with
  | node label => exact fun t member => List.mem_singleton.mp member ▸ .node good
  | pass => exact good

namespace Automaton

variable {P : Token → Prop} {a : Automaton} {stack stack' : List StackEntry}

theorem reduceOver (good : ∀ e ∈ stack, ∀ t ∈ e.trees, t.Over P) {production : Nat}
    (reduced : a.reduce? stack production = some stack') : ∀ e ∈ stack', ∀ t ∈ e.trees, t.Over P := by
  obtain ⟨p, -, reduced⟩ := Option.bind_eq_some_iff.mp reduced
  obtain ⟨state, -, is⟩ := Option.bind_eq_some_iff.mp reduced
  cases is
  intro e member
  rcases List.mem_cons.mp member with rfl | below
  · refine p.make.appliedOver fun c inside => ?_
    obtain ⟨entry, there, among⟩ := List.mem_flatMap.mp inside
    exact good entry (List.mem_of_mem_take (List.mem_reverse.mp there)) c among
  · exact good e (List.mem_of_mem_drop below)

theorem recognizeOver (fuel : Nat) {ts : List Token} {trees : List Tree} (good : ∀ e ∈ stack, ∀ t ∈ e.trees, t.Over P)
    (tokens : ∀ t ∈ ts, P t) (recognized : a.recognize fuel stack ts = .ok trees) : ∀ t ∈ trees, t.Over P := by
  fun_induction a.recognize fuel stack ts with
  | case1 =>
    cases recognized
    exact nofun
  | case4 fuel stack t rest state next action finish =>
    cases recognized
    cases stack with
    | nil => exact nofun
    | cons e below => exact good e List.mem_cons_self
  | case5 fuel stack t rest state next action inner ih =>
    refine ih (fun e member => ?_) (fun t member => tokens t (List.mem_cons_of_mem _ member)) recognized
    rcases List.mem_cons.mp member with rfl | below
    · exact fun c leaf => List.mem_singleton.mp leaf ▸ .leaf (tokens t List.mem_cons_self)
    · exact good e below
  | case6 fuel stack t rest state production action stack' reduced ih => exact ih (reduceOver good reduced) tokens recognized
  | case2 | case3 | case7 => cases recognized

end Automaton

theorem endTokenNameless (ts : List Token) : (endToken ts).kind ≠ .name := by
  unfold endToken
  split <;> simp [Token.become]

theorem treesSpelled {text : String} {ts : List Token} (lexed : tokens text = .ok ts) {trees : List Tree}
    (recognized : treeOf (layOut ts) = .ok trees) : ∀ t ∈ trees, t.Over Token.Spelled := by
  refine Automaton.recognizeOver _ (fun e bottom t inside => ?_) (fun t member => ?_) recognized
  · obtain rfl := List.mem_singleton.mp bottom
    cases inside
  · intro isName
    rcases List.mem_append.mp member with written | last
    · exact tokensSpelled lexed t (Layout.runNames ts written isName) isName
    · obtain rfl := List.mem_singleton.mp last
      exact absurd isName (endTokenNameless _)

end Fragment.Source
