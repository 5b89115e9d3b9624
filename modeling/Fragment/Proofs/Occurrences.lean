import Fragment.Typing.Member
import Mathlib

/-! Properties and methods in the order in which the bodies of a type name them.
A member is refused as a duplicate or accepted as one more declaration of its name, which depends only on what stands
before it. The accepted ones of a name are then ordered by their bodies. -/
namespace Fragment.Typing

open Fragment.Source (TypeMember)

/-- A property or method of a body; bodies are numbered. -/
structure Occurrence where
  rank : Nat
  member : TypeMember
  name : String
  isMethod : Bool
  optional : Bool

/-- What a member stands for; signatures have no name. -/
def occurrence (rank : Nat) : TypeMember → Option Occurrence
  | .property mark name type optional => some ⟨rank, .property mark name type optional, name, false, optional⟩
  | .method mark name params result optional => some ⟨rank, .method mark name params result optional, name, true, optional⟩
  | .call .. => none

/-- The properties and methods of bodies in order. -/
def occurrences (rank : Nat) : List (List TypeMember) → List Occurrence
  | [] => []
  | body :: bodies => body.filterMap (occurrence rank) ++ occurrences (rank + 1) bodies

theorem occurrenceRank {rank : Nat} {m : TypeMember} {o : Occurrence} (named : occurrence rank m = some o) :
    o.rank = rank := by
  cases m <;> cases named <;> rfl

theorem occurrencesBelow (rank : Nat) (bodies : List (List TypeMember)) :
    ∀ o ∈ occurrences rank bodies, o.rank < rank + bodies.length := by
  induction bodies generalizing rank with
  | nil => nofun
  | cons body bodies ih =>
    refine List.forall_mem_append.mpr ⟨fun o member => ?_, fun o member => ?_⟩
    · obtain ⟨m, -, named⟩ := List.mem_filterMap.mp member
      rw [occurrenceRank named, List.length_cons]
      omega
    · have below := ih (rank + 1) o member
      rw [List.length_cons]
      omega

namespace Occurrence

/-- Whether it is no duplicate of what stands before: it has to be of the same kind as the first of its name, and a
property has to be the first property of its name in its body. -/
def fits (before : List Occurrence) (o : Occurrence) : Bool :=
  match before.find? (·.name = o.name) with
  | none => true
  | some first => first.isMethod = o.isMethod &&
      (o.isMethod || !before.any fun p => p.name = o.name && p.rank = o.rank && !p.isMethod)

/-- Those that fit what stands before them, or those that do not. -/
def sift (keep : Bool) (before : List Occurrence) : List Occurrence → List Occurrence
  | [] => []
  | o :: os => if o.fits before = keep then o :: sift keep (before ++ [o]) os else sift keep (before ++ [o]) os

/-- Those that become declarations of their names. -/
def accepted (os : List Occurrence) : List Occurrence := sift true [] os

/-- The duplicates. -/
def refused (os : List Occurrence) : List Occurrence := sift false [] os

theorem siftAppend (keep : Bool) (before xs ys : List Occurrence) :
    sift keep before (xs ++ ys) = sift keep before xs ++ sift keep (before ++ xs) ys := by
  induction xs generalizing before with
  | nil => simp [sift]
  | cons x xs ih =>
    simp only [List.cons_append, sift, ih, List.append_assoc, List.nil_append]
    split <;> rfl

/-- Each is accepted or refused, and not both. -/
theorem siftPerm (before os : List Occurrence) : os.Perm (sift true before os ++ sift false before os) := by
  induction os generalizing before with
  | nil => exact .nil
  | cons o os ih =>
    simp only [sift]
    cases o.fits before with
    | true => simpa using ih (before ++ [o])
    | false => simpa using ((ih (before ++ [o])).cons o).trans List.perm_middle.symm

theorem acceptedSnoc (before : List Occurrence) (o : Occurrence) :
    accepted (before ++ [o]) = accepted before ++ if o.fits before then [o] else [] := by
  simp [accepted, siftAppend, sift]

theorem refusedSnoc (before : List Occurrence) (o : Occurrence) :
    refused (before ++ [o]) = refused before ++ if o.fits before then [] else [o] := by
  simp only [refused, siftAppend, sift, List.nil_append]
  by_cases fitting : o.fits before = true
  · simp [fitting]
  · simp [fitting]

theorem acceptedMem {os : List Occurrence} {o : Occurrence} (member : o ∈ accepted os) : o ∈ os :=
  (siftPerm [] os).mem_iff.mpr (List.mem_append_left _ member)

/-- The first of a name gives the kind of all that are accepted. -/
theorem acceptedKind {os : List Occurrence} {p : Occurrence} (member : p ∈ accepted os) :
    ∃ first, os.find? (·.name = p.name) = some first ∧ first.isMethod = p.isMethod := by
  induction os using List.reverseRecOn with
  | nil => cases member
  | append_singleton before o ih =>
    rw [acceptedSnoc] at member
    rw [List.find?_append]
    rcases List.mem_append.mp member with old | new
    · obtain ⟨first, found, kind⟩ := ih old
      exact ⟨first, by rw [found]; rfl, kind⟩
    · split at new
      next fitting =>
        rw [List.mem_singleton.mp new]
        unfold fits at fitting
        split at fitting
        next missing => exact ⟨o, by simp [missing], rfl⟩
        next first found =>
          rw [Bool.and_eq_true, decide_eq_true_eq] at fitting
          exact ⟨first, by rw [found]; rfl, fitting.1⟩
      next => cases new

/-- Of the properties of a name in one body one is accepted, if the first of the name is a property. -/
theorem propertyAccepted {os : List Occurrence} {first p : Occurrence} (found : os.find? (·.name = p.name) = some first)
    (kind : first.isMethod = false) (member : p ∈ os) (property : p.isMethod = false) :
    ∃ q ∈ accepted os, q.rank = p.rank ∧ q.name = p.name := by
  induction os using List.reverseRecOn generalizing p with
  | nil => cases member
  | append_singleton before o ih =>
    rw [acceptedSnoc]
    rw [List.find?_append] at found
    by_cases earlier : ∃ e ∈ before, e.name = p.name ∧ e.rank = p.rank ∧ e.isMethod = false
    · obtain ⟨e, old, name, rank, property⟩ := earlier
      have there : (before.find? (·.name = e.name)).isSome := List.find?_isSome.mpr ⟨e, old, by simp⟩
      obtain ⟨known, firstOld⟩ := Option.isSome_iff_exists.mp there
      rw [← name, firstOld] at found
      cases found
      obtain ⟨q, member, sameRank, sameName⟩ := ih firstOld old property
      exact ⟨q, List.mem_append_left _ member, sameRank.trans rank, sameName.trans name⟩
    · have new : p = o := by
        rcases List.mem_append.mp member with old | new
        · exact absurd ⟨p, old, rfl, rfl, property⟩ earlier
        · exact List.mem_singleton.mp new
      subst new
      have fitting : p.fits before = true := by
        unfold fits
        split
        next => rfl
        next known firstOld =>
          rw [firstOld] at found
          cases found
          have fresh : (before.any fun e => e.name = p.name && e.rank = p.rank && !e.isMethod) = false := by
            refine List.any_eq_false.mpr fun e old same => earlier ⟨e, old, ?_⟩
            simpa [and_assoc] using same
          rw [kind, property, fresh]
          rfl
      rw [if_pos fitting]
      exact ⟨p, List.mem_append_right _ (List.mem_singleton_self p), rfl, rfl⟩

/-- Whether a property fits is whether none of its body has been accepted. -/
theorem fitsIff {before : List Occurrence} {first o : Occurrence} (found : before.find? (·.name = o.name) = some first) :
    o.fits before = true ↔ first.isMethod = o.isMethod ∧
      (o.isMethod = true ∨ ¬ ∃ q ∈ accepted before, q.rank = o.rank ∧ q.name = o.name) := by
  unfold fits
  rw [found]
  rw [Bool.and_eq_true, decide_eq_true_eq]
  refine and_congr_right fun kind => ?_
  cases property : o.isMethod with
  | true => simp
  | false =>
    simp only [Bool.false_or, Bool.not_eq_true', Bool.false_eq_true, false_or, ← Bool.not_eq_true, List.any_eq_true]
    refine not_congr ⟨fun ⟨e, member, same⟩ => ?_, fun ⟨q, member, rank, name⟩ => ⟨q, acceptedMem member, ?_⟩⟩
    · simp only [Bool.and_eq_true, decide_eq_true_eq, Bool.not_eq_true'] at same
      obtain ⟨⟨name, rank⟩, eProperty⟩ := same
      rw [← name] at found
      obtain ⟨q, member, sameRank, sameName⟩ := propertyAccepted found (kind.trans property) member eProperty
      exact ⟨q, member, sameRank.trans rank, sameName.trans name⟩
    · obtain ⟨known, firstOld, qKind⟩ := acceptedKind member
      rw [name, found] at firstOld
      cases firstOld
      simp [name, rank, ← qKind, kind, property]

end Occurrence

/-! The order of declarations -/

/-- Those of each rank, by ranks. -/
def byRank {α : Type} (ranks : List Nat) (xs : List (Nat × α)) : List (Nat × α) :=
  ranks.flatMap fun rank => xs.filter (·.1 = rank)

theorem byRankMem {α : Type} {ranks : List Nat} {xs : List (Nat × α)} {y : Nat × α} (member : y ∈ byRank ranks xs) :
    y.1 ∈ ranks := by
  obtain ⟨rank, there, filtered⟩ := List.mem_flatMap.mp member
  exact of_decide_eq_true (List.mem_filter.mp filtered).2 ▸ there

theorem filterApart {α : Type} {greater others : List (Nat × α)} {n : Nat} (most : ∀ y ∈ greater, n < y.1)
    (least : ∀ y ∈ others, y.1 ≤ n) :
    (greater ++ others).filter (n < ·.1) = greater ∧ (greater ++ others).filter (·.1 ≤ n) = others := by
  have all : greater.filter (n < ·.1) = greater := List.filter_eq_self.mpr fun y there => by simpa using most y there
  have none : others.filter (n < ·.1) = [] := List.filter_eq_nil_iff.mpr fun y there => by simpa using least y there
  have empty : greater.filter (·.1 ≤ n) = [] := List.filter_eq_nil_iff.mpr fun y there => by simpa using most y there
  have rest : others.filter (·.1 ≤ n) = others := List.filter_eq_self.mpr fun y there => by simpa using least y there
  simp only [List.filter_append, all, none, empty, rest, List.append_nil, List.nil_append, and_self]

/-- One more in front comes behind those of greater rank and before all others. -/
theorem byRankCons {α : Type} {ranks : List Nat} (descending : ranks.Pairwise (· > ·)) (x : Nat × α)
    (member : x.1 ∈ ranks) (xs : List (Nat × α)) : byRank ranks (x :: xs) =
      (byRank ranks xs).filter (x.1 < ·.1) ++ x :: (byRank ranks xs).filter (·.1 ≤ x.1) := by
  induction ranks with
  | nil => cases member
  | cons rank ranks ih =>
    obtain ⟨less, descending⟩ := List.pairwise_cons.mp descending
    have cons (ys : List (Nat × α)) : byRank (rank :: ranks) ys = ys.filter (·.1 = rank) ++ byRank ranks ys := rfl
    have own : ∀ y ∈ xs.filter (·.1 = rank), y.1 = rank := fun y there =>
      of_decide_eq_true (List.mem_filter.mp there).2
    have others : ∀ y ∈ byRank ranks xs, y.1 < rank := fun y there => less _ (byRankMem there)
    rw [cons, cons]
    by_cases same : x.1 = rank
    · have absent : byRank ranks (x :: xs) = byRank ranks xs := by
        refine List.flatMap_congr fun r there => List.filter_cons_of_neg ?_
        simpa [same] using Nat.ne_of_gt (less r there)
      have first : (x :: xs).filter (·.1 = rank) = x :: xs.filter (·.1 = rank) :=
        List.filter_cons_of_pos (by simpa using same)
      have least : ∀ y ∈ xs.filter (·.1 = rank) ++ byRank ranks xs, y.1 ≤ x.1 := by
        rw [same]
        exact List.forall_mem_append.mpr ⟨fun y there => (own y there).le, fun y there => (others y there).le⟩
      obtain ⟨none, all⟩ := filterApart (List.forall_mem_nil fun y : Nat × α => x.1 < y.1) least
      rw [List.nil_append] at none all
      rw [first, absent, none, all]
      rfl
    · have lower : x.1 < rank := less _ ((List.mem_cons.mp member).resolve_left same)
      have first : (x :: xs).filter (·.1 = rank) = xs.filter (·.1 = rank) := List.filter_cons_of_neg (by simpa using same)
      have most : ∀ y ∈ xs.filter (·.1 = rank), x.1 < y.1 := fun y there => by rw [own y there]; exact lower
      obtain ⟨all, none⟩ := filterApart most (List.forall_mem_nil fun y : Nat × α => y.1 ≤ x.1)
      rw [List.append_nil] at all none
      rw [first, ih descending ((List.mem_cons.mp member).resolve_left same), List.filter_append, List.filter_append, all,
        none, List.append_assoc, List.nil_append]

/-- Sorting by ranks, the greatest first, leaves those of one rank as they stood. -/
theorem sortRanks {α : Type} (xs : List (Nat × α)) (n : Nat) (below : ∀ x ∈ xs, x.1 < n) :
    xs.mergeSort (fun a b => b.1 ≤ a.1) = byRank (List.range n).reverse xs := by
  have trans (a b c : Nat × α) (ab : decide (b.1 ≤ a.1) = true) (bc : decide (c.1 ≤ b.1) = true) :
      decide (c.1 ≤ a.1) = true := by
    simp only [decide_eq_true_eq] at *
    exact Nat.le_trans bc ab
  have total (a b : Nat × α) : (decide (b.1 ≤ a.1) || decide (a.1 ≤ b.1)) = true := by
    simpa using Nat.le_total b.1 a.1
  have descending : (List.range n).reverse.Pairwise (· > ·) := List.pairwise_reverse.mpr List.pairwise_lt_range
  induction xs with
  | nil => simp [byRank]
  | cons x xs ih =>
    obtain ⟨greater, others, sorted, without, above⟩ := List.mergeSort_cons trans total x xs
    have order := List.pairwise_mergeSort trans total (x :: xs)
    rw [sorted] at order ⊢
    have rest := ih fun y member => below y (List.mem_cons_of_mem x member)
    rw [without] at rest
    have least : ∀ y ∈ others, y.1 ≤ x.1 := fun y member =>
      of_decide_eq_true ((List.pairwise_cons.mp (List.pairwise_append.mp order).2.1).1 y member)
    have most : ∀ y ∈ greater, x.1 < y.1 := fun y member => by simpa using above y member
    obtain ⟨all, none⟩ := filterApart most least
    have own := byRankCons descending x (by simpa using below x (List.mem_cons_self ..)) xs
    rw [own, ← rest, all, none]

end Fragment.Typing
