import Mathlib.Data.List.Basic
import Fragment.Declarations

/-! Calls that share one cache of declarations.
A call either goes through a load that runs on its event loop, which others on that loop join, or asks
the provider itself. Every step that a lock guards is one event, and events of all calls, loads and
provider threads come in any order. What is published for a key stays, and every call that returns
gives it back; a load is in flight exactly as long as its entry in the cache is there. -/
namespace Fragment.Declarations

/-- How far a shared load has come. -/
inductive LoadStage where
  /-- In flight, and the provider has not been asked. -/
  | scheduled
  /-- The provider is working. -/
  | asking
  /-- The provider has given files, or it has failed. -/
  | answered (answer : Option Files)
  /-- The files that stand under the key are known. -/
  | published (files : Files)
  /-- No longer in flight: the files for those who wait, or the failure. -/
  | ended (result : Option Files)

/-- A load that the calls of one event loop share. -/
structure SharedLoad where
  key : Key
  eventLoop : Nat
  stage : LoadStage

namespace SharedLoad

def place (l : SharedLoad) : Key × Nat := (l.key, l.eventLoop)

/-- Whether the load is still in flight. -/
def underWay (l : SharedLoad) : Bool :=
  match l.stage with
  | .ended _ => false
  | _ => true

/-- Whether a call of the provider is outstanding. -/
def isAsking (l : SharedLoad) : Bool :=
  match l.stage with
  | .asking => true
  | _ => false

/-- Whether the provider has been asked. -/
def hasAsked (l : SharedLoad) : Bool :=
  match l.stage with
  | .scheduled => false
  | _ => true

/-- The files that the load gives to those who wait, once they are known. -/
def result? (l : SharedLoad) : Option Files :=
  match l.stage with
  | .published files => some files
  | .ended result => result
  | _ => none

end SharedLoad

/-- How far a call has come. -/
inductive CallStage where
  /-- Waits for a shared load, by its number. -/
  | waiting (load : Nat)
  /-- Found nothing, and has to ask the provider itself. -/
  | missed
  | asking
  | answered (files : Files)
  | returned (files : Files)
  | raised
  | cancelled

/-- A call for the declarations of a key. -/
structure Call where
  key : Key
  stage : CallStage

/-- The cache, all loads and calls so far by their numbers, and the keys that the provider has been
asked for, last first. -/
structure Traffic where
  cache : Cache := {}
  loads : List SharedLoad := []
  calls : List Call := []
  asked : List Key := []

/-- What happens next. Loads and calls are named by their numbers. -/
inductive Event where
  /-- A call on an event loop looks into the cache, and joins or starts a load if it finds nothing. -/
  | load (key : Key) (eventLoop : Nat)
  /-- A shared load asks the provider. -/
  | ask (load : Nat)
  | answer (load : Nat) (files : Files)
  | fail (load : Nat)
  /-- A shared load publishes what the provider gave. -/
  | publish (load : Nat)
  /-- A shared load takes its entry out of the cache, and ends. -/
  | leave (load : Nat)
  /-- A call takes the result of the load that it waits for. -/
  | resume (call : Nat)
  /-- A call is cancelled while it waits. -/
  | cancel (call : Nat)
  /-- A call without an event loop looks into the cache. -/
  | loadSync (key : Key)
  | askSync (call : Nat)
  | answerSync (call : Nat) (files : Files)
  | failSync (call : Nat)
  | publishSync (call : Nat)

/-- Publishes files unless others were published before, and gives those that are now there. -/
def Cache.setDefault (c : Cache) (key : Key) (files : Files) : Files × Cache :=
  ((c.get? key).getD files, c.publish key files)

namespace Traffic

def addCall (s : Traffic) (c : Call) : Traffic := { s with calls := s.calls ++ [c] }

def setCall (s : Traffic) (i : Nat) (key : Key) (stage : CallStage) : Traffic :=
  { s with calls := s.calls.set i ⟨key, stage⟩ }

def setLoad (s : Traffic) (i : Nat) (l : SharedLoad) : Traffic := { s with loads := s.loads.set i l }

/-- The number of the load in flight for a key on an event loop. -/
def inFlight? (s : Traffic) (key : Key) (eventLoop : Nat) : Option Nat :=
  s.loads.findIdx? fun l => l.underWay && l.place == (key, eventLoop)

/-- The traffic after an event, if the event can happen. -/
def step? (s : Traffic) : Event → Option Traffic
  | .load key eventLoop =>
    match s.cache.request key eventLoop with
    | (.hit files, _) => some (s.addCall ⟨key, .returned files⟩)
    | (.join, _) => (s.inFlight? key eventLoop).map fun i => s.addCall ⟨key, .waiting i⟩
    | (.start, cache) => some { s with
        cache
        loads := s.loads ++ [⟨key, eventLoop, .scheduled⟩]
        calls := s.calls ++ [⟨key, .waiting s.loads.length⟩] }
  | .ask i => match s.loads[i]? with
    | some ⟨key, eventLoop, .scheduled⟩ =>
      some { s.setLoad i ⟨key, eventLoop, .asking⟩ with asked := key :: s.asked }
    | _ => none
  | .answer i files => match s.loads[i]? with
    | some ⟨key, eventLoop, .asking⟩ => some (s.setLoad i ⟨key, eventLoop, .answered (some files)⟩)
    | _ => none
  | .fail i => match s.loads[i]? with
    | some ⟨key, eventLoop, .asking⟩ => some (s.setLoad i ⟨key, eventLoop, .answered none⟩)
    | _ => none
  | .publish i => match s.loads[i]? with
    | some ⟨key, eventLoop, .answered (some files)⟩ =>
      let (there, cache) := s.cache.setDefault key files
      some ({ s with cache }.setLoad i ⟨key, eventLoop, .published there⟩)
    | _ => none
  | .leave i => match s.loads[i]? with
    | some ⟨key, eventLoop, .published files⟩ =>
      some ({ s with cache := s.cache.finish key eventLoop }.setLoad i ⟨key, eventLoop, .ended (some files)⟩)
    | some ⟨key, eventLoop, .answered none⟩ =>
      some ({ s with cache := s.cache.finish key eventLoop }.setLoad i ⟨key, eventLoop, .ended none⟩)
    | _ => none
  | .resume i => match s.calls[i]? with
    | some ⟨key, .waiting load⟩ => match s.loads[load]? with
      | some ⟨_, _, .ended (some files)⟩ => some (s.setCall i key (.returned files))
      | some ⟨_, _, .ended none⟩ => some (s.setCall i key .raised)
      | _ => none
    | _ => none
  | .cancel i => match s.calls[i]? with
    | some ⟨key, .waiting _⟩ => some (s.setCall i key .cancelled)
    | _ => none
  | .loadSync key => match s.cache.get? key with
    | some files => some (s.addCall ⟨key, .returned files⟩)
    | none => some (s.addCall ⟨key, .missed⟩)
  | .askSync i => match s.calls[i]? with
    | some ⟨key, .missed⟩ => some { s.setCall i key .asking with asked := key :: s.asked }
    | _ => none
  | .answerSync i files => match s.calls[i]? with
    | some ⟨key, .asking⟩ => some (s.setCall i key (.answered files))
    | _ => none
  | .failSync i => match s.calls[i]? with
    | some ⟨key, .asking⟩ => some (s.setCall i key .raised)
    | _ => none
  | .publishSync i => match s.calls[i]? with
    | some ⟨key, .answered files⟩ =>
      let (there, cache) := s.cache.setDefault key files
      some ({ s with cache }.setCall i key (.returned there))
    | _ => none

/-- The traffic after some events in a row. -/
def run? (s : Traffic) (events : List Event) : Option Traffic := events.foldlM step? s

end Traffic

section Cache

variable {c : Cache} {key k : Key} {files f : Files} {eventLoop : Nat}

/-- What `c` has published is published in `d`. -/
def Cache.Grows (c d : Cache) : Prop := ∀ key files, c.get? key = some files → d.get? key = some files

theorem getPublish (c : Cache) (key k : Key) (files : Files) :
    (c.publish key files).get? k = if k = key then some ((c.get? key).getD files) else c.get? k := by
  unfold Cache.publish
  cases found : c.get? key with
  | some there =>
    by_cases same : k = key
    · simp [same, found]
    · simp [same]
  | none =>
    by_cases same : k = key
    · subst same
      have absent : c.values.lookup k = none := found
      simp [Cache.get?, List.lookup_append, absent]
    · have other : (k == key) = false := by simp [same]
      simp [Cache.get?, List.lookup_append, List.lookup_cons, other, same]

theorem publishInFlight (c : Cache) (key : Key) (files : Files) :
    (c.publish key files).inFlight = c.inFlight := by
  unfold Cache.publish
  split <;> rfl

theorem publishGrows (c : Cache) (key : Key) (files : Files) : c.Grows (c.publish key files) := by
  intro k f there
  rw [getPublish]
  split
  · next same => simp [← same, there]
  · exact there

theorem setDefaultGets (c : Cache) (key : Key) (files : Files) :
    (c.setDefault key files).2.get? key = some (c.setDefault key files).1 := by
  simp [Cache.setDefault, getPublish]

/-- What a request finds, and when. -/
theorem requestCases (c : Cache) (key : Key) (eventLoop : Nat) :
    (∃ files, c.get? key = some files ∧ c.request key eventLoop = (.hit files, c)) ∨
    (c.get? key = none ∧ (key, eventLoop) ∈ c.inFlight ∧ c.request key eventLoop = (.join, c)) ∨
    (c.get? key = none ∧ (key, eventLoop) ∉ c.inFlight ∧
      c.request key eventLoop = (.start, { c with inFlight := (key, eventLoop) :: c.inFlight })) := by
  unfold Cache.request
  cases found : c.get? key with
  | some files => exact .inl ⟨files, rfl, rfl⟩
  | none =>
    by_cases joins : (key, eventLoop) ∈ c.inFlight
    · exact .inr (.inl ⟨rfl, joins, by simp [joins]⟩)
    · exact .inr (.inr ⟨rfl, joins, by simp [joins]⟩)

end Cache

/-- The entries in flight are those of the loads under way, each once, and what loads give is what is
published. -/
structure LoadsFit (c : Cache) (loads : List SharedLoad) : Prop where
  distinct : c.inFlight.Nodup
  inFlight : ∀ place, place ∈ c.inFlight ↔ ∃ (i : Nat) (l : SharedLoad), loads[i]? = some l ∧ l.underWay ∧ l.place = place
  single : ∀ (i j : Nat) (l m : SharedLoad), loads[i]? = some l → loads[j]? = some m → l.underWay → m.underWay →
    l.place = m.place → i = j
  results : ∀ l ∈ loads, ∀ files, l.result? = some files → c.get? l.key = some files

/-- Calls have returned what is published, and wait for loads of their own key. -/
structure CallsFit (c : Cache) (loads : List SharedLoad) (calls : List Call) : Prop where
  returned : ∀ call ∈ calls, ∀ files, call.stage = .returned files → c.get? call.key = some files
  waits : ∀ call ∈ calls, ∀ i, call.stage = .waiting i → ∃ l, loads[i]? = some l ∧ l.key = call.key

def Traffic.Coherent (s : Traffic) : Prop := LoadsFit s.cache s.loads ∧ CallsFit s.cache s.loads s.calls

section Loads

variable {c d : Cache} {loads : List SharedLoad} {calls : List Call} {i : Nat} {l m : SharedLoad}

/-- Reading a list in which the item at `i`, which is there, has been replaced. -/
theorem getSet {α : Type} {items : List α} {i : Nat} {a : α} (here : items[i]? = some a) (b : α) (j : Nat) :
    (items.set i b)[j]? = if i = j then some b else items[j]? := by
  obtain ⟨bound, _⟩ := List.getElem?_eq_some_iff.mp here
  simp [List.getElem?_set, bound]

/-- Reading a list with one more item. -/
theorem getAppendOne {α : Type} (items : List α) (a : α) (j : Nat) :
    (items ++ [a])[j]? = if j = items.length then some a else items[j]? := by
  rw [List.getElem?_append]
  split
  · rw [if_neg (by omega)]
  · split
    · simp [*]
    · rw [List.getElem?_eq_none (by simp; omega), List.getElem?_eq_none (by omega)]

/-- A load goes on in its place. -/
theorem LoadsFit.move (fits : LoadsFit c loads) (here : loads[i]? = some l) (before : l.underWay)
    (after : m.underWay) (place : m.place = l.place) (same : d.inFlight = c.inFlight) (grows : c.Grows d)
    (result : ∀ files, m.result? = some files → d.get? m.key = some files) : LoadsFit d (loads.set i m) where
  distinct := same ▸ fits.distinct
  inFlight := by
    intro p
    rw [same, fits.inFlight]
    constructor
    · rintro ⟨j, x, at_, under, rfl⟩
      by_cases moved : i = j
      · subst moved
        cases here.symm.trans at_
        exact ⟨i, m, by simp [getSet here], after, place⟩
      · exact ⟨j, x, by simp [getSet here, moved, at_], under, rfl⟩
    · rintro ⟨j, x, at_, under, rfl⟩
      rw [getSet here] at at_
      split at at_
      · cases at_
        exact ⟨i, l, here, before, place.symm⟩
      · exact ⟨j, x, at_, under, rfl⟩
  single := by
    intro j k x y atX atY underX underY samePlace
    rw [getSet here] at atX atY
    split at atX <;> split at atY
    · omega
    · cases atX
      next eq _ => exact eq ▸ fits.single i k l y here atY before underY (place ▸ samePlace)
    · cases atY
      next _ eq => exact eq ▸ fits.single j i x l atX here underX before (samePlace.trans place)
    · exact fits.single j k x y atX atY underX underY samePlace
  results := by
    intro x member files known
    rcases List.mem_or_eq_of_mem_set member with old | rfl
    · exact grows _ _ (fits.results x old files known)
    · exact result files known

/-- A load that has ended is no longer in flight. -/
theorem LoadsFit.leave (fits : LoadsFit c loads) (here : loads[i]? = some l) (before : l.underWay)
    (after : m.underWay = false) (key : m.key = l.key) (result : m.result? = l.result?) :
    LoadsFit (c.finish l.key l.eventLoop) (loads.set i m) where
  distinct := fits.distinct.erase _
  inFlight := by
    intro p
    simp only [Cache.finish]
    rw [fits.distinct.mem_erase_iff, fits.inFlight]
    constructor
    · rintro ⟨other, j, x, at_, under, rfl⟩
      have moved : i ≠ j := by
        rintro rfl
        cases here.symm.trans at_
        exact other rfl
      exact ⟨j, x, by simp [getSet here, moved, at_], under, rfl⟩
    · rintro ⟨j, x, at_, under, rfl⟩
      rw [getSet here] at at_
      split at at_
      · cases at_
        simp [after] at under
      · next moved =>
        refine ⟨fun same => moved ?_, j, x, at_, under, rfl⟩
        exact fits.single i j l x here at_ before under same.symm
  single := by
    intro j k x y atX atY underX underY samePlace
    rw [getSet here] at atX atY
    split at atX
    · cases atX
      simp [after] at underX
    · split at atY
      · cases atY
        simp [after] at underY
      · exact fits.single j k x y atX atY underX underY samePlace
  results := by
    intro x member files known
    rcases List.mem_or_eq_of_mem_set member with old | rfl
    · exact fits.results x old files known
    · rw [key]
      exact fits.results l (List.mem_of_getElem? here) files (result ▸ known)

/-- A load can be started where none is in flight. -/
theorem LoadsFit.start (fits : LoadsFit c loads) (fresh : l.place ∉ c.inFlight) (under : l.underWay)
    (nothing : l.result? = none) : LoadsFit { c with inFlight := l.place :: c.inFlight } (loads ++ [l]) where
  distinct := List.nodup_cons.mpr ⟨fresh, fits.distinct⟩
  inFlight := by
    intro p
    rw [List.mem_cons, fits.inFlight]
    constructor
    · rintro (rfl | ⟨j, x, at_, underX, rfl⟩)
      · exact ⟨loads.length, l, by simp, under, rfl⟩
      · obtain ⟨bound, _⟩ := List.getElem?_eq_some_iff.mp at_
        exact ⟨j, x, by rw [getAppendOne, if_neg (by omega), at_], underX, rfl⟩
    · rintro ⟨j, x, at_, underX, rfl⟩
      rw [getAppendOne] at at_
      split at at_
      · cases at_
        exact .inl rfl
      · exact .inr ⟨j, x, at_, underX, rfl⟩
  single := by
    -- An older load in the same place would be in flight.
    have older {j : Nat} {x : SharedLoad} (at_ : loads[j]? = some x) (underX : x.underWay) : x.place ≠ l.place :=
      fun same => fresh (same ▸ (fits.inFlight _).mpr ⟨j, x, at_, underX, rfl⟩)
    intro j k x y atX atY underX underY samePlace
    rw [getAppendOne] at atX atY
    split at atX <;> split at atY
    · omega
    · cases atX
      exact absurd samePlace.symm (older atY underY)
    · cases atY
      exact absurd samePlace (older atX underX)
    · exact fits.single j k x y atX atY underX underY samePlace
  results := by
    intro x member files known
    rcases List.mem_append.mp member with old | new
    · exact fits.results x old files known
    · cases List.mem_singleton.mp new
      simp [nothing] at known

/-- Calls stay right as the cache grows and loads keep their numbers and keys. -/
theorem CallsFit.grow {later : List SharedLoad} (fits : CallsFit c loads calls) (grows : c.Grows d)
    (kept : ∀ (i : Nat) (l : SharedLoad), loads[i]? = some l → ∃ m, later[i]? = some m ∧ m.key = l.key) :
    CallsFit d later calls where
  returned call member files is := grows _ _ (fits.returned call member files is)
  waits call member i is := by
    obtain ⟨l, at_, key⟩ := fits.waits call member i is
    obtain ⟨m, there, same⟩ := kept i l at_
    exact ⟨m, there, same.trans key⟩

theorem keptBySet (here : loads[i]? = some l) (key : m.key = l.key) (j : Nat) (x : SharedLoad)
    (at_ : loads[j]? = some x) : ∃ y, (loads.set i m)[j]? = some y ∧ y.key = x.key := by
  rw [getSet here]
  split
  · next same =>
    subst same
    cases here.symm.trans at_
    exact ⟨m, rfl, key⟩
  · exact ⟨x, at_, rfl⟩

/-- One more call, which fits. -/
theorem CallsFit.add (fits : CallsFit c loads calls) {call : Call}
    (new : CallsFit c loads [call]) : CallsFit c loads (calls ++ [call]) where
  returned x member := by
    rcases List.mem_append.mp member with old | one
    · exact fits.returned x old
    · exact new.returned x one
  waits x member := by
    rcases List.mem_append.mp member with old | one
    · exact fits.waits x old
    · exact new.waits x one

/-- A call in the place of another one. -/
theorem CallsFit.set (fits : CallsFit c loads calls) {call : Call} (new : CallsFit c loads [call]) :
    CallsFit c loads (calls.set i call) where
  returned x member := by
    rcases List.mem_or_eq_of_mem_set member with old | rfl
    · exact fits.returned x old
    · exact new.returned x (by simp)
  waits x member := by
    rcases List.mem_or_eq_of_mem_set member with old | rfl
    · exact fits.waits x old
    · exact new.waits x (by simp)

/-- A call that neither waits nor has returned. -/
theorem CallsFit.idle {key : Key} {stage : CallStage} (running : ∀ files, stage ≠ .returned files)
    (alone : ∀ i, stage ≠ .waiting i) : CallsFit c loads [⟨key, stage⟩] where
  returned x member files is := by
    cases List.mem_singleton.mp member
    exact absurd is (running files)
  waits x member i is := by
    cases List.mem_singleton.mp member
    exact absurd is (alone i)

theorem CallsFit.ofReturned {key : Key} {files : Files} (there : c.get? key = some files) :
    CallsFit c loads [⟨key, .returned files⟩] where
  returned x member f is := by
    cases List.mem_singleton.mp member
    cases is
    exact there
  waits x member i is := by
    cases List.mem_singleton.mp member
    cases is

theorem CallsFit.ofWaiting {key : Key} (here : loads[i]? = some l) (same : l.key = key) :
    CallsFit c loads [⟨key, .waiting i⟩] where
  returned x member f is := by
    cases List.mem_singleton.mp member
    cases is
  waits x member j is := by
    cases List.mem_singleton.mp member
    cases is
    exact ⟨l, here, same⟩

end Loads

namespace Traffic

variable {s s' : Traffic} {i : Nat} {l m : SharedLoad} {d : Cache}

theorem Grows.refl (c : Cache) : c.Grows c := fun _ _ there => there

/-- A load that goes on, and publishes perhaps. -/
theorem Coherent.move (co : s.Coherent) (here : s.loads[i]? = some l) (before : l.underWay) (after : m.underWay)
    (place : m.place = l.place) (same : d.inFlight = s.cache.inFlight) (grows : s.cache.Grows d)
    (result : ∀ files, m.result? = some files → d.get? m.key = some files) :
    LoadsFit d (s.loads.set i m) ∧ CallsFit d (s.loads.set i m) s.calls :=
  ⟨co.1.move here before after place same grows result,
    co.2.grow grows (keptBySet here (congrArg Prod.fst place))⟩

/-- A load that ends. -/
theorem Coherent.leave (co : s.Coherent) (here : s.loads[i]? = some l) (before : l.underWay)
    (after : m.underWay = false) (key : m.key = l.key) (result : m.result? = l.result?) :
    LoadsFit (s.cache.finish l.key l.eventLoop) (s.loads.set i m) ∧
      CallsFit (s.cache.finish l.key l.eventLoop) (s.loads.set i m) s.calls :=
  ⟨co.1.leave here before after key result, co.2.grow (Grows.refl _) (keptBySet here key)⟩

/-- A load in flight is found by its place. -/
theorem Coherent.inFlightFound (co : s.Coherent) {key : Key} {eventLoop : Nat}
    (flies : (key, eventLoop) ∈ s.cache.inFlight) :
    ∃ i l, s.inFlight? key eventLoop = some i ∧ s.loads[i]? = some l ∧ l.underWay ∧ l.place = (key, eventLoop) := by
  obtain ⟨j, x, at_, under, place⟩ := (co.1.inFlight _).mp flies
  have some_ : (s.inFlight? key eventLoop).isSome := by
    rw [inFlight?, List.findIdx?_isSome, List.any_eq_true]
    exact ⟨x, List.mem_of_getElem? at_, by simp [under, place]⟩
  obtain ⟨i, found⟩ := Option.isSome_iff_exists.mp some_
  obtain ⟨bound, fits, _⟩ := List.findIdx?_eq_some_iff_getElem.mp found
  simp only [Bool.and_eq_true, beq_iff_eq] at fits
  exact ⟨i, s.loads[i], found, List.getElem?_eq_getElem bound, fits.1, fits.2⟩

/-- Every event keeps the traffic coherent, and takes nothing back that is published. -/
theorem Coherent.step (co : s.Coherent) (e : Event) (happens : s.step? e = some s') :
    s'.Coherent ∧ s.cache.Grows s'.cache := by
  cases e with
  | load key eventLoop =>
    rcases requestCases s.cache key eventLoop with
      ⟨files, there, asked⟩ | ⟨_, flies, asked⟩ | ⟨_, fresh, asked⟩
    · unfold step? at happens
      simp only [asked, Option.some.injEq] at happens
      subst happens
      exact ⟨⟨co.1, co.2.add (.ofReturned there)⟩, Grows.refl _⟩
    · obtain ⟨i, l, found, here, _, place⟩ := co.inFlightFound flies
      unfold step? at happens
      simp only [asked, found, Option.map_some, Option.some.injEq] at happens
      subst happens
      exact ⟨⟨co.1, co.2.add (.ofWaiting here (congrArg Prod.fst place))⟩, Grows.refl _⟩
    · unfold step? at happens
      simp only [asked, Option.some.injEq] at happens
      subst happens
      let new : SharedLoad := ⟨key, eventLoop, .scheduled⟩
      have kept (i : Nat) (l : SharedLoad) (at_ : s.loads[i]? = some l) :
          ∃ m, (s.loads ++ [new])[i]? = some m ∧ m.key = l.key := by
        obtain ⟨bound, _⟩ := List.getElem?_eq_some_iff.mp at_
        exact ⟨l, by rw [getAppendOne, if_neg (by omega), at_], rfl⟩
      have grows : s.cache.Grows { s.cache with inFlight := new.place :: s.cache.inFlight } := Grows.refl s.cache
      refine ⟨⟨co.1.start (l := new) fresh rfl rfl, ?_⟩, grows⟩
      exact (co.2.grow grows kept).add (.ofWaiting (List.getElem?_concat_length ..) rfl)
  | ask i =>
    unfold step? at happens
    dsimp only at happens
    split at happens <;> cases happens
    next here => exact ⟨co.move here rfl rfl rfl rfl (Grows.refl _) nofun, Grows.refl _⟩
  | answer i files =>
    unfold step? at happens
    dsimp only at happens
    split at happens <;> cases happens
    next here => exact ⟨co.move here rfl rfl rfl rfl (Grows.refl _) nofun, Grows.refl _⟩
  | fail i =>
    unfold step? at happens
    dsimp only at happens
    split at happens <;> cases happens
    next here => exact ⟨co.move here rfl rfl rfl rfl (Grows.refl _) nofun, Grows.refl _⟩
  | publish i =>
    unfold step? at happens
    dsimp only at happens
    split at happens <;> cases happens
    next key eventLoop files here =>
      have grows := publishGrows s.cache key files
      refine ⟨co.move here rfl rfl rfl (publishInFlight _ _ _) grows fun f known => ?_, grows⟩
      cases known
      exact setDefaultGets s.cache key files
  | leave i =>
    unfold step? at happens
    dsimp only at happens
    split at happens <;> cases happens
    · next here => exact ⟨co.leave here rfl rfl rfl rfl, Grows.refl _⟩
    · next here => exact ⟨co.leave here rfl rfl rfl rfl, Grows.refl _⟩
  | resume i =>
    unfold step? at happens
    dsimp only at happens
    split at happens <;> try cases happens
    next key load at_ =>
      obtain ⟨l, here, same⟩ := co.2.waits _ (List.mem_of_getElem? at_) load rfl
      split at happens <;> cases happens
      · next other _ files ended =>
        cases here.symm.trans ended
        have there : s.cache.get? other = some files := co.1.results _ (List.mem_of_getElem? ended) files rfl
        have same : other = key := same
        exact ⟨⟨co.1, co.2.set (.ofReturned (same ▸ there))⟩, Grows.refl _⟩
      · exact ⟨⟨co.1, co.2.set (.idle nofun nofun)⟩, Grows.refl _⟩
  | cancel i =>
    unfold step? at happens
    dsimp only at happens
    split at happens <;> cases happens
    exact ⟨⟨co.1, co.2.set (.idle nofun nofun)⟩, Grows.refl _⟩
  | loadSync key =>
    unfold step? at happens
    dsimp only at happens
    split at happens <;> cases happens
    · next there => exact ⟨⟨co.1, co.2.add (.ofReturned there)⟩, Grows.refl _⟩
    · exact ⟨⟨co.1, co.2.add (.idle nofun nofun)⟩, Grows.refl _⟩
  | askSync i =>
    unfold step? at happens
    dsimp only at happens
    split at happens <;> cases happens
    exact ⟨⟨co.1, co.2.set (.idle nofun nofun)⟩, Grows.refl _⟩
  | answerSync i files =>
    unfold step? at happens
    dsimp only at happens
    split at happens <;> cases happens
    exact ⟨⟨co.1, co.2.set (.idle nofun nofun)⟩, Grows.refl _⟩
  | failSync i =>
    unfold step? at happens
    dsimp only at happens
    split at happens <;> cases happens
    exact ⟨⟨co.1, co.2.set (.idle nofun nofun)⟩, Grows.refl _⟩
  | publishSync i =>
    unfold step? at happens
    dsimp only at happens
    split at happens <;> cases happens
    next key files at_ =>
      have grows := publishGrows s.cache key files
      have same := publishInFlight s.cache key files
      refine ⟨⟨⟨same ▸ co.1.distinct, fun p => same ▸ co.1.inFlight p, co.1.single, ?_⟩, ?_⟩, grows⟩
      · exact fun l member f known => grows _ _ (co.1.results l member f known)
      · exact (co.2.grow grows fun i l at_ => ⟨l, at_, rfl⟩).set (.ofReturned (setDefaultGets s.cache key files))

theorem runCons (s : Traffic) (e : Event) (events : List Event) :
    s.run? (e :: events) = (s.step? e).bind (·.run? events) := by
  simp [run?, List.foldlM_cons, bind]

/-- What every event keeps, a run keeps. -/
theorem Coherent.run {events : List Event} (co : s.Coherent) (happens : s.run? events = some s') :
    s'.Coherent ∧ s.cache.Grows s'.cache := by
  induction events generalizing s with
  | nil =>
    cases happens
    exact ⟨co, Grows.refl _⟩
  | cons e events ih =>
    rw [runCons, Option.bind_eq_some_iff] at happens
    obtain ⟨next, first, rest⟩ := happens
    have ⟨now, grows⟩ := co.step e first
    have ⟨last, more⟩ := ih now rest
    exact ⟨last, fun key files there => more key files (grows key files there)⟩

theorem Coherent.initial : ({} : Traffic).Coherent := by
  refine ⟨⟨List.nodup_nil, fun p => ?_, ?_, ?_⟩, ⟨?_, ?_⟩⟩ <;> simp

/-- Of the loads for one key on one event loop, at most one has a call of the provider outstanding. -/
theorem Coherent.oneOutstanding (co : s.Coherent) {j : Nat} (here : s.loads[i]? = some l)
    (there : s.loads[j]? = some m) (first : l.isAsking) (second : m.isAsking) (same : l.place = m.place) : i = j := by
  have under {l : SharedLoad} (asking : l.isAsking) : l.underWay := by
    unfold SharedLoad.isAsking at asking
    unfold SharedLoad.underWay
    split at asking <;> simp_all
  exact co.1.single i j l m here there (under first) (under second) same

/-- A call that finds nothing, neither files nor a load in flight, starts a load. -/
theorem loadStarts {key : Key} {eventLoop : Nat} (nothing : s.cache.get? key = none)
    (none_ : (key, eventLoop) ∉ s.cache.inFlight) :
    ∃ s', s.step? (.load key eventLoop) = some s' ∧ s'.loads = s.loads ++ [⟨key, eventLoop, .scheduled⟩] := by
  rcases requestCases s.cache key eventLoop with ⟨_, there, _⟩ | ⟨_, flies, _⟩ | ⟨_, _, asked⟩
  · simp [nothing] at there
  · exact absurd flies none_
  · unfold step?
    simp [asked]

/-- A load whose provider has failed publishes nothing and can end. It is then no longer in flight, and
unless others have published files the next call on its event loop starts a new load. -/
theorem Coherent.failureLeaves (co : s.Coherent) (here : s.loads[i]? = some l) (failed : l.stage = .answered none) :
    s.step? (.publish i) = none ∧ ∃ s', s.step? (.leave i) = some s' ∧ s'.loads[i]? = some { l with stage := .ended none } ∧
      s'.cache.values = s.cache.values ∧ l.place ∉ s'.cache.inFlight ∧
      (s'.cache.get? l.key = none → ∃ s'', s'.step? (.load l.key l.eventLoop) = some s'' ∧
        s''.loads = s'.loads ++ [⟨l.key, l.eventLoop, .scheduled⟩]) := by
  obtain ⟨key, eventLoop, stage⟩ := l
  cases failed
  let s' := { s with cache := s.cache.finish key eventLoop }.setLoad i ⟨key, eventLoop, .ended none⟩
  have gone : (key, eventLoop) ∉ s'.cache.inFlight := co.1.distinct.not_mem_erase
  unfold step?
  refine ⟨by simp [here], s', by simp [here, s'], ?_, rfl, gone, fun nothing => loadStarts nothing gone⟩
  simp [s', setLoad, getSet here]

end Traffic

/-- The event is of loads on one event loop, and the provider does not fail. -/
def Event.SharesOn (eventLoop : Nat) : Event → Prop
  | .load _ other => other = eventLoop
  | .ask _ | .answer .. | .publish _ | .leave _ | .resume _ | .cancel _ => True
  | .fail _ | .loadSync _ | .askSync _ | .answerSync .. | .failSync _ | .publishSync _ => False

namespace Traffic

variable {s s' : Traffic} {i eventLoop : Nat} {l m : SharedLoad}

/-- Traffic of loads on one event loop that do not fail: every key has one load, which leaves its files
behind, and the provider is asked once for it. -/
structure Single (eventLoop : Nat) (s : Traffic) : Prop where
  onLoop : ∀ l ∈ s.loads, l.eventLoop = eventLoop
  perKey : ∀ (i j : Nat) (l m : SharedLoad), s.loads[i]? = some l → s.loads[j]? = some m → l.key = m.key → i = j
  succeeds : ∀ l ∈ s.loads, l.stage ≠ .answered none ∧ l.stage ≠ .ended none
  once : ∀ key, s.asked.count key ≤ 1
  known : ∀ key ∈ s.asked, ∃ l ∈ s.loads, l.key = key ∧ l.hasAsked

theorem Single.initial : Single eventLoop {} := by constructor <;> simp

/-- A load that goes on without failing, the provider having been asked before. -/
theorem Single.set (single : Single eventLoop s) {s' : Traffic} (here : s.loads[i]? = some l)
    (loads : s'.loads = s.loads.set i m) (asked : s'.asked = s.asked) (place : m.place = l.place)
    (still : l.hasAsked → m.hasAsked) (fine : m.stage ≠ .answered none ∧ m.stage ≠ .ended none) :
    Single eventLoop s' where
  onLoop x member := by
    rw [loads] at member
    rcases List.mem_or_eq_of_mem_set member with old | rfl
    · exact single.onLoop x old
    · exact (congrArg Prod.snd place).trans (single.onLoop l (List.mem_of_getElem? here))
  perKey j k x y atX atY same := by
    have key : m.key = l.key := congrArg Prod.fst place
    rw [loads, getSet here] at atX atY
    split at atX <;> split at atY
    · omega
    · cases atX
      next eq _ => exact eq ▸ single.perKey i k l y here atY (key.symm.trans same)
    · cases atY
      next _ eq => exact eq ▸ single.perKey j i x l atX here (same.trans key)
    · exact single.perKey j k x y atX atY same
  succeeds x member := by
    rw [loads] at member
    rcases List.mem_or_eq_of_mem_set member with old | rfl
    · exact single.succeeds x old
    · exact fine
  once key := asked ▸ single.once key
  known key member := by
    obtain ⟨x, old, same, has⟩ := single.known key (asked ▸ member)
    obtain ⟨j, at_⟩ := List.mem_iff_getElem?.mp old
    rw [loads]
    by_cases moved : i = j
    · subst moved
      cases here.symm.trans at_
      refine ⟨m, List.mem_of_getElem? (i := i) (by simp [getSet here]), ?_, still has⟩
      exact (congrArg Prod.fst place).trans same
    · exact ⟨x, List.mem_of_getElem? (i := j) (by simp [getSet here, moved, at_]), same, has⟩

/-- Where nothing is published and nothing in flight, no load has been made. -/
theorem Single.fresh (single : Single eventLoop s) (co : s.Coherent) {key : Key} (nothing : s.cache.get? key = none)
    (none_ : (key, eventLoop) ∉ s.cache.inFlight) : ∀ l ∈ s.loads, l.key ≠ key := by
  intro l member same
  have place : l.place = (key, eventLoop) := Prod.ext same (single.onLoop l member)
  obtain ⟨i, here⟩ := List.mem_iff_getElem?.mp member
  have ended : l.underWay = false := by
    by_contra under
    exact none_ ((co.1.inFlight _).mpr ⟨i, l, here, by simpa using under, place⟩)
  -- A load that has ended without failing has left its files.
  obtain ⟨_, loop, stage⟩ := l
  cases same
  cases stage with
  | ended result =>
    cases result with
    | none => exact (single.succeeds _ member).2 rfl
    | some files => simp [co.1.results _ member files rfl] at nothing
  | _ => cases ended

theorem Single.step (single : Single eventLoop s) (co : s.Coherent) {e : Event} (shares : e.SharesOn eventLoop)
    (happens : s.step? e = some s') : Single eventLoop s' := by
  cases e with
  | load key other =>
    have same : other = eventLoop := shares
    subst same
    rcases requestCases s.cache key other with ⟨files, there, asked⟩ | ⟨_, flies, asked⟩ | ⟨nothing, none_, asked⟩
    · unfold step? at happens
      simp only [asked, Option.some.injEq] at happens
      subst happens
      exact ⟨single.onLoop, single.perKey, single.succeeds, single.once, single.known⟩
    · obtain ⟨i, l, found, _⟩ := co.inFlightFound flies
      unfold step? at happens
      simp only [asked, found, Option.map_some, Option.some.injEq] at happens
      subst happens
      exact ⟨single.onLoop, single.perKey, single.succeeds, single.once, single.known⟩
    · unfold step? at happens
      simp only [asked, Option.some.injEq] at happens
      subst happens
      have new := single.fresh co nothing none_
      refine ⟨?_, ?_, ?_, single.once, ?_⟩
      · simpa [or_imp, forall_and] using single.onLoop
      · intro i j l m atL atM same
        simp only [getAppendOne] at atL atM
        split at atL <;> split at atM
        · omega
        · cases atL
          exact absurd same.symm (new m (List.mem_of_getElem? atM))
        · cases atM
          exact absurd same (new l (List.mem_of_getElem? atL))
        · exact single.perKey i j l m atL atM same
      · simpa [or_imp, forall_and] using single.succeeds
      · intro k member
        obtain ⟨l, old, has⟩ := single.known k member
        exact ⟨l, List.mem_append_left _ old, has⟩
  | ask i =>
    unfold step? at happens
    dsimp only at happens
    split at happens <;> cases happens
    next key loop here =>
      -- The provider has not been asked for this key: its only load has not asked.
      have never : key ∉ s.asked := by
        intro member
        obtain ⟨l, old, same, has⟩ := single.known key member
        obtain ⟨j, at_⟩ := List.mem_iff_getElem?.mp old
        have eq := single.perKey i j _ l here at_ same.symm
        subst eq
        cases here.symm.trans at_
        simp [SharedLoad.hasAsked] at has
      have moved : Single eventLoop (s.setLoad i ⟨key, loop, .asking⟩) :=
        single.set here rfl rfl rfl (fun _ => rfl) ⟨nofun, nofun⟩
      refine ⟨moved.onLoop, moved.perKey, moved.succeeds, fun k => ?_, fun k member => ?_⟩
      · rw [List.count_cons]
        split
        · next same => simp [← beq_iff_eq.mp same, List.count_eq_zero.mpr never]
        · simpa using single.once k
      · rcases List.mem_cons.mp member with rfl | old
        · exact ⟨⟨k, loop, .asking⟩, List.mem_of_getElem? (i := i) (by simp [setLoad, getSet here]), rfl, rfl⟩
        · exact moved.known k old
  | answer i files =>
    unfold step? at happens
    dsimp only at happens
    split at happens <;> cases happens
    next here => exact single.set here rfl rfl rfl (fun _ => rfl) ⟨nofun, nofun⟩
  | publish i =>
    unfold step? at happens
    dsimp only at happens
    split at happens <;> cases happens
    next here => exact single.set here rfl rfl rfl (fun _ => rfl) ⟨nofun, nofun⟩
  | leave i =>
    unfold step? at happens
    dsimp only at happens
    split at happens <;> cases happens
    · next here => exact single.set here rfl rfl rfl (fun _ => rfl) ⟨nofun, nofun⟩
    · next here => exact absurd rfl (single.succeeds _ (List.mem_of_getElem? here)).1
  | resume i =>
    unfold step? at happens
    dsimp only at happens
    split at happens <;> try cases happens
    split at happens <;> cases happens <;>
      exact ⟨single.onLoop, single.perKey, single.succeeds, single.once, single.known⟩
  | cancel i =>
    unfold step? at happens
    dsimp only at happens
    split at happens <;> cases happens
    exact ⟨single.onLoop, single.perKey, single.succeeds, single.once, single.known⟩
  | fail | loadSync | askSync | answerSync | failSync | publishSync => exact shares.elim

theorem Single.run {events : List Event} (single : Single eventLoop s) (co : s.Coherent)
    (shares : ∀ e ∈ events, e.SharesOn eventLoop) (happens : s.run? events = some s') : Single eventLoop s' := by
  induction events generalizing s with
  | nil =>
    cases happens
    exact single
  | cons e events ih =>
    rw [runCons, Option.bind_eq_some_iff] at happens
    obtain ⟨next, first, rest⟩ := happens
    have now := single.step co (shares e (by simp)) first
    exact ih now (co.step e first).1 (fun e member => shares e (by simp [member])) rest

end Traffic

/-- What holds of the traffic after some events. -/
structure Traffic.Orderly (events : List Event) (s : Traffic) : Prop where
  /-- What is published for a key never changes. -/
  stays : ∀ later s', s.run? later = some s' → ∀ key files, s.cache.get? key = some files →
    s'.cache.get? key = some files
  /-- Every call that has returned gave what is published for its key. -/
  agree : ∀ call ∈ s.calls, ∀ files, call.stage = .returned files → s.cache.get? call.key = some files
  /-- For each key and event loop one call of the provider is outstanding at most. -/
  singleFlight : ∀ (i j : Nat) (l m : SharedLoad), s.loads[i]? = some l → s.loads[j]? = some m →
    l.isAsking → m.isAsking → l.place = m.place → i = j
  /-- A place is in flight as long as a load for it has not ended. -/
  inFlight : ∀ place, place ∈ s.cache.inFlight ↔ ∃ l ∈ s.loads, l.underWay ∧ l.place = place
  /-- A failure of the provider changes nothing in the cache. -/
  failureSilent : ∀ i s', s.step? (.fail i) = some s' ∨ s.step? (.failSync i) = some s' → s'.cache = s.cache
  /-- A load whose provider has failed publishes nothing, can end, and leaves no entry behind, so that the
  next call starts a new load if nobody else has published files. -/
  failureEnds : ∀ (i : Nat) (l : SharedLoad), s.loads[i]? = some l → l.stage = .answered none →
    s.step? (.publish i) = none ∧ ∃ s', s.step? (.leave i) = some s' ∧ s'.loads[i]? = some { l with stage := .ended none } ∧
      s'.cache.values = s.cache.values ∧ l.place ∉ s'.cache.inFlight ∧
      (s'.cache.get? l.key = none → ∃ s'', s'.step? (.load l.key l.eventLoop) = some s'' ∧
        s''.loads = s'.loads ++ [⟨l.key, l.eventLoop, .scheduled⟩])
  /-- If all loads are on one event loop and the provider never fails, it is asked once for a key. -/
  askedOnce : ∀ eventLoop, (∀ e ∈ events, e.SharesOn eventLoop) → ∀ key, s.asked.count key ≤ 1

/-- Whatever the order of events, traffic is orderly. -/
theorem trafficOrderly (events : List Event) (s : Traffic) (happens : Traffic.run? {} events = some s) :
    s.Orderly events := by
  have co := (Traffic.Coherent.initial.run happens).1
  refine ⟨fun later s' more => (co.run more).2, co.2.returned, ?_, fun place => ?_, ?_, ?_, ?_⟩
  · exact fun i j l m here there first second => co.oneOutstanding here there first second
  · rw [co.1.inFlight]
    constructor
    · exact fun ⟨_, l, here, fits⟩ => ⟨l, List.mem_of_getElem? here, fits⟩
    · rintro ⟨l, member, fits⟩
      obtain ⟨i, here⟩ := List.mem_iff_getElem?.mp member
      exact ⟨i, l, here, fits⟩
  · rintro i s' (failed | failed) <;>
    · simp only [Traffic.step?] at failed
      split at failed <;> cases failed
      rfl
  · exact fun i l here failed => co.failureLeaves here failed
  · exact fun eventLoop shares => (Traffic.Single.initial.run Traffic.Coherent.initial shares happens).once

/-- Two calls share a load on one event loop, its provider fails and a third call starts another load;
meanwhile a call without an event loop publishes, and the new load gives its files. -/
def retryEvents : List Event :=
  let first : Files := ⟨[("/lib/lib.es5.d.ts", "")]⟩
  [.load ["es5"] 0, .load ["es5"] 0, .ask 0, .fail 0, .leave 0, .resume 0, .cancel 1, .load ["es5"] 0, .ask 1,
    .loadSync ["es5"], .askSync 3, .answerSync 3 first, .publishSync 3, .answer 1 {}, .publish 1, .leave 1, .resume 2]

theorem retryOrderly : ∃ s, Traffic.run? {} retryEvents = some s ∧ s.Orderly retryEvents ∧
    s.calls.map (·.stage) = [.raised, .cancelled, .returned ⟨[("/lib/lib.es5.d.ts", "")]⟩,
      .returned ⟨[("/lib/lib.es5.d.ts", "")]⟩] :=
  ⟨_, rfl, trafficOrderly retryEvents _ rfl, rfl⟩

end Fragment.Declarations
