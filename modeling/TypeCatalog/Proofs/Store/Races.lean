import Mathlib.Data.List.Induction
import Mathlib.Data.List.TakeWhile
import Mathlib.Logic.Function.Basic
import TypeCatalog.Proofs.Store.Turns

/-! Registrations at work on the same artifacts at the same time. Their turns come in any order,
and each artifact is left as the last call that wrote it had it. A sync is two turns, so it need
not be one call that comes last at both. -/
namespace TypeCatalog

structure Race (ι : Type) where
  tree : Tree
  pending : ι → Call.Work

namespace Race

variable {ι : Type}

/-- What a call has told, once it is done and has not failed. -/
def told? (race : Race ι) (i : ι) : Option Registration :=
  match race.pending i with
  | .done told => told.toOption
  | _ => none

theorem pending_of_told? {race : Race ι} {i : ι} (told : (race.told? i).isSome) :
    ∃ r, race.pending i = .done (.ok r) := by
  unfold told? at told
  split at told
  · rename_i result ended
    cases result with
    | error e => cases told
    | ok r => exact ⟨r, ended⟩
  · cases told

def start (calls : ι → Call) (l : Locations) (t : Tree) : Race ι where
  tree := t
  pending i := ((calls i).document.registering (calls i).name l).run.quiet

variable [DecidableEq ι]

/-- One turn of one call. A call that is done lets it pass. -/
def step (race : Race ι) (i : ι) : Race ι :=
  let (rest, tree) := (race.pending i).advance race.tree
  ⟨tree, Function.update race.pending i rest⟩

def run (race : Race ι) (schedule : List ι) : Race ι := schedule.foldl step race

theorem run_concat (race : Race ι) (schedule : List ι) (i : ι) :
    race.run (schedule ++ [i]) = (race.run schedule).step i := by
  simp [run]

theorem step_keepsDirectories (race : Race ι) (i : ι) :
    race.tree.KeepsDirectories (race.step i).tree :=
  (race.pending i).advance_keepsDirectories race.tree

def Failed (race : Race ι) : Prop := ∃ i e, race.pending i = .done (.error e)

theorem Failed.step {race : Race ι} (failed : race.Failed) (j : ι) : (race.step j).Failed := by
  obtain ⟨i, e, ended⟩ := failed
  refine ⟨i, e, ?_⟩
  by_cases same : i = j
  · subst same
    simp [Race.step, ended, Session.advance]
  · simp [Race.step, same, ended]

/-- The call that was the last to come to the turn at which it writes the artifact. -/
def lastToWrite (a : Artifact) (schedule : List ι) : Option ι :=
  latest schedule.reverse
where
  /-- The turns are most recent first. -/
  latest : List ι → Option ι
    | [] => none
    | i :: earlier => if earlier.count i = a.turn then some i else latest earlier

theorem lastToWrite_concat (a : Artifact) (schedule : List ι) (i : ι) :
    lastToWrite a (schedule ++ [i]) =
      if schedule.count i = a.turn then some i else lastToWrite a schedule := by
  simp [lastToWrite, lastToWrite.latest]

theorem lt_count_of_lastToWrite {a : Artifact} {schedule : List ι} {i : ι}
    (last : lastToWrite a schedule = some i) : a.turn < schedule.count i := by
  induction schedule using List.reverseRecOn with
  | nil => cases last
  | append_singleton schedule j ih =>
    rw [lastToWrite_concat] at last
    split at last
    · obtain rfl := Option.some.inj last
      simp [*]
    · have := ih last
      rw [List.count_append]
      omega

theorem mem_of_lastToWrite {a : Artifact} {schedule : List ι} {i : ι}
    (last : lastToWrite a schedule = some i) : i ∈ schedule :=
  List.count_pos_iff.mp (Nat.zero_lt_of_lt (lt_count_of_lastToWrite last))

theorem exists_lastToWrite {a : Artifact} {schedule : List ι} {i : ι}
    (wrote : a.turn < schedule.count i) : ∃ j, lastToWrite a schedule = some j := by
  induction schedule using List.reverseRecOn with
  | nil => cases wrote
  | append_singleton schedule j ih =>
    rw [lastToWrite_concat]
    split
    · exact ⟨j, rfl⟩
    · rename_i other
      apply ih
      by_cases same : j = i
      · subst same
        simp at wrote
        omega
      · simpa [List.count_append, same] using wrote

section

variable (calls : ι → Call) (l : Locations) (t : Tree)

def found (schedule : List ι) (i : ι) : Except CatalogError Catalog :=
  Store.pulled l ((start calls l t).run (schedule.takeWhile fun j => j ≠ i)).tree

variable {calls l t}

theorem found_concat {schedule : List ι} {i : ι} (member : i ∈ schedule) (j : ι) :
    found calls l t (schedule ++ [j]) i = found calls l t schedule i := by
  have same : (schedule ++ [j]).takeWhile (fun j => decide (j ≠ i)) =
      schedule.takeWhile (fun j => decide (j ≠ i)) := by
    rw [List.takeWhile_append, if_neg]
    intro full
    have whole := (List.takeWhile_prefix fun j => decide (j ≠ i)).eq_of_length full
    simpa using List.takeWhile_eq_self_iff.mp whole i member
  rw [found, found, same]

theorem found_concat_self {schedule : List ι} {i : ι} (new : i ∉ schedule) :
    found calls l t (schedule ++ [i]) i = Store.pulled l ((start calls l t).run schedule).tree := by
  have whole : (schedule ++ [i]).takeWhile (fun j => decide (j ≠ i)) = schedule := by
    rw [List.takeWhile_append_of_pos]
    · simp
    · intro j member
      simpa using ne_of_mem_of_not_mem member new
  rw [found, whole]

/-- Where a race stands that has not failed: each call has what it pulled and its turns behind
it, and each artifact that has been written is as the last to write it had it. -/
structure Tracks (calls : ι → Call) (l : Locations) (t : Tree) (schedule : List ι) : Prop where
  pending : ∀ i, ∃ c, (i ∈ schedule → found calls l t schedule i = .ok c) ∧
    ((start calls l t).run schedule).pending i =
      (calls i).remaining l c (schedule.count i)
  written : ∀ a i, lastToWrite a schedule = some i →
    ∃ c, found calls l t schedule i = .ok c ∧
      ((start calls l t).run schedule).tree.read (a.path l) = .ok (a.text ((calls i).enter c))

theorem tracks_start : Tracks calls l t [] where
  pending i := ⟨∅, nofun, (calls i).registering_quiet l⟩
  written _ _ last := nomatch last

/-- One turn. The call whose turn it is may fail. If not, it is one turn further on, and the
artifact that it has written, if it was time for one, is the only one that may have changed. -/
theorem tracks_concat {schedule : List ι} (tracks : Tracks calls l t schedule) (j : ι)
    (apart : ((start calls l t).run (schedule ++ [j])).tree.Apart l.definition l.declarations) :
    ((start calls l t).run (schedule ++ [j])).Failed ∨ Tracks calls l t (schedule ++ [j]) := by
  obtain ⟨c, knows, left⟩ := tracks.pending j
  rcases advanced : (((start calls l t).run schedule).pending j).advance
    ((start calls l t).run schedule).tree with ⟨rest, tree⟩
  have next : (start calls l t).run (schedule ++ [j]) =
      ⟨tree, Function.update ((start calls l t).run schedule).pending j rest⟩ := by
    rw [run_concat, step, advanced]
  rw [next] at apart
  rw [left] at advanced
  rcases Call.advance_remaining advanced with ⟨e, ended⟩ | ⟨c', same, further, took⟩
  · exact .inl ⟨j, e, by simp [next, ended]⟩
  right
  -- The first turn of `j` is the one at which it pulls; the later ones leave its catalog alone.
  have here : found calls l t (schedule ++ [j]) j = .ok c' := by
    by_cases member : j ∈ schedule
    · rw [found_concat member, knows member, same (List.count_pos_iff.mpr member).ne']
    · rw [found_concat_self member, took.pulls (List.count_eq_zero.mpr member)]
  constructor
  · intro i
    by_cases own : i = j
    · subst own
      exact ⟨c', fun _ => here, by simp [next, further]⟩
    · obtain ⟨d, known, left⟩ := tracks.pending i
      refine ⟨d, fun member => ?_, ?_⟩
      · have earlier : i ∈ schedule := by simpa [own] using member
        rw [found_concat earlier, known earlier]
      · simp [next, own, left, List.count_append, Ne.symm own]
  · intro a i last
    rw [lastToWrite_concat] at last
    split at last
    · rename_i own
      obtain rfl := Option.some.inj last
      exact ⟨c', here, by rw [next]; exact took.read own.symm⟩
    · rename_i other
      obtain ⟨d, known, read⟩ := tracks.written a i last
      refine ⟨d, ?_, ?_⟩
      · rw [found_concat (mem_of_lastToWrite last), known]
      · rw [next]
        exact took.read_other (Ne.symm other) apart read

/-- A whole race. Paths that lead apart in the end have led apart all along. -/
theorem tracks (schedule : List ι)
    (apart : ((start calls l t).run schedule).tree.Apart l.definition l.declarations) :
    ((start calls l t).run schedule).Failed ∨ Tracks calls l t schedule := by
  induction schedule using List.reverseRecOn with
  | nil => exact .inr tracks_start
  | append_singleton schedule j ih =>
    have keeps := step_keepsDirectories ((start calls l t).run schedule) j
    rw [← run_concat] at keeps
    rcases ih (apart.earlier keeps) with failed | tracks
    · rw [run_concat]
      exact .inl (failed.step j)
    · exact tracks_concat tracks j apart

theorem Tracks.read_last {schedule : List ι} {a : Artifact} {i : ι} {c : Catalog}
    (tracks : Tracks calls l t schedule) (last : lastToWrite a schedule = some i)
    (pulls : found calls l t schedule i = .ok c) :
    ((start calls l t).run schedule).tree.read (a.path l) = .ok (a.text ((calls i).enter c)) := by
  obtain ⟨c', known, read⟩ := tracks.written a i last
  rw [pulls] at known
  obtain rfl := Except.ok.inj known
  exact read

/-- Calls that are all done have not failed, and each has been through its turns. -/
theorem tracks_of_finished {schedule : List ι} {told : ι → Registration}
    (finished : ∀ i, ((start calls l t).run schedule).pending i = .done (.ok (told i)))
    (apart : ((start calls l t).run schedule).tree.Apart l.definition l.declarations) :
    Tracks calls l t schedule ∧ ∀ (a : Artifact) (i : ι), a.turn < schedule.count i := by
  rcases tracks schedule apart with ⟨i, e, ended⟩ | tracks
  · rw [finished i] at ended
    cases ended
  refine ⟨tracks, fun a i => ?_⟩
  obtain ⟨c, -, left⟩ := tracks.pending i
  rw [finished i] at left
  by_contra short
  -- With fewer turns a call still has a file to read or to write.
  have few : schedule.count i = 0 ∨ schedule.count i = 1 ∨ schedule.count i = 2 := by
    cases a <;> simp only [Artifact.turn] at short <;> omega
  rcases few with count | count | count <;> rw [count] at left <;> cases left

end

end Race

/-- When all calls of a race are done and none has failed, the definition is as the last to
write a definition had it, and the declarations are as the last to write declarations had them,
which is the last to be done with its sync. Both are those of the last sync exactly if the two
catalogs are the same, and those of any one catalog exactly if the two declare the same. -/
theorem race_settles_iff {ι : Type} [DecidableEq ι] [Nonempty ι] {calls : ι → Call}
    {l : Locations} {t : Tree} {schedule : List ι} {told : ι → Registration}
    (finished : ∀ i,
      ((Race.start calls l t).run schedule).pending i = .done (.ok (told i)))
    (apart : ((Race.start calls l t).run schedule).tree.Apart l.definition l.declarations) :
    let settled := ((Race.start calls l t).run schedule).tree
    ∃ (definer finisher : ι) (c : ι → Catalog),
      Race.lastToWrite .definition schedule = some definer ∧
      Race.lastToWrite .declarations schedule = some finisher ∧
      (∀ i, (Race.found calls l t schedule i).map (calls i).enter = .ok (c i)) ∧
      settled.read l.definition = .ok (c definer).definition ∧
      settled.read l.declarations = .ok (c finisher).declarations ∧
      (settled.Holds l (c finisher) ↔ c definer = c finisher) ∧
      ((∃ c', settled.Holds l c') ↔ (c definer).declarations = (c finisher).declarations) := by
  intro settled
  obtain ⟨tracks, through⟩ := Race.tracks_of_finished finished apart
  have pulled : ∀ i, ∃ c, Race.found calls l t schedule i = .ok c := by
    intro i
    obtain ⟨c, known, -⟩ := tracks.pending i
    exact ⟨c, known (List.count_pos_iff.mp (Nat.zero_lt_of_lt (through .definition i)))⟩
  choose before pulls using pulled
  -- Every call has come to its last turn, so each artifact has been written at least once.
  obtain ⟨any⟩ := ‹Nonempty ι›
  obtain ⟨definer, lastDefinition⟩ := Race.exists_lastToWrite (through .definition any)
  obtain ⟨finisher, lastDeclarations⟩ := Race.exists_lastToWrite (through .declarations any)
  have defined := tracks.read_last lastDefinition (pulls definer)
  have declared := tracks.read_last lastDeclarations (pulls finisher)
  refine ⟨definer, finisher, fun i => (calls i).enter (before i), lastDefinition,
    lastDeclarations, fun i => ?_, defined, declared, ?_, ?_⟩
  · rw [pulls]
    rfl
  · rw [Tree.holds_iff defined declared]
    exact ⟨fun same => same.1.symm, fun same => ⟨same.symm, rfl⟩⟩
  · rw [Tree.exists_holds_iff defined declared]
    exact eq_comm

/-- Two calls read before either writes, and the one that is first to write the definition is
last to write the declarations: what is left is the definition of one and the declarations of
the other. -/
theorem race_mixes_artifacts :
    let calls : Fin 2 → Call := fun i => ⟨⟨[]⟩, if i = 0 then "a" else "b"⟩
    let l : Locations := ⟨⟨"def.json"⟩, ⟨"types.d.ts"⟩⟩
    let race := (Race.start calls l ∅).run [0, 1, 0, 1, 1, 0]
    (∀ i, ∃ told, race.pending i = .done (.ok told)) ∧
      race.tree.Apart l.definition l.declarations ∧ ¬∃ c, race.tree.Holds l c := by
  intro calls l race
  have told : ∀ i, (race.told? i).isSome := by decide +kernel
  have differ : race.tree.resolve l.definition ≠ race.tree.resolve l.declarations := by
    decide +kernel
  have defined : race.tree.read l.definition = .ok ((calls 1).enter ∅).definition :=
    eq_ok_of_toOption (by decide +kernel)
  have declared : race.tree.read l.declarations = .ok ((calls 0).enter ∅).declarations :=
    eq_ok_of_toOption (by decide +kernel)
  refine ⟨fun i => Race.pending_of_told? (told i), Tree.apart_of_ne differ, ?_⟩
  rintro ⟨c, held⟩
  obtain ⟨rfl, same⟩ := (Tree.holds_iff defined declared).mp held
  revert same
  decide +kernel

/-- Each turn is taken by the first call and then by the second, so both artifacts are those of
the second, without the entry of the first. -/
theorem race_settles_on_second :
    let calls : Fin 2 → Call := fun i => ⟨⟨[]⟩, if i = 0 then "a" else "b"⟩
    let l : Locations := ⟨⟨"def.json"⟩, ⟨"types.d.ts"⟩⟩
    let settled := ((Race.start calls l ∅).run [0, 1, 0, 1, 0, 1]).tree
    ∃ c, settled.Holds l c ∧ c.keys = ["b"] := by
  intro calls l settled
  have told : ∀ i, (((Race.start calls l ∅).run [0, 1, 0, 1, 0, 1]).told? i).isSome := by
    decide +kernel
  have differ : settled.resolve l.definition ≠ settled.resolve l.declarations := by
    decide +kernel
  choose outcome finished using fun i => Race.pending_of_told? (told i)
  obtain ⟨definer, finisher, c, lastDefinition, lastDeclarations, pulls, -, -, wins, -⟩ :=
    race_settles_iff finished (Tree.apart_of_ne differ)
  obtain rfl : (1 : Fin 2) = definer := Option.some.inj lastDefinition
  obtain rfl : (1 : Fin 2) = finisher := Option.some.inj lastDeclarations
  have empty : Race.found calls l ∅ [0, 1, 0, 1, 0, 1] 1 = .ok ∅ :=
    eq_ok_of_toOption (by decide +kernel)
  have mine := pulls 1
  rw [empty] at mine
  refine ⟨c 1, wins.mpr rfl, ?_⟩
  rw [← Except.ok.inj mine]
  rfl

end TypeCatalog
