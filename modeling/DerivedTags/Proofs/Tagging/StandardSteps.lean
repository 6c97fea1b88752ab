import DerivedTags.Proofs.Feature.Forcing
import DerivedTags.Proofs.Feature.Outside
import DerivedTags.Proofs.Journal.Quiet
import DerivedTags.Tagging.Pass
import DerivedTags.Tagging.Standard

/-!
# What a standard derivation does to a feature

A standard derivation stores values, leaves computations from the geometry, or
abstains, and which of these depends on the geometry only. Whatever it does, it
writes its own keys only, and no other standard derivation writes these.
-/

namespace DerivedTags

open DerivedTags.Geo
open DerivedTags.Snippet (Panic)

namespace Standard

/-- No key belongs to two standard derivations. -/
theorem nodup_keys : (all.flatMap Derivation.keys).Nodup := by decide

/-- Standard derivations that share a key are the same. -/
theorem eq_of_mem_keys {d e : Derivation} (hd : d ∈ all) (he : e ∈ all) {key : String}
    (mine : key ∈ d.keys) (theirs : key ∈ e.keys) : d = e := by
  have apart := (List.pairwise_flatMap.mp nodup_keys).2
  refine List.Pairwise.forall_of_forall_of_flip
    (R := fun d e => key ∈ d.keys → key ∈ e.keys → d = e) ?_ ?_ ?_ hd he mine theirs
  · exact fun _ _ _ _ => rfl
  · exact apart.imp fun disjoint mine theirs => absurd rfl (disjoint key mine key theirs)
  · exact apart.imp fun disjoint theirs mine => absurd rfl (disjoint key mine key theirs)

/-- On features of a geometry a derivation proposes no edit, and that is no
change. -/
structure Abstains (d : Derivation) (geometry : Option Geometry) : Prop where
  /-- It is not one that leaves computations. -/
  eager : d.isLazy = false
  /-- What it proposes instead of edits. -/
  proposes : ∃ verdict, verdict ≠ .ok (.ok true) ∧
    ∀ layer surroundings moment (f : Feature), f.geometry = geometry →
      d.propose layer surroundings moment f = .done ⟨[], verdict⟩

/-- How a derivation goes about features of a geometry: it stores values under
all its keys, leaves computations under all of them, or abstains. -/
inductive Course (d : Derivation) (geometry : Option Geometry) : Prop where
  /-- It stores values. -/
  | stores (eager : d.isLazy = false)
      (proposes : ∀ layer surroundings moment (f : Feature), f.geometry = geometry →
        ∃ values, values.map Prod.fst = d.keys ∧
          d.propose layer surroundings moment f = storing f values)
  /-- It abstains. -/
  | abstains (abstains : Abstains d geometry)
  /-- It leaves computations. -/
  | measures (deferring : d.isLazy = true) (measures : List (String × (Geometry → Float)))
      (keys : measures.map Prod.fst = d.keys)
      (proposes : ∀ layer surroundings moment f,
        d.propose layer surroundings moment f = measuring measures)

/-- The geometry decides how a standard derivation goes about a feature. -/
theorem course {d : Derivation} (std : d ∈ all) (geometry : Option Geometry) :
    Course d geometry := by
  simp only [all, List.mem_cons, List.not_mem_nil, or_false] at std
  rcases std with rfl | rfl | rfl | rfl | rfl | rfl
  · cases hp : geometry.bind Geometry.centre? with
    | none =>
      refine .abstains ⟨rfl, .ok (.ok false), by simp, fun _ _ _ f same => ?_⟩
      simp only [centre, same, hp, nothing]
    | some p =>
      by_cases finite : p.lat.isFinite && p.lon.isFinite
      · refine .stores rfl fun _ _ _ f same =>
          ⟨[("_lat", Json.ofFloat p.lat), ("_lon", Json.ofFloat p.lon)], rfl, ?_⟩
        simp only [centre, same, hp, finite, if_true]
      · refine .abstains
          ⟨rfl, .ok (.error (.ofDerivation centreKeys "centroid is not finite")), by simp,
            fun _ _ _ f same => ?_⟩
        simp only [centre, same, hp, finite, Bool.false_eq_true, if_false]
  · exact .stores rfl fun l _ _ f _ => ⟨[("_layer", .str l.id)], rfl, rfl⟩
  · cases geometry with
    | none =>
      refine .abstains ⟨rfl, .ok (.ok false), by simp, fun _ _ _ f same => ?_⟩
      simp only [geometryKind, same, nothing]
    | some g =>
      refine .stores rfl fun _ _ _ f same => ⟨[("_geometry:type", .str g.kind)], rfl, ?_⟩
      simp only [geometryKind, same]
  · exact .measures rfl _ (by rfl) fun _ _ _ _ => rfl
  · exact .measures rfl _ (by rfl) fun _ _ _ _ => rfl
  · exact .stores rfl fun _ _ moment f _ =>
      ⟨[("_now:date", .str moment.date), ("_now:datetime", .str moment.dateTime)], rfl, rfl⟩

/-- A key holds a computation from the geometry whose number is not below a
bound. -/
def Installed (least : Nat) (f : Feature) (key : String) : Prop :=
  ∃ (id : Nat) (measure : Geometry → Float), least ≤ id ∧
    f.properties.slot? key = some (.deferred ⟨id, fromGeometry measure⟩)

/-- Edits that leave computations write their keys only, and leave one under each
of them. -/
theorem applyAll_measures (measures : List (String × (Geometry → Float)))
    (nodup : (measures.map Prod.fst).Nodup) (f : Feature) (s : Session) :
    ∃ g after,
      Edit.applyAll (measures.map fun (key, measure) => .defer key (fromGeometry measure)) f s =
          (g, after) ∧
        Feature.AgreeOutside (measures.map Prod.fst) f g ∧ s.Quiet after ∧
        ∀ key ∈ measures.map Prod.fst, Installed s.nextDeferred g key := by
  induction measures generalizing f s with
  | nil => exact ⟨f, s, rfl, .refl _ f, .refl s, by simp⟩
  | cons entry rest ih =>
    obtain ⟨key, measure⟩ := entry
    rw [List.map_cons, List.nodup_cons] at nodup
    let installed : Slot := .deferred ⟨s.nextDeferred, fromGeometry measure⟩
    obtain ⟨g, after, applied, agree, quiet, found⟩ :=
      ih nodup.2 (f.set key installed) (newDeferred s).2
    refine ⟨g, after, applied, ?_, (Session.Quiet.newDeferred s).trans quiet, ?_⟩
    · exact (Feature.AgreeOutside.set List.mem_cons_self f installed).trans
        (agree.mono (List.subset_cons_self _ _))
    · intro other mem
      rcases List.mem_cons.mp mem with rfl | mem
      · refine ⟨s.nextDeferred, measure, Nat.le_refl _, ?_⟩
        rw [agree.slot?_eq nodup.1]
        simp [Feature.set, Feature.withProperties, Properties.slot?_set, installed]
      · obtain ⟨id, measure, bound, slot⟩ := found other mem
        exact ⟨id, measure, Nat.le_of_succ_le bound, slot⟩

/-- Forcing an installed computation from the geometry writes its key only. What
stays there is a value if there is a geometry, and else nothing. -/
theorem force_installed {least : Nat} {f : Feature} {key : String} {s : Session}
    (installed : Installed least f key)
    (free : f.geometry = none ∨ ∀ id ∈ s.evaluating, id < least) :
    ∃ a g, f.force key s = ((.ok a, g), s) ∧ Feature.AgreeOutside [key] f g ∧
      g.properties.contains key = f.geometry.isSome := by
  obtain ⟨id, measure, bound, slot⟩ := installed
  have mem : key ∈ [key] := List.mem_singleton_self key
  cases shape : f.geometry with
  | none =>
    have given : Deferred.answered ⟨id, fromGeometry measure⟩ s (.ok none) = .ok none := by
      simp [Deferred.answered]
    have done : fromGeometry measure f.view = .done (.ok none) := by
      simp [fromGeometry, Feature.view, shape]
    refine ⟨none, f.erase key, Feature.force_none slot done given, .erase mem f, ?_⟩
    simp [Feature.erase, Feature.withProperties, Properties.contains_erase]
  | some geometry =>
    have lower := free.resolve_left (by simp [shape])
    have fresh : id ∉ s.evaluating := fun running =>
      absurd (lower id running) (Nat.not_lt_of_le bound)
    let value := textOfNumber (measure geometry)
    have given : Deferred.answered ⟨id, fromGeometry measure⟩ s (.ok (some value)) =
        .ok (some value) := by
      simp [Deferred.answered, fresh]
    have done : fromGeometry measure f.view = .done (.ok (some value)) := by
      simp [fromGeometry, Feature.view, shape, value]
    refine ⟨some value, f.set key (.concrete value), Feature.force_some slot done given,
      .set mem f _, ?_⟩
    simp [Feature.set, Feature.withProperties, Properties.contains_set]

/-- Forcing installed computations from the geometry writes their keys only. What
stays there are values if there is a geometry, and else nothing. -/
theorem forceKeys_installed {least : Nat} {keys : List String} (nodup : keys.Nodup)
    {f : Feature} {s : Session} (installed : ∀ key ∈ keys, Installed least f key)
    (free : f.geometry = none ∨ ∀ id ∈ s.evaluating, id < least) :
    ∃ g, f.forceKeys keys s = ((.ok (), g), s) ∧ Feature.AgreeOutside keys f g ∧
      ∀ key ∈ keys, g.properties.contains key = f.geometry.isSome := by
  induction keys generalizing f with
  | nil => exact ⟨f, rfl, .refl _ f, by simp⟩
  | cons key rest ih =>
    rw [List.nodup_cons] at nodup
    obtain ⟨a, g, forced, agree, present⟩ :=
      force_installed (installed key List.mem_cons_self) free
    have others : ∀ other ∈ rest, Installed least g other := by
      intro other mem
      obtain ⟨id, measure, bound, slot⟩ := installed other (List.mem_cons_of_mem _ mem)
      have different : other ∉ [key] := by
        rw [List.mem_singleton]
        rintro rfl
        exact nodup.1 mem
      exact ⟨id, measure, bound, by rw [agree.slot?_eq different, slot]⟩
    obtain ⟨h, forcedAll, agreeAll, presentAll⟩ := ih nodup.2 others (agree.geometry ▸ free)
    refine ⟨h, ?_, ?_, ?_⟩
    · simp [Feature.forceKeys, forced, forcedAll]
    · exact (agree.mono (by simp)).trans (agreeAll.mono (List.subset_cons_self _ _))
    · intro other mem
      rcases List.mem_cons.mp mem with rfl | mem
      · rw [agreeAll.contains_eq nodup.1, present]
      · rw [presentAll other mem, agree.geometry]

/-- Edits that store values write their keys only; after them there is a value
under each of these, and what was there still is. -/
theorem applyAll_stores (origin : Feature) (values : List (String × Json)) (f : Feature)
    (s : Session)
    (kept : ∀ key, origin.properties.contains key = true → f.properties.contains key = true) :
    ∃ g,
      Edit.applyAll (values.flatMap fun (key, value) => store origin key value) f s = (g, s) ∧
        Feature.AgreeOutside (values.map Prod.fst) f g ∧
        (∀ key, f.properties.contains key = true → g.properties.contains key = true) ∧
        ∀ key ∈ values.map Prod.fst, g.properties.contains key = true := by
  induction values generalizing f with
  | nil => exact ⟨f, rfl, .refl _ f, fun _ present => present, by simp⟩
  | cons entry rest ih =>
    obtain ⟨key, value⟩ := entry
    rw [List.flatMap_cons, List.map_cons]
    by_cases same : (origin.properties.concrete? key).any (·.same value)
    · obtain ⟨g, applied, agree, more, present⟩ := ih f kept
      refine ⟨g, ?_, agree.mono (List.subset_cons_self _ _), more, ?_⟩
      · simpa only [store, same, if_true, List.nil_append] using applied
      · intro other mem
        rcases List.mem_cons.mp mem with rfl | mem
        · apply more
          apply kept
          cases found : origin.properties.slot? other with
          | none => simp [Properties.concrete?, found] at same
          | some slot => simp [Properties.contains, found]
        · exact present other mem
    · have step (other : String) (here : f.properties.contains other = true) :
          (f.set key (.concrete value)).properties.contains other = true := by
        simp [Feature.set, Feature.withProperties, Properties.contains_set, here]
      obtain ⟨g, applied, agree, more, present⟩ :=
        ih (f.set key (.concrete value)) fun other there => step other (kept other there)
      refine ⟨g, ?_, ?_, fun other here => more other (step other here), ?_⟩
      · simpa [store, same, Edit.applyAll, Edit.apply] using applied
      · exact (Feature.AgreeOutside.set List.mem_cons_self f _).trans
          (agree.mono (List.subset_cons_self _ _))
      · intro other mem
        rcases List.mem_cons.mp mem with rfl | mem
        · apply more
          simp [Feature.set, Feature.withProperties, Properties.contains_set]
        · exact present other mem

/-- A derivation that asks for no property carries out the edits it proposes, and
is quiet afterwards. -/
theorem runContained_done {d : Derivation} {layer : Layer} {surroundings : Surroundings}
    {f g : Feature} {s after : Session} {proposal : Proposal}
    (proposes : d.propose layer surroundings (surroundings.clock s.ticks) f = .done proposal)
    (applied : Edit.applyAll proposal.edits f (tick s).2 = (g, after)) :
    ∃ changed last, d.runContained layer surroundings f s = ((changed, g), last) ∧
      after.Quiet last ∧ (changed = true → proposal.verdict = .ok (.ok true)) := by
  have ran : d.run layer surroundings f s = ((proposal.verdict, g), after) := by
    have ticked : (tick s).1 = s.ticks := rfl
    simp [Derivation.run, ticked, proposes, Feature.run, Reading.run, applied]
  rcases verdict : proposal.verdict with panic | e | changed
  · let line : LogLine := .derivationFailed (.ofDerivation d.keys panic.message)
    refine ⟨false, (writeLine line after).2, ?_, .writeLine line after, by simp⟩
    simp only [Derivation.runContained, Session.bind_apply, ran, verdict]
    rfl
  · let line : LogLine := .derivationFailed e
    refine ⟨false, (writeLine line after).2, ?_, .writeLine line after, by simp⟩
    simp only [Derivation.runContained, Session.bind_apply, ran, verdict]
    rfl
  · refine ⟨changed, after, ?_, .refl after, by simp⟩
    simp only [Derivation.runContained, Session.bind_apply, ran, verdict]
    rfl

/-- The edits that standard derivations propose. -/
inductive Proposes : Edit → Prop where
  /-- A value is put. -/
  | insert (key : String) (value : Json) : Proposes (.insert key value)
  /-- A computation from the geometry is left. -/
  | defer (key : String) (measure : Geometry → Float) :
      Proposes (.defer key (fromGeometry measure))

/-- A standard derivation asks for no property and proposes such edits only. -/
theorem propose_done {d : Derivation} (std : d ∈ all) (layer : Layer)
    (surroundings : Surroundings) (moment : Moment) (f : Feature) :
    ∃ proposal, d.propose layer surroundings moment f = .done proposal ∧
      ∀ e ∈ proposal.edits, Proposes e := by
  cases course std f.geometry with
  | stores _ proposes =>
    obtain ⟨values, -, proposed⟩ := proposes layer surroundings moment f rfl
    refine ⟨_, proposed, fun e mem => ?_⟩
    obtain ⟨⟨key, value⟩, -, stored⟩ := List.mem_flatMap.mp mem
    simp only [store] at stored
    split at stored
    · cases stored
    · rw [List.mem_singleton.mp stored]
      exact .insert key value
  | abstains abstains =>
    obtain ⟨verdict, -, proposed⟩ := abstains.proposes
    exact ⟨_, proposed layer surroundings moment f rfl, fun e mem => nomatch mem⟩
  | measures _ measures _ proposes =>
    refine ⟨_, proposes layer surroundings moment f, fun e mem => ?_⟩
    obtain ⟨⟨key, measure⟩, -, rfl⟩ := List.mem_map.mp mem
    exact .defer key measure

end Standard

/-- Whether a proposal counts as a change: errors and panics do not. -/
def Proposal.counts (p : Proposal) : Bool :=
  match p.verdict with
  | .ok (.ok changed) => changed
  | _ => false

/-- A derivation that asks for no property carries out what it proposes. -/
theorem Derivation.runContained_fst {d : Derivation} {layer : Layer}
    {surroundings : Surroundings} {f : Feature} {s : Session} {proposal : Proposal}
    (proposes : d.propose layer surroundings (surroundings.clock s.ticks) f = .done proposal) :
    (d.runContained layer surroundings f s).1 =
      (proposal.counts, (Edit.applyAll proposal.edits f (tick s).2).1) := by
  have ticked : (tick s).1 = s.ticks := rfl
  simp only [runContained, run, Session.bind_apply, ticked, proposes, Feature.run, Reading.run,
    Session.pure_apply, Proposal.counts]
  rcases proposal.verdict with panic | e | changed <;> rfl

end DerivedTags
