import DerivedTags.Proofs.Feature.Calm
import DerivedTags.Proofs.Tagging.Settling
import DerivedTags.Proofs.Tagging.Visits

/-!
# What a strict pass leaves deferred

A pass under which nothing may stay deferred forces what its derivations leave, and
after the calculated tags of the layer it forces everything. A property that was
deferred before stays deferred where there are no tags and no derivation replaces it: a
derivation whose keys are all there is skipped, whether they hold values or not.
-/

namespace DerivedTags

open DerivedTags.Standard
open DerivedTags.Geo (Geometry)

namespace Feature

/-- Forcing a property writes its key only. -/
theorem agree_force (f : Feature) (key : String) (s : Session) :
    AgreeOutside [key] f (f.force key s).1.2 := by
  rcases f.force_snd key s with same | same
  · rw [same]
    exact .refl _ f
  · rw [same]
    rcases (f.get key s).1 with panic | _ | v
    · exact .refl _ f
    · exact .erase List.mem_cons_self f
    · exact .set List.mem_cons_self f _

/-- Forcing properties writes their keys only. -/
theorem agree_forceKeys (keys : List String) (f : Feature) (s : Session) :
    AgreeOutside keys f (f.forceKeys keys s).1.2 := by
  induction keys generalizing f s with
  | nil => exact .refl _ f
  | cons key rest ih =>
    have first := (f.agree_force key s).mono (by simp : [key] ⊆ key :: rest)
    rcases forced : f.force key s with ⟨⟨panic | v, g⟩, mid⟩
    all_goals rw [forced] at first
    all_goals simp only [forceKeys, Session.bind_apply, forced]
    · exact first
    · exact first.trans ((ih g mid).mono (List.subset_cons_self _ _))

end Feature

namespace Standard

/-- Values that are stored leave nothing deferred under their keys, and make nothing
deferred under others. -/
theorem plain_applyAll_stores (origin : Feature) (values : List (String × Json)) (f : Feature)
    (s : Session)
    (kept : ∀ key v, origin.properties.concrete? key = some v → f.Plain key) {key : String}
    (stored : f.Plain key ∨ key ∈ values.map Prod.fst) :
    (Edit.applyAll (values.flatMap fun (key, value) => store origin key value) f s).1.Plain
      key := by
  induction values generalizing f with
  | nil => exact stored.resolve_right List.not_mem_nil
  | cons entry rest ih =>
    obtain ⟨own, value⟩ := entry
    rw [List.flatMap_cons]
    by_cases same : (origin.properties.concrete? own).any (·.same value)
    · simp only [store, same, if_true, List.nil_append]
      refine ih f kept ?_
      rcases stored with plain | mem
      · exact .inl plain
      · rcases List.mem_cons.mp mem with rfl | mem
        · cases found : origin.properties.concrete? key with
          | none => simp [found] at same
          | some v => exact .inl (kept key v found)
        · exact .inr mem
    · simp only [store, same, Bool.false_eq_true, if_false, List.singleton_append, Edit.applyAll,
        Edit.apply, Session.bind_apply, Session.pure_apply]
      refine ih _ (fun other v found => (kept other v found).set own value) ?_
      rcases stored with plain | mem
      · exact .inl (plain.set own value)
      · rcases List.mem_cons.mp mem with rfl | mem
        · exact .inl fun d => by
            simp [Feature.set, Feature.withProperties, Properties.slot?_set]
        · exact .inr mem

/-- On a feature whose visit began with the keys `before`, the derivation writes anew
what is under its keys. -/
structure Replaces (before : List String) (d : Derivation) (f : Feature) : Prop where
  /-- It is not skipped, since one of its keys is missing. -/
  missing : ∃ key ∈ d.keys, f.properties.contains key = false
  /-- If it is lazy, one of them was missing before. -/
  late : d.isLazy = true → ∃ key ∈ d.keys, key ∉ before
  /-- It does not abstain. -/
  writes : ¬Abstains d f.geometry

/-- When a visit begins, a derivation replaces what is under its keys if one of them is
missing and it does not abstain. -/
theorem replaces_keys_iff (d : Derivation) (f : Feature) :
    Replaces f.properties.keys d f ↔
      (∃ key ∈ d.keys, f.properties.contains key = false) ∧ ¬Abstains d f.geometry := by
  refine ⟨fun replaces => ⟨replaces.missing, replaces.writes⟩, fun ⟨missing, writes⟩ =>
    ⟨missing, fun _ => ?_, writes⟩⟩
  obtain ⟨key, mem, absent⟩ := missing
  refine ⟨key, mem, fun known => ?_⟩
  rw [(f.properties.contains_iff_mem_keys key).mpr known] at absent
  cases absent

/-- What another derivation does not write it does not bear on. -/
theorem Replaces.congr {before : List String} {d : Derivation} {f g : Feature}
    {keys : List String} (agree : Feature.AgreeOutside keys f g)
    (apart : ∀ key ∈ d.keys, key ∉ keys) : Replaces before d g ↔ Replaces before d f := by
  have same {key : String} (mem : key ∈ d.keys) := agree.contains_eq (apart key mem)
  constructor
  · rintro ⟨⟨key, mem, absent⟩, late, writes⟩
    exact ⟨⟨key, mem, same mem ▸ absent⟩, late, agree.geometry ▸ writes⟩
  · rintro ⟨⟨key, mem, absent⟩, late, writes⟩
    exact ⟨⟨key, mem, (same mem).trans absent⟩, late, agree.geometry.symm ▸ writes⟩

end Standard

namespace Pass

variable {p : Pass} {before : List String} {d : Derivation} {ds : List Derivation}
  {f g : Feature} {s : Session} {changed : Bool}

/-- A derivation that replaces nothing leaves the feature alone. -/
theorem eq_of_not_replaces (ran : (p.derive before d f s).1 = (.ok changed, g))
    (idle : ¬Replaces before d f) : g = f := by
  by_cases present : ∀ key ∈ d.keys, f.properties.contains key = true
  · rw [p.derive_of_complete before s present] at ran
    exact (Prod.mk.inj ran).2.symm
  by_cases abstains : Abstains d f.geometry
  · obtain ⟨after, derived, -⟩ := p.derive_of_abstains before s abstains
    rw [derived] at ran
    exact (Prod.mk.inj ran).2.symm
  have missing : ∃ key ∈ d.keys, f.properties.contains key = false := by
    simpa using present
  have early : d.isLazy = true ∧ ∀ key ∈ d.keys, key ∈ before := by
    refine Classical.byContradiction fun none => idle ⟨missing, fun deferring => ?_, abstains⟩
    simpa [deferring] using none
  have lacks : d.keys.all f.properties.contains = false := by simpa using missing
  have known : d.keys.all before.contains = true := by simpa using early.2
  simp [derive, lacks, early.1, known] at ran
  exact ran.2.symm

/-- Where nothing may stay deferred, a standard derivation that replaces what is under its
keys leaves nothing deferred there, and writes nowhere else. -/
theorem plain_of_replaces (strict : p.evaluateStrict = true) (std : d ∈ all)
    (ran : (p.derive before d f s).1 = (.ok changed, g)) (replaces : Replaces before d f) :
    Feature.AgreeOutside d.keys f g ∧ ∀ key ∈ d.keys, g.Plain key := by
  have lacks : d.keys.all f.properties.contains = false := by simpa using replaces.missing
  cases course std f.geometry with
  | stores eager proposes =>
    obtain ⟨values, keys, proposed⟩ :=
      proposes p.layer p.surroundings (p.surroundings.clock s.ticks) f rfl
    obtain ⟨h, applied, agree, -, -⟩ :=
      applyAll_stores f values f (tick s).2 fun _ there => there
    have plain {key : String} (mem : key ∈ values.map Prod.fst) : h.Plain key := by
      have stored := plain_applyAll_stores f values f (tick s).2
        (fun key v found d slot => by simp [Properties.concrete?, slot, Slot.value?] at found)
        (.inr mem)
      rwa [applied] at stored
    have same : h = g := by
      have result := Derivation.runContained_fst proposed
      simp only [applied] at result
      simp only [derive, lacks, eager, Bool.false_eq_true, if_false, Session.bind_apply, result,
        Session.pure_apply, Prod.mk.injEq] at ran
      exact ran.2
    rw [keys] at agree plain
    exact ⟨same ▸ agree, fun key mem => same ▸ plain mem⟩
  | abstains abstains => exact absurd abstains replaces.writes
  | measures deferring measures keys proposes =>
    have late : d.keys.all before.contains = false := by simpa using replaces.late deferring
    have nodup : d.keys.Nodup := (List.pairwise_flatMap.mp nodup_keys).1 d std
    obtain ⟨h, after, applied, agree, -, -⟩ :=
      applyAll_measures measures (keys ▸ nodup) f (tick s).2
    have result := Derivation.runContained_fst (s := s)
      (proposes p.layer p.surroundings (p.surroundings.clock s.ticks) f)
    simp only [applied] at result
    generalize left : d.runContained p.layer p.surroundings f s = derived at result
    obtain ⟨⟨counted, k⟩, mid⟩ := derived
    obtain rfl : k = h := (Prod.mk.inj result).2
    rcases forced : k.forceKeys d.keys mid with ⟨⟨panic | _, last⟩, final⟩
    all_goals simp [derive, lacks, deferring, late, strict, left, forced, Except.map] at ran
    obtain ⟨-, rfl⟩ := ran
    have agreeForced := k.agree_forceKeys d.keys mid
    rw [forced] at agreeForced
    exact ⟨(keys ▸ agree).trans agreeForced,
      (Feature.plain_of_forceKeys (congrArg Prod.fst forced)).1⟩

/-- Where nothing may stay deferred, a property is not deferred after standard
derivations exactly if it was not before or one of them replaces it. -/
theorem deriveAll_plain_iff (strict : p.evaluateStrict = true) (std : ∀ d ∈ ds, d ∈ all)
    {start : Bool} (ran : (p.deriveAll before ds start f s).1 = (.ok changed, g)) (key : String) :
    g.Plain key ↔ f.Plain key ∨ ∃ d ∈ ds, key ∈ d.keys ∧ Replaces before d f := by
  induction ds generalizing start f s with
  | nil =>
    obtain rfl : f = g := (Prod.mk.inj ran).2
    simp
  | cons d rest ih =>
    have hd := std d List.mem_cons_self
    rcases derived : p.derive before d f s with ⟨⟨panic | more, h⟩, mid⟩
    all_goals simp only [deriveAll, Session.bind_apply, derived] at ran
    · simp at ran
    have first := congrArg Prod.fst derived
    have others := ih (fun e mem => std e (List.mem_cons_of_mem _ mem)) ran
    by_cases replaces : Replaces before d f
    · obtain ⟨agree, plain⟩ := plain_of_replaces strict hd first replaces
      by_cases mine : key ∈ d.keys
      · exact ⟨fun _ => .inr ⟨d, List.mem_cons_self, mine, replaces⟩,
          fun _ => others.mpr (.inl (plain key mine))⟩
      · have elsewhere {e : Derivation} (mem : e ∈ rest) (theirs : key ∈ e.keys) :
            Replaces before e h ↔ Replaces before e f := by
          refine Replaces.congr agree fun other known shared => mine ?_
          have he := std e (List.mem_cons_of_mem _ mem)
          exact eq_of_mem_keys hd he shared known ▸ theirs
        have same : h.Plain key ↔ f.Plain key := by
          simp only [Feature.Plain, agree.slot?_eq mine]
        rw [others, same]
        refine or_congr_right ⟨?_, ?_⟩
        · rintro ⟨e, mem, theirs, anew⟩
          exact ⟨e, List.mem_cons_of_mem _ mem, theirs, (elsewhere mem theirs).mp anew⟩
        · rintro ⟨e, mem, theirs, anew⟩
          rcases List.mem_cons.mp mem with rfl | mem
          · exact absurd theirs mine
          · exact ⟨e, mem, theirs, (elsewhere mem theirs).mpr anew⟩
    · obtain rfl := eq_of_not_replaces first replaces
      rw [others]
      refine or_congr_right ⟨?_, ?_⟩
      · rintro ⟨e, mem, found⟩
        exact ⟨e, List.mem_cons_of_mem _ mem, found⟩
      · rintro ⟨e, mem, theirs, anew⟩
        rcases List.mem_cons.mp mem with rfl | mem
        · exact absurd anew replaces
        · exact ⟨e, mem, theirs, anew⟩

/-- A visit of the pass leaves nothing of the feature deferred: the layer has tags, or
every deferred property is replaced by a derivation. -/
def Clears (p : Pass) (f : Feature) : Prop :=
  p.tags ≠ none ∨
    ∀ key, f.Plain key ∨
      ∃ d ∈ p.derivations, key ∈ d.keys ∧
        (∃ other ∈ d.keys, f.properties.contains other = false) ∧ ¬Abstains d f.geometry

/-- Where nothing may stay deferred, nothing is deferred after a visit that returns exactly
if the pass clears the feature. -/
theorem visit_computed_iff (strict : p.evaluateStrict = true) (std : ∀ d ∈ p.derivations, d ∈ all)
    (visited : (p.visit f s).1 = (.ok changed, g)) : g.Computed ↔ p.Clears f := by
  obtain ⟨some, h, mid, derived, tagged⟩ := of_visit visited
  cases tags : p.tags with
  | none =>
    obtain rfl : h = g := by simpa [runTags, tags] using congrArg Prod.snd tagged
    have plain := deriveAll_plain_iff strict std (congrArg Prod.fst derived)
    simp only [Feature.Computed, Clears, tags, plain, replaces_keys_iff, ne_eq, not_true_eq_false,
      false_or]
  | some l =>
    simp only [runTags, tags, strict, if_true, Session.bind_apply, Session.pure_apply] at tagged
    rcases forced : (l.run p.methods p.surroundings h mid).1.forceAll
      (l.run p.methods p.surroundings h mid).2 with ⟨⟨panic | _, last⟩, after⟩
    all_goals simp [forced, Except.map] at tagged
    obtain ⟨-, rfl⟩ := tagged
    have computed := Feature.computed_of_forceAll (congrArg Prod.fst forced)
    exact ⟨fun _ => .inl (by simp [tags]), fun _ => computed⟩

/-- Where nothing may stay deferred, nothing is deferred after a pass that returns exactly
if it clears every feature of its batch. -/
theorem visitAll_computed_iff (strict : p.evaluateStrict = true)
    (std : ∀ d ∈ p.derivations, d ∈ all) {features visited : List Feature}
    (returned : (p.visitAll features s).1 = (.ok changed, visited)) :
    (∀ g ∈ visited, g.Computed) ↔ ∀ f ∈ features, p.Clears f := by
  induction features generalizing s changed visited with
  | nil =>
    obtain rfl : [] = visited := (Prod.mk.inj returned).2
    simp
  | cons f rest ih =>
    rcases first : p.visit f s with ⟨⟨panic | more, g⟩, mid⟩
    all_goals simp only [visitAll, Session.bind_apply, first] at returned
    · simp at returned
    rcases others : p.visitAll rest mid with ⟨⟨panic | most, remaining⟩, after⟩
    all_goals simp [others, Except.map] at returned
    obtain ⟨-, rfl⟩ := returned
    rw [List.forall_mem_cons, List.forall_mem_cons,
      visit_computed_iff strict std (congrArg Prod.fst first), ih (congrArg Prod.fst others)]

end Pass

end DerivedTags
