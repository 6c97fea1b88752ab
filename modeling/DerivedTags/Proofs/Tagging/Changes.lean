import DerivedTags.Proofs.Tagging.StandardSteps

/-!
# What counts as a change

A visit that does not count as a change leaves the feature exactly as it was. Where
computations may stay deferred and the layer has no tags, the converse holds too:
standard derivations only add keys then, and what counts as a change has added one.
-/

namespace DerivedTags

open DerivedTags.Standard
open DerivedTags.Snippet (Panic)

namespace Feature

/-- The second feature has all keys of the first one and, if there was a change, one
that the first one lacks. -/
structure Gains (changed : Bool) (f g : Feature) : Prop where
  /-- No key is lost. -/
  kept : ∀ key, f.properties.contains key = true → g.properties.contains key = true
  /-- After a change there is a new key. -/
  gained : changed = true →
    ∃ key, f.properties.contains key = false ∧ g.properties.contains key = true

namespace Gains

variable {f g h : Feature}

/-- Without a change nothing is gained. -/
theorem refl (f : Feature) : Gains false f f := ⟨fun _ there => there, by simp⟩

/-- Changes one after the other gain a key if any of them does, since none is lost. -/
theorem trans {first second : Bool} (one : Gains first f g) (two : Gains second g h) :
    Gains (first || second) f h := by
  refine ⟨fun key there => two.kept key (one.kept key there), fun changed => ?_⟩
  rcases Bool.or_eq_true_iff.mp changed with now | later
  · obtain ⟨key, absent, present⟩ := one.gained now
    exact ⟨key, absent, two.kept key present⟩
  · obtain ⟨key, absent, present⟩ := two.gained later
    refine ⟨key, Bool.eq_false_iff.mpr fun there => ?_, present⟩
    rw [one.kept key there] at absent
    cases absent

/-- A new key is under another property than before. -/
theorem slot?_ne (gains : Gains true f g) :
    ∃ key, g.properties.slot? key ≠ f.properties.slot? key := by
  obtain ⟨key, absent, present⟩ := gains.gained rfl
  refine ⟨key, fun same => ?_⟩
  rw [Properties.contains, same, ← Properties.contains, absent] at present
  cases present

end Gains

end Feature

namespace Standard

variable {d : Derivation} {f : Feature}

/-- A key of the derivation is missing. -/
theorem exists_missing (lacks : d.keys.all f.properties.contains = false) :
    ∃ key ∈ d.keys, f.properties.contains key = false := by
  simpa using List.all_eq_false.mp lacks

/-- An eager standard derivation that lacks a key gains one if it counts as a change,
and else leaves the feature alone. -/
theorem runContained_eager (std : d ∈ all) (eager : d.isLazy = false)
    (lacks : d.keys.all f.properties.contains = false) (layer : Layer)
    (surroundings : Surroundings) (s : Session) :
    let ran := (d.runContained layer surroundings f s).1
    Feature.Gains ran.1 f ran.2 ∧ (ran.1 = false → ran.2 = f) := by
  cases course std f.geometry with
  | stores _ proposes =>
    obtain ⟨values, keys, proposed⟩ :=
      proposes layer surroundings (surroundings.clock s.ticks) f rfl
    obtain ⟨g, applied, -, kept, present⟩ :=
      applyAll_stores f values f (tick s).2 fun _ there => there
    rw [Derivation.runContained_fst proposed]
    simp only [Proposal.counts, applied]
    refine ⟨⟨kept, fun _ => ?_⟩, fun unchanged => ?_⟩
    · obtain ⟨key, mem, absent⟩ := exists_missing lacks
      exact ⟨key, absent, present key (keys ▸ mem)⟩
    · rw [Bool.not_eq_false', List.isEmpty_iff] at unchanged
      rw [unchanged] at applied
      exact (congrArg Prod.fst applied).symm
  | abstains abstains =>
    obtain ⟨verdict, unmoved, proposes⟩ := abstains.proposes
    have unchanged : Proposal.counts ⟨[], verdict⟩ = false := by
      rcases verdict with panic | e | _ | _
      · rfl
      · rfl
      · rfl
      · exact absurd rfl unmoved
    rw [Derivation.runContained_fst (proposes layer surroundings _ f rfl), unchanged]
    exact ⟨.refl f, fun _ => rfl⟩
  | measures deferring =>
    rw [eager] at deferring
    cases deferring

/-- A lazy standard derivation that lacks a key gains one. -/
theorem runContained_lazy (std : d ∈ all) (deferring : d.isLazy = true)
    (lacks : d.keys.all f.properties.contains = false) (layer : Layer)
    (surroundings : Surroundings) (s : Session) :
    Feature.Gains true f (d.runContained layer surroundings f s).1.2 := by
  cases course std f.geometry with
  | stores eager => simp [eager] at deferring
  | abstains abstains => simp [abstains.eager] at deferring
  | measures _ measures keys proposes =>
    have nodup : d.keys.Nodup := (List.pairwise_flatMap.mp nodup_keys).1 d std
    obtain ⟨g, after, applied, agree, -, installed⟩ :=
      applyAll_measures measures (keys ▸ nodup) f (tick s).2
    have present : ∀ key ∈ d.keys, g.properties.contains key = true := fun key mem => by
      obtain ⟨id, measure, -, slot⟩ := installed key (keys ▸ mem)
      simp [Properties.contains, slot]
    rw [Derivation.runContained_fst (proposes layer surroundings _ f)]
    simp only [applied]
    refine ⟨fun key there => ?_, fun _ => ?_⟩
    · by_cases mine : key ∈ d.keys
      · exact present key mine
      · rw [agree.contains_eq (keys ▸ mine), there]
    · obtain ⟨key, mem, absent⟩ := exists_missing lacks
      exact ⟨key, absent, present key mem⟩

end Standard

namespace Pass

variable {p : Pass} {before : List String} {d : Derivation} {ds : List Derivation}
  {f g : Feature} {s : Session}

/-- A standard derivation that does not count as a change leaves the feature alone. -/
theorem eq_of_derive_unchanged (std : d ∈ all)
    (unchanged : (p.derive before d f s).1 = (.ok false, g)) : g = f := by
  unfold derive at unchanged
  split at unchanged
  · exact (Prod.mk.inj unchanged).2.symm
  rename_i lacks
  split at unchanged
  · split at unchanged
    · exact (Prod.mk.inj unchanged).2.symm
    · simp only [Session.bind_apply] at unchanged
      split at unchanged
      · simp only [Session.bind_apply, Session.pure_apply, Prod.mk.injEq] at unchanged
        cases forced : ((d.runContained p.layer p.surroundings f s).1.2.forceKeys d.keys
            (d.runContained p.layer p.surroundings f s).2).1.1 with
        | error panic => simp [forced, Except.map] at unchanged
        | ok _ => simp [forced, Except.map] at unchanged
      · simp at unchanged
  · rename_i eager
    obtain ⟨-, alone⟩ := runContained_eager std (Bool.eq_false_iff.mpr eager)
      (Bool.eq_false_iff.mpr lacks) p.layer p.surroundings s
    simp only [Session.bind_apply, Session.pure_apply, Prod.mk.injEq, Except.ok.injEq]
      at unchanged
    rw [← unchanged.2]
    exact alone unchanged.1

/-- Where computations may stay deferred, a standard derivation gains a key if it counts
as a change. -/
theorem derive_gains (lenient : p.evaluateStrict = false) (std : d ∈ all) (before : List String)
    (f : Feature) (s : Session) :
    ∃ changed g after, p.derive before d f s = ((.ok changed, g), after) ∧
      Feature.Gains changed f g := by
  unfold derive
  split
  · exact ⟨false, f, s, rfl, .refl f⟩
  rename_i lacks
  have missing := Bool.eq_false_iff.mpr lacks
  split
  · rename_i deferring
    split
    · exact ⟨false, f, s, rfl, .refl f⟩
    · have gains := runContained_lazy std deferring missing p.layer p.surroundings s
      exact ⟨true, _, _, by simp [lenient]; rfl, gains⟩
  · rename_i eager
    have gains := (runContained_eager std (Bool.eq_false_iff.mpr eager) missing p.layer
      p.surroundings s).1
    exact ⟨_, _, _, rfl, gains⟩

/-- Standard derivations that do not count as a change leave the feature alone. -/
theorem eq_of_deriveAll_unchanged (std : ∀ d ∈ ds, d ∈ all) {changed : Bool}
    (unchanged : (p.deriveAll before ds changed f s).1 = (.ok false, g)) :
    changed = false ∧ g = f := by
  induction ds generalizing changed f s with
  | nil =>
    obtain ⟨same, rfl⟩ := Prod.mk.inj unchanged
    exact ⟨Except.ok.inj same, rfl⟩
  | cons d rest ih =>
    rcases derived : p.derive before d f s with ⟨⟨panic | more, h⟩, after⟩
    all_goals simp only [deriveAll, Session.bind_apply, derived] at unchanged
    · simp at unchanged
    · obtain ⟨none, rfl⟩ := ih (fun e mem => std e (List.mem_cons_of_mem _ mem)) unchanged
      obtain ⟨rfl, rfl⟩ := Bool.or_eq_false_iff.mp none
      exact ⟨rfl, eq_of_derive_unchanged (std d List.mem_cons_self) (congrArg Prod.fst derived)⟩

/-- Where computations may stay deferred, standard derivations gain a key if they count
as a change. -/
theorem deriveAll_gains (lenient : p.evaluateStrict = false) (std : ∀ d ∈ ds, d ∈ all)
    (before : List String) (changed : Bool) (f : Feature) (s : Session) :
    ∃ more g after, p.deriveAll before ds changed f s = ((.ok (changed || more), g), after) ∧
      Feature.Gains more f g := by
  induction ds generalizing changed f s with
  | nil => exact ⟨false, f, s, by simp [deriveAll], .refl f⟩
  | cons d rest ih =>
    obtain ⟨more, g, mid, derived, first⟩ :=
      derive_gains lenient (std d List.mem_cons_self) before f s
    obtain ⟨most, h, after, derivedAll, second⟩ :=
      ih (fun e mem => std e (List.mem_cons_of_mem _ mem)) (changed || more) g mid
    refine ⟨more || most, h, after, ?_, first.trans second⟩
    simp [deriveAll, derived, derivedAll, Bool.or_assoc]

/-- Running tags at all counts as a change. -/
theorem eq_of_runTags_unchanged {changed : Bool}
    (unchanged : (p.runTags changed f s).1 = (.ok false, g)) : changed = false ∧ g = f := by
  unfold runTags at unchanged
  cases tags : p.tags with
  | none =>
    rw [tags] at unchanged
    obtain ⟨same, rfl⟩ := Prod.mk.inj unchanged
    exact ⟨Except.ok.inj same, rfl⟩
  | some l =>
    simp only [tags, Session.bind_apply] at unchanged
    split at unchanged
    · simp only [Session.bind_apply, Session.pure_apply, Prod.mk.injEq] at unchanged
      rcases forced : ((l.run p.methods p.surroundings f s).1.forceAll
        (l.run p.methods p.surroundings f s).2).1.1 with panic | _
      · simp [forced, Except.map] at unchanged
      · simp [forced, Except.map] at unchanged
    · simp at unchanged

end Pass

end DerivedTags
