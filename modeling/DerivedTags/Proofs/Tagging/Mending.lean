import Mathlib.Data.List.Forall2
import DerivedTags.Proofs.Tagging.Legs
import DerivedTags.Proofs.Tagging.SideBySide
import DerivedTags.Proofs.Tagging.Telling
import DerivedTags.Proofs.Tagging.Timeless
import DerivedTags.Proofs.Tagging.TwinReads

/-!
# Broken derivations and mended ones

A derivation that breaks before it edits anything, be it with an error or a panic, counts as
one that had nothing to do. So two runs give the same result and the same features if some
calls break in the first one and have nothing to do in the second one, and if a store takes
in one of them what it does not take in the other. These calls are legs of their own: what a
call read before it broke was computed, and may have called others and failed.
-/

namespace DerivedTags

open DerivedTags.Session (Abreast Apart Tally)

namespace Proposal

/-- There is nothing to do. -/
def idle : Proposal := ⟨[], .ok (.ok false)⟩

/-- Whether things went wrong before any edit. -/
def isBroken (p : Proposal) : Bool :=
  p.edits.isEmpty && !(p.verdict matches .ok (.ok _))

/-- What broke before any edit edits nothing and does not count as a change. -/
theorem edits_counts_of_isBroken {p : Proposal} (broken : p.isBroken = true) :
    p.edits = [] ∧ p.counts = false := by
  simp only [isBroken, Bool.and_eq_true, List.isEmpty_iff] at broken
  obtain ⟨edits, failed⟩ := broken
  refine ⟨edits, ?_⟩
  rcases verdict : p.verdict with panic | e | changed
  · simp [counts, verdict]
  · simp [counts, verdict]
  · simp [verdict] at failed

end Proposal

namespace Derivation

/-- Ask a derivation what it proposes for a feature of a layer at a moment. -/
def consult (d : Derivation) (layer : Layer) (surroundings : Surroundings) (moment : Moment)
    (f : Feature) : StateM Session Proposal :=
  f.run (d.propose layer surroundings moment f)

/-- In a session, the call of a derivation breaks before any edit, and that of another one
has nothing to do. Of a session only what is under computation matters to this, which is the
same whenever a run calls a derivation. -/
structure Mended (layer : Layer) (surroundings : Surroundings) (s : Session) (moment : Moment)
    (f : Feature) (d e : Derivation) : Prop where
  /-- The call of the first one breaks. -/
  broken : (d.consult layer surroundings moment f s).1.isBroken = true
  /-- The call of the second one has nothing to do. -/
  idle : (e.consult layer surroundings moment f s).1 = .idle

/-- The second derivation takes the place of the first one: it does the same, except that
some calls which break have nothing to do. -/
structure Mends (layer : Layer) (surroundings : Surroundings) (s : Session)
    (d e : Derivation) : Prop where
  /-- They write the same keys. -/
  keys : e.keys = d.keys
  /-- They are both lazy or both not. -/
  isLazy : e.isLazy = d.isLazy
  /-- Both or none have to do with dates. -/
  includesDates : e.includesDates = d.includesDates
  /-- A call does the same, or it breaks and is mended. -/
  calls : ∀ moment f,
    e.propose layer surroundings moment f = d.propose layer surroundings moment f ∨
      Mended layer surroundings s moment f d e

variable {layer : Layer} {surroundings : Surroundings} {s : Session}

/-- A derivation that is left alone does the same. -/
theorem Mends.refl (d : Derivation) : Mends layer surroundings s d d :=
  ⟨rfl, rfl, rfl, fun _ _ => .inl rfl⟩

end Derivation

/-- The leg of a call on one of these features that breaks in the first run and that one of
these pairs of derivations mends in the second run. It adds what the two calls would add to
the given session. -/
def Leg.IsMended (layer : Layer) (surroundings : Surroundings) (s : Session)
    (pairs : List (Derivation × Derivation)) (ids : List String) (leg : Leg) : Prop :=
  ∃ d e reading f, (d, e) ∈ pairs ∧ f.id ∈ ids ∧
    Derivation.Mended layer surroundings s (surroundings.clock reading) f d e ∧
    Tally leg.calls leg.failures s
      (d.consult layer surroundings (surroundings.clock reading) f s).2 ∧
    Tally leg.callsThere leg.failuresThere s
      (e.consult layer surroundings (surroundings.clock reading) f s).2

namespace Derivation

variable {layer : Layer} {surroundings : Surroundings} {s u v : Session} {d e : Derivation}
  {pairs : List (Derivation × Derivation)} {ids : List String} {f : Feature}

/-- Running a derivation is the same in sessions abreast if the same is proposed. -/
theorem Mends.runContained_same (mends : Mends layer surroundings s d e)
    (same : e.propose layer surroundings (surroundings.clock u.ticks) f =
      d.propose layer surroundings (surroundings.clock u.ticks) f)
    (abreast : Abreast u v u v) :
    (d.runContained layer surroundings f u).1 = (e.runContained layer surroundings f v).1 ∧
      Abreast u v (d.runContained layer surroundings f u).2
        (e.runContained layer surroundings f v).2 := by
  let law := Abreast.discipline u v
  obtain ⟨-, ticked⟩ := law.tick u v abreast
  obtain ⟨proposed, read⟩ := law.run f _ _ _ ticked
  rw [d.runContained_eq layer surroundings f u, e.runContained_eq layer surroundings f v,
    abreast.ticks, same, mends.keys]
  dsimp only
  rw [← proposed]
  obtain ⟨edited, edits⟩ := law.edits _ f _ _ read
  exact ⟨congrArg (Prod.mk _) edited, edits.addLines _ _⟩

/-- Asking a derivation takes no number. -/
theorem nextDeferred_consult (d : Derivation) (moment : Moment) (s : Session) :
    (d.consult layer surroundings moment f s).2.nextDeferred = s.nextDeferred :=
  Session.Inert.nextDeferred.run f (d.propose layer surroundings moment f) s

/-- Asking a derivation reads no clock. -/
theorem ticks_consult (d : Derivation) (moment : Moment) (s : Session) :
    (d.consult layer surroundings moment f s).2.ticks = s.ticks :=
  Session.Inert.ticks.run f (d.propose layer surroundings moment f) s

/-- A derivation whose proposal neither edits anything nor counts leaves the feature alone. -/
theorem runContained_of_bare {proposal : Proposal}
    (proposes : (d.consult layer surroundings (surroundings.clock u.ticks) f (tick u).2).1 =
      proposal) (bare : proposal.edits = [] ∧ proposal.counts = false) :
    d.runContained layer surroundings f u =
      ((false, f), (d.consult layer surroundings (surroundings.clock u.ticks) f
        (tick u).2).2.addLines (proposal.complaints d.keys)) := by
  rw [consult] at proposes
  rw [d.runContained_eq layer surroundings f u]
  dsimp only
  rw [proposes, bare.1, bare.2]
  rfl

/-- A call that breaks and one that has nothing to do leave the feature alone, and lead on by
a leg of their own. -/
theorem Mended.runContained
    (mended : Mended layer surroundings s (surroundings.clock u.ticks) f d e)
    (pair : (d, e) ∈ pairs) (known : f.id ∈ ids)
    (apart : Apart (Leg.IsMended layer surroundings s pairs ids) s u v) :
    (d.runContained layer surroundings f u).1 = (e.runContained layer surroundings f v).1 ∧
      Apart (Leg.IsMended layer surroundings s pairs ids) s
        (d.runContained layer surroundings f u).2 (e.runContained layer surroundings f v).2 := by
  have mendedThere := mended
  rw [← apart.ticks] at mendedThere
  have ticked : (tick u).2.evaluating = s.evaluating := apart.evaluating
  have tickedThere : (tick v).2.evaluating = s.evaluating := apart.evaluatingThere
  obtain ⟨proposed, calls, failures, added, here⟩ :=
    f.run_since ticked (d.propose layer surroundings (surroundings.clock u.ticks) f)
  obtain ⟨proposedThere, callsThere, failuresThere, addedThere, there⟩ :=
    f.run_since tickedThere (e.propose layer surroundings (surroundings.clock v.ticks) f)
  have ran := runContained_of_bare proposed (Proposal.edits_counts_of_isBroken mended.broken)
  have ranThere := runContained_of_bare (proposedThere.trans mendedThere.idle) ⟨rfl, rfl⟩
  have left := (Orderly.discipline.derivation d layer surroundings f u).evaluating
  have leftThere := (Orderly.discipline.derivation e layer surroundings f v).evaluating
  obtain ⟨legs, far⟩ := apart.legs
  let leg : Leg := ⟨calls, failures, callsThere, failuresThere⟩
  have own : leg.IsShared ∨ leg.IsMended layer surroundings s pairs ids := by
    rw [apart.ticks] at addedThere
    exact .inr ⟨d, e, u.ticks, f, pair, known, mended, added, addedThere⟩
  rw [ran] at left ⊢
  rw [ranThere] at leftThere ⊢
  refine ⟨rfl, ⟨_, far.concat own ⟨here.calls, here.failures⟩ ⟨there.calls, there.failures⟩⟩,
    left.trans apart.evaluating, leftThere.trans apart.evaluatingThere, ?_, ?_⟩
  · exact (e.nextDeferred_consult _ (tick v).2).trans
      (apart.numbers.trans (d.nextDeferred_consult _ (tick u).2).symm)
  · exact (e.ticks_consult _ (tick v).2).trans
      ((congrArg (· + 1) apart.ticks).trans (d.ticks_consult _ (tick u).2).symm)

/-- Running a derivation and the one that takes its place leads on by a leg. -/
theorem Mends.runContained (mends : Mends layer surroundings s d e) (pair : (d, e) ∈ pairs)
    (known : f.id ∈ ids) :
    Lockstep (Apart (Leg.IsMended layer surroundings s pairs ids) s)
      (d.runContained layer surroundings f) (e.runContained layer surroundings f) := by
  intro u v apart
  rcases mends.calls (surroundings.clock u.ticks) f with same | mended
  · obtain ⟨result, step⟩ := mends.runContained_same same apart.abreast
    have left := (Orderly.discipline.derivation d layer surroundings f u).evaluating
    exact ⟨result, apart.onward step left⟩
  · exact mended.runContained pair known apart

end Derivation

namespace Pass

variable {p : Pass} {s : Session} {ds es : List Derivation}
  {pairs : List (Derivation × Derivation)} {ids : List String} {f : Feature}

/-- Two sessions at which a pass arrives with some derivations and with others in their
place. -/
abbrev Apart (p : Pass) (s : Session) (pairs : List (Derivation × Derivation))
    (ids : List String) : Session → Session → Prop :=
  Session.Apart (Leg.IsMended p.layer p.surroundings s pairs ids) s

variable {store : Option Store}

end Pass

end DerivedTags
