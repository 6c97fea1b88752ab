import DerivedTags.Proofs.Tagging.Runs
import DerivedTags.Proofs.Tagging.Timeless
import DerivedTags.Proofs.Tagging.TwinRuns
import DerivedTags.Proofs.Tagging.Visits

/-!
# Features in their turn

A pass comes to each feature of its batch in some session. What it has done by then shows
in the calls, the log, the counters and the numbers of that session, but what the visit of
the feature itself does to it and adds to the session is the same, as long as the clock
was read equally often. So it does not matter what became of the methods of other
features.
-/

namespace DerivedTags

open DerivedTags.Session (SameSince)

/-- The derivation does not tell deferred properties apart by their numbers. -/
def Derivation.Blind (d : Derivation) : Prop :=
  ∀ layer surroundings moment {f g : Feature}, f.Twin True g →
    d.propose layer surroundings moment g = d.propose layer surroundings moment f

/-- Standard derivations look at values only. -/
theorem Standard.blind {d : Derivation} (std : d ∈ all) : d.Blind :=
  fun layer _ _ _ _ twin =>
    propose_congr std layer (fun _ => rfl) twin.geometry fun key _ => twin.concrete?_eq key

namespace Pairing

/-- The same two runs side by side, with the clock read equally often. -/
def timed (law : Pairing) : Pairing where
  sessions s t := law.sessions s t ∧ t.ticks = s.ticks
  features := law.features
  allows := law.allows
  looksLike := law.looksLike
  addEvent {s t} e both := by
    have here : (s.addEvent e).ticks = s.ticks := Timeless.addEvent e s
    have there : (t.addEvent e).ticks = t.ticks := Timeless.addEvent e t
    exact ⟨law.addEvent e both.1, by rw [here, there, both.2]⟩
  addLines lines both := ⟨law.addLines lines both.1, both.2⟩
  tick both := ⟨law.tick both.1, congrArg (· + 1) both.2⟩
  newDeferred both := ⟨law.newDeferred both.1, both.2⟩
  onward := law.onward
  put := law.put
  remove := law.remove
  leave key allowed both := law.leave key allowed both.1
  measures := law.measures
  later := law.later

variable {law : Pairing} {α : Type} {s t : Session} {f g : Feature}

/-- Outcomes side by side stay so if the clock was read equally often. -/
theorem Beside.timed {x y : (α × Feature) × Session} (beside : law.Beside x y)
    (ticks : y.2.ticks = x.2.ticks) : law.timed.Beside x y :=
  ⟨beside.result, ⟨beside.paired.sessions, ticks⟩, beside.paired.features⟩

/-- Forcing does not read the clock. -/
theorem Forces.timed (forces : law.Forces) : law.timed.Forces where
  force {s t f g} key paired := by
    obtain ⟨⟨sessions, ticks⟩, features⟩ := paired
    refine (forces.force key ⟨sessions, features⟩).timed ?_
    rw [Timeless.force f key s, Timeless.force g key t, ticks]
  deferredKeys := forces.deferredKeys

variable {s₀ t₀ : Session}

end Pairing

namespace Pass

variable {p : Pass} {methods : MethodSource} {f : Feature} {s t : Session}

/-- The pass with another source of methods. -/
def withMethods (p : Pass) (methods : MethodSource) : Pass := { p with methods }

/-- What the derivations of a pass make of a feature. -/
def derived (p : Pass) (f : Feature) : StateM Session (Except Snippet.Panic Bool × Feature) :=
  p.deriveAll f.properties.keys p.derivations false f

end Pass

end DerivedTags
