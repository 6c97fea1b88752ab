import DerivedTags.Proofs.Feature.Forcing
import DerivedTags.Proofs.Journal.Orderly
import DerivedTags.Proofs.Tagging.Discipline

/-!
# Runs are orderly

A run leaves the same properties under computation and takes back no number, since a
deferred property is left again after its computation.
-/

namespace DerivedTags

/-- Computing a deferred property leaves no mark of it. -/
theorem Deferred.evaluate_orderly {answer : String → StateM Session Answer} {view : View}
    {d : Deferred} (computing : Orderly ((d.compute view).run answer)) :
    Orderly (d.evaluate answer view) := by
  intro s
  rw [evaluate_apply]
  split
  · exact .refl s
  · have inner := computing (s.enter d.id)
    have left : ((d.compute view).run answer (s.enter d.id)).2.evaluating.erase d.id =
        s.evaluating := by
      rw [inner.evaluating]
      exact s.evaluating_leave_enter d.id
    exact ⟨left, inner.numbers⟩

/-- Being orderly is a discipline. -/
def Orderly.discipline : Discipline where
  holds := Orderly
  pure := .pure
  bind := .bind
  addEvent := .addEvent
  writeLine line _ := .writeLine line
  tick := .tick
  newDeferred := .newDeferred
  evaluate := Deferred.evaluate_orderly

/-- Visiting a feature is orderly. -/
theorem Pass.visit_orderly (p : Pass) (f : Feature) : Orderly (p.visit f) :=
  Orderly.discipline.visit p f

namespace Tagger

/-- A run leaves the same properties under computation and takes back no number,
also where a panic ends it. -/
theorem run_orderly (t : Tagger) (features : List Feature) (surroundings : Surroundings)
    (layer : Layer) (store : Option Store) (options : Options) :
    Orderly (t.run features surroundings layer store options) :=
  Orderly.discipline.tagger t features surroundings layer store options

/-- A run keeps a session numbered, so that every session which runs lead to from the
start is. -/
theorem run_numbered (t : Tagger) (features : List Feature) (surroundings : Surroundings)
    (layer : Layer) (store : Option Store) (options : Options) {s : Session}
    (numbered : s.Numbered) : (t.run features surroundings layer store options s).2.Numbered :=
  (t.run_orderly features surroundings layer store options s).numbered numbered

end Tagger

end DerivedTags
