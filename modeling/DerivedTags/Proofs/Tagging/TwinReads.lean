import DerivedTags.Proofs.Feature.Twins
import DerivedTags.Proofs.Journal.Tally
import DerivedTags.Proofs.Tagging.OrderlyRuns

/-!
# Reading twins

Reading twins side by side gives the same answers and adds the same to the sessions, as
long as on both sides the same properties are under computation.
-/

namespace DerivedTags

open DerivedTags.Session (SameSince)

namespace Feature

/-- The same deferred properties of two features are under computation. -/
def Marks (f g : Feature) (s t : Session) : Prop :=
  ∀ i j, Counterparts f g i j → (i ∈ s.evaluating ↔ j ∈ t.evaluating)

/-- Sessions in which two features are read: since given ones the same was added, and the
same properties are under computation. -/
structure Reads (f g : Feature) (s₀ t₀ s t : Session) : Prop where
  /-- The same was added. -/
  since : SameSince s₀ t₀ s t
  /-- The same properties are under computation. -/
  marks : Marks f g s t

variable {ordered : Prop} {f g : Feature} {s₀ t₀ s t : Session}

/-- A feature is on its own under computation alike where the same is under computation. -/
theorem Marks.self (f : Feature) (same : t.evaluating = s.evaluating) : Marks f f s t := by
  rintro i j ⟨key, d, e, first, second, rfl, rfl⟩
  obtain rfl := Slot.deferred.inj (Option.some.inj (first.symm.trans second))
  rw [same]

/-- What is under computation stays so in later sessions. -/
theorem Marks.onward (marks : Marks f g s t) {s' t' : Session} (first : s.Precedes s')
    (second : t.Precedes t') : Marks f g s' t' := by
  intro i j stand
  rw [first.evaluating, second.evaluating]
  exact marks i j stand

/-- The same event may be let known. -/
theorem Reads.addEvent (reads : Reads f g s₀ t₀ s t) (e : Event) :
    Reads f g s₀ t₀ (s.addEvent e) (t.addEvent e) :=
  ⟨reads.since.addEvent e, reads.marks.onward (.addEvent s e) (.addEvent t e)⟩

namespace Twin

variable (twin : Twin ordered f g)

include twin

/-- A deferred property of twins is computed in lockstep if all that it asks for is
answered so. -/
theorem evaluate {answer answer' : String → StateM Session Answer}
    (answers : ∀ key, Lockstep (Reads f g s₀ t₀) (answer key) (answer' key))
    (orderly : ∀ key, Orderly (answer key)) (orderlyThere : ∀ key, Orderly (answer' key))
    {i j : Nat} {compute : View → Reading Answer} (steady : Steady ordered compute)
    (stand : Counterparts f g i j) :
    Lockstep (Reads f g s₀ t₀) (Deferred.evaluate answer f.view ⟨i, compute⟩)
      (Deferred.evaluate answer' g.view ⟨j, compute⟩) := by
  intro s t reads
  have here : Orderly (Deferred.evaluate answer f.view ⟨i, compute⟩) :=
    Deferred.evaluate_orderly (Orderly.discipline.reading orderly _)
  have there : Orderly (Deferred.evaluate answer' g.view ⟨j, compute⟩) :=
    Deferred.evaluate_orderly (Orderly.discipline.reading orderlyThere _)
  suffices computed : (Deferred.evaluate answer f.view ⟨i, compute⟩ s).1 =
      (Deferred.evaluate answer' g.view ⟨j, compute⟩ t).1 ∧
      SameSince s₀ t₀ (Deferred.evaluate answer f.view ⟨i, compute⟩ s).2
        (Deferred.evaluate answer' g.view ⟨j, compute⟩ t).2 from
    ⟨computed.1, computed.2, reads.marks.onward (here s) (there t)⟩
  have under : i ∈ s.evaluating ↔ j ∈ t.evaluating := reads.marks i j stand
  rw [Deferred.evaluate_apply, Deferred.evaluate_apply]
  by_cases running : i ∈ s.evaluating
  · rw [if_pos running, if_pos (under.mp running)]
    exact ⟨rfl, reads.since⟩
  · rw [if_neg running, if_neg (mt under.mpr running)]
    have same : compute g.view = compute f.view := steady twin.view
    have entered : Reads f g s₀ t₀ (s.enter i) (t.enter j) := by
      refine ⟨reads.since.congr rfl rfl rfl rfl, fun k l other => ?_⟩
      simp only [Session.enter, List.mem_cons, twin.shared other stand, reads.marks k l other]
    obtain ⟨result, after⟩ := (compute f.view).run_lockstep (fun _ _ e h => h.addEvent e) answers
      (s.enter i) (t.enter j) entered
    simp only [same]
    exact ⟨result, after.since.congr rfl rfl rfl rfl⟩

/-- A property of twins is read in lockstep, however deep computations nest. -/
theorem getWithin (depth : Nat) (key : String) :
    Lockstep (Reads f g s₀ t₀) (f.getWithin depth key) (g.getWithin depth key) := by
  induction depth generalizing key with
  | zero =>
    simp only [Feature.getWithin, twin.concrete?_eq key]
    exact .pure _
  | succ depth ih =>
    have slots := twin.slots key
    generalize here : f.properties.slot? key = a at slots
    generalize there : g.properties.slot? key = b at slots
    simp only [Feature.getWithin, here, there]
    rcases slots with @⟨_, _, v | ⟨i, j, steady⟩⟩ | _
    · exact .pure _
    · exact twin.evaluate ih (Orderly.discipline.getWithin f depth)
        (Orderly.discipline.getWithin g depth) steady ⟨key, _, _, here, there, rfl, rfl⟩
    · exact .pure _

/-- A property of twins is read in lockstep. -/
theorem get (key : String) : Lockstep (Reads f g s₀ t₀) (f.get key) (g.get key) := by
  simp only [Feature.get, twin.length_deferredKeys_eq]
  exact twin.getWithin _ key

/-- A computation runs over twins in lockstep. -/
theorem run {α : Type} (r : Reading α) : Lockstep (Reads f g s₀ t₀) (f.run r) (g.run r) :=
  r.run_lockstep (fun _ _ e h => h.addEvent e) twin.get

end Twin

/-- In two sessions in which the same is under computation, a computation over a feature gives
the same and adds the same. -/
theorem run_since (f : Feature) (same : t.evaluating = s.evaluating) {α : Type}
    (r : Reading α) :
    (f.run r t).1 = (f.run r s).1 ∧ SameSince s t (f.run r s).2 (f.run r t).2 := by
  have twin : Twin True f f := .refl fun _ d _ => Steady.of_ordered trivial d.compute
  obtain ⟨result, after⟩ := twin.run r s t ⟨.refl s t, .self f same⟩
  exact ⟨result.symm, after.since⟩

end Feature

end DerivedTags
