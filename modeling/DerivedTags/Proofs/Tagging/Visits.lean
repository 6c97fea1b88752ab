import DerivedTags.Proofs.Feature.Forcing
import DerivedTags.Proofs.Journal.Heedless
import DerivedTags.Proofs.Tagging.Discipline

/-!
# A visit and the store

A store is told of a change at the end of a visit, and nothing of the visit depends on
it: with or without a store, and whatever the store answers, the visit gives the same.
Nor does it depend on what was called and logged before. So a visit is the visit
without a store, and then the telling.
-/

namespace DerivedTags

/-- Computing a deferred property is heedless if its computation is. -/
theorem Deferred.evaluate_heedless {answer : String → StateM Session Answer} {view : View}
    {d : Deferred} (computing : Heedless ((d.compute view).run answer)) :
    Heedless (d.evaluate answer view) := by
  intro s
  rw [evaluate_apply, evaluate_apply]
  by_cases running : d.id ∈ s.evaluating
  · have runningThere : d.id ∈ s.forget.evaluating := running
    rw [if_pos running, if_pos runningThere, s.followedBy_forget]
  · have idleThere : d.id ∉ s.forget.evaluating := running
    rw [if_neg running, if_neg idleThere, computing (s.enter d.id)]
    rfl

/-- Being heedless of calls and log is a discipline. -/
def Heedless.discipline : Discipline where
  holds := Heedless
  pure := .pure
  bind := .bind
  addEvent := .addEvent
  writeLine line _ := .writeLine line
  tick := .tick
  newDeferred := .newDeferred
  evaluate := Deferred.evaluate_heedless

namespace Pass

/-- Telling a store is a call, whatever the store answers. -/
theorem tell_apply (store : Store) (id : String) (s : Session) :
    ∃ after, tell store id s = ((), after) ∧ after.calls = s.calls ++ [.pinged id] := by
  simp only [tell, Session.bind_apply]
  rcases store.ping id with panic | e | ⟨⟩
  · exact ⟨_, rfl, rfl⟩
  · exact ⟨_, rfl, rfl⟩
  · exact ⟨_, rfl, rfl⟩

/-- Calls and log apart, telling a store leaves the session as it is. -/
theorem forget_tell (store : Store) (id : String) (s : Session) :
    (tell store id s).2.forget = s.forget := by
  simp only [tell, Session.bind_apply]
  rcases store.ping id with panic | e | ⟨⟩ <;> rfl

/-- A visit without calculated tags goes by the derivations. -/
theorem visit_of_deriveAll {p : Pass} {f g : Feature} {changed : Bool} {s mid : Session}
    (plain : p.tags = none)
    (derived : p.deriveAll f.properties.keys p.derivations false f s = ((.ok changed, g), mid)) :
    ∃ after, p.visit f s = ((.ok changed, g), after) ∧
      after.calls = mid.calls ++ (if changed && p.store.isSome then [.pinged g.id] else []) := by
  simp only [visit, runTags, plain, Session.bind_apply, derived, Session.pure_apply]
  cases changed with
  | false => exact ⟨mid, rfl, by simp⟩
  | true =>
    cases p.store with
    | none => exact ⟨mid, rfl, by simp⟩
    | some store =>
      obtain ⟨after, told, calls⟩ := tell_apply store g.id mid
      exact ⟨after, by simp [told], by simpa using calls⟩

/-- A visit that returns has run its derivations and then its tags. -/
theorem of_visit {p : Pass} {f g : Feature} {changed : Bool} {s : Session}
    (visited : (p.visit f s).1 = (.ok changed, g)) :
    ∃ some h mid, p.deriveAll f.properties.keys p.derivations false f s = ((.ok some, h), mid) ∧
      (p.runTags some h mid).1 = (.ok changed, g) := by
  rcases derived : p.deriveAll f.properties.keys p.derivations false f s with
    ⟨⟨panic | some, h⟩, mid⟩
  all_goals simp only [visit, Session.bind_apply, derived] at visited
  · simp at visited
  · refine ⟨some, h, mid, rfl, ?_⟩
    rcases ran : p.runTags some h mid with ⟨⟨panic | _ | _, k⟩, after⟩
    all_goals simp only [ran] at visited
    · simp at visited
    · exact visited
    · cases told : p.store <;> simpa [told] using visited

/-- Derivations depend on the layer, the surroundings and whether anything may stay deferred,
and on nothing else of the pass. -/
theorem deriveAll_congr {p q : Pass} (layer : q.layer = p.layer)
    (surroundings : q.surroundings = p.surroundings)
    (strict : q.evaluateStrict = p.evaluateStrict) (before : List String) (ds : List Derivation)
    (changed : Bool) (f : Feature) :
    q.deriveAll before ds changed f = p.deriveAll before ds changed f := by
  have one (d : Derivation) (f : Feature) : q.derive before d f = p.derive before d f := by
    simp only [derive, layer, surroundings, strict]
  induction ds generalizing changed f with
  | nil => rfl
  | cons d rest ih => simp only [deriveAll, one, ih]

variable (p : Pass) (store : Option Store)

/-- The pass with another store, or none. -/
def withStore : Pass := { p with store }

/-- Derivations do not depend on the store. -/
theorem deriveAll_withStore (before : List String) (ds : List Derivation) (changed : Bool)
    (f : Feature) :
    (p.withStore store).deriveAll before ds changed f = p.deriveAll before ds changed f :=
  deriveAll_congr (p := p) (q := p.withStore store) rfl rfl rfl before ds changed f

/-- The session after the store, if there is one, was told of what counts as a change. -/
def afterTelling (visited : Except Snippet.Panic Bool × Feature) (s : Session) : Session :=
  match visited.1, store with
  | .ok true, some store => (tell store visited.2.id s).2
  | _, _ => s

/-- A visit is the visit without a store, and then the telling. -/
theorem visit_apply (f : Feature) (s : Session) :
    (p.withStore store).visit f s =
      (((p.withStore none).visit f s).1,
        afterTelling store ((p.withStore none).visit f s).1 ((p.withStore none).visit f s).2) := by
  have tagging (changed : Bool) (g : Feature) (other : Option Store) :
      (p.withStore other).runTags changed g = p.runTags changed g := rfl
  have derivations (other : Option Store) : (p.withStore other).derivations = p.derivations := rfl
  have stores (other : Option Store) : (p.withStore other).store = other := rfl
  simp only [visit, Session.bind_apply, deriveAll_withStore, tagging, derivations, stores]
  rcases p.deriveAll f.properties.keys p.derivations false f s with ⟨⟨panic | changed, g⟩, mid⟩
  · rfl
  · simp only [Session.bind_apply]
    rcases p.runTags changed g mid with ⟨⟨panic | _ | _, h⟩, after⟩
    · rfl
    · rfl
    · cases store <;> rfl

/-- Calls and log apart, the telling leaves the session as it is. -/
theorem forget_afterTelling (visited : Except Snippet.Panic Bool × Feature) (s : Session) :
    (afterTelling store visited s).forget = s.forget := by
  unfold afterTelling
  split
  · exact forget_tell _ _ s
  · rfl

/-- The telling is a call exactly if there was a change and there is a store. -/
theorem calls_afterTelling (changed : Bool) (f : Feature) (s : Session) :
    (afterTelling store (.ok changed, f) s).calls =
      s.calls ++ if changed && store.isSome then [.pinged f.id] else [] := by
  rcases store with _ | store
  · simp [afterTelling]
  · cases changed with
    | false => simp [afterTelling]
    | true =>
      obtain ⟨after, told, calls⟩ := tell_apply store f.id s
      simp [afterTelling, told, calls]

end Pass

end DerivedTags
