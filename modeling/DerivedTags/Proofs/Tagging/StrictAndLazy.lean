import DerivedTags.Proofs.Feature.UnderComputation
import DerivedTags.Proofs.Journal.Orderly
import DerivedTags.Proofs.Tagging.TagSteps

/-!
# Strict and lazy tags

A strict tag stores its value when it runs, a lazy one leaves a property that
computes it at every read. Forcing what the lazy tag left gives the feature that the
strict tag leaves, and failures count alike. The snippet may read its own key: where
the strict tag finds nothing under it, the lazy one finds itself under computation,
which reads the same.
-/

namespace DerivedTags

namespace CalculatedTag

/-- The tag with its value stored when it runs. -/
def eager (t : CalculatedTag) : CalculatedTag := { t with strict := true }

/-- The tag with its value computed at every read. -/
def deferring (t : CalculatedTag) : CalculatedTag := { t with strict := false }

/-- The tag that an outcome gives in a session, and the session in which a failure is
known. -/
def conclude (t : CalculatedTag) (result : Except String Snippet.Value) (s : Session) :
    Option Json × Session :=
  match result with
  | .ok v => (encoded v, s)
  | .error cause => (none, s.addEvent (.failure t.failure cause))

variable (t : CalculatedTag) (methods : FeatureMethods)

/-- A tag is computed by running its snippet and concluding from the outcome. -/
theorem run_compute (answer : String → StateM Session Answer) (view : View) (s : Session) :
    (t.compute methods view).run answer s =
      t.conclude ((t.outcome methods view).run answer s).1
        ((t.outcome methods view).run answer s).2 := by
  simp only [compute, Reading.run_bind, Session.bind_apply]
  rcases (t.outcome methods view).run answer s with ⟨cause | v, after⟩
  · rfl
  · rfl

/-- The same tag is concluded from an outcome, and a failure counts the same, whether
the tag is strict or lazy. -/
theorem conclude_deferring (result : Except String Snippet.Value) (s : Session) :
    let strict := t.eager.conclude result s
    let lazy := t.deferring.conclude result s
    lazy.1 = strict.1 ∧ lazy.2.calls = strict.2.calls ∧ lazy.2.failures = strict.2.failures := by
  cases result with
  | ok v => exact ⟨rfl, rfl, rfl⟩
  | error cause => exact ⟨rfl, rfl, rfl⟩

end CalculatedTag

/-- A deferred property with a new number is no other property of the feature. -/
theorem Feature.Issued.fresh {f : Feature} {s : Session} (issued : f.Issued s) (key : String)
    (e : Deferred) (slot : f.properties.slot? key = some (.deferred e)) : e.id ≠ s.nextDeferred :=
  Nat.ne_of_lt (issued key e slot)

/-- Taking a number and beginning to compute the property with it leads inside the
computation. -/
theorem Session.Inside.of_newDeferred (s : Session) :
    Session.Inside s.nextDeferred s ((newDeferred s).2.enter s.nextDeferred) where
  evaluating := List.erase_cons_head s.nextDeferred s.evaluating
  running := List.mem_cons_self
  calls := rfl
  log := rfl
  failures := rfl

namespace CalculatedTag

/-- Keeping a tag in the place of a property that is new is storing it. -/
theorem kept_new {f : Feature} {key : String} (absent : f.properties.contains key = false)
    (slot : Slot) (tag : Option Json) :
    (f.set key slot).kept key (.ok tag) = store key f tag := by
  cases tag with
  | none =>
    simp only [Feature.kept, store, Feature.erase, Feature.set, Feature.withProperties,
      Properties.erase_set_of_absent absent, Properties.erase_of_absent absent]
  | some v =>
    simp only [Feature.kept, store, Feature.set, Feature.withProperties, Properties.set_set]

/-- What was stored under a key is found there. -/
theorem concrete?_store (key : String) (f : Feature) (tag : Option Json) :
    (store key f tag).properties.concrete? key = tag := by
  rw [Properties.concrete?, slot?_store, if_pos rfl]
  cases tag <;> rfl

/-- Forcing what a lazy tag left under a key that was absent gives exactly the feature
that the strict tag with the same snippet leaves, its properties in the same order;
the forced read does not panic, calls the same collaborators and counts the same
failures. This holds whatever came of compiling the snippet, whatever methods are
attached, and whatever the snippet reads, its own key and deferred properties that
read it included. The session has numbered all deferred properties of the feature
and all that are under computation, as it has wherever runs lead to from the start
(`run_numbered`, `run_issued`). -/
theorem force_deferring (t : CalculatedTag) (methods : FeatureMethods) {f : Feature}
    {s : Session} (absent : f.properties.contains t.key = false) (numbered : s.Numbered)
    (issued : f.Issued s) :
    let strict := t.eager.run methods f s
    let forced := (t.deferring.run methods f >>= fun g => g.force t.key) s
    forced.1.2 = strict.1 ∧ forced.1.1 = .ok (strict.1.properties.concrete? t.key) ∧
      forced.2.calls = strict.2.calls ∧ forced.2.failures = strict.2.failures := by
  intro strict forced
  let d : Deferred := ⟨s.nextDeferred, t.deferring.later methods⟩
  have idle : d.id ∉ (newDeferred s).2.evaluating := fun running =>
    absurd (numbered d.id running) (Nat.lt_irrefl _)
  have slot : (f.set t.key (.deferred d)).properties.slot? t.key = some (.deferred d) := by
    simp [Feature.set, Feature.withProperties, Properties.slot?_set]
  let outcome := f.run (t.outcome methods f.view) s
  let tag := (t.eager.conclude outcome.1 outcome.2).1
  let lazySession := (t.deferring.conclude outcome.1 outcome.2).2
  obtain ⟨sameTag, sameCalls, sameFailures⟩ := t.conclude_deferring outcome.1 outcome.2
  have computed : f.run (d.compute f.view) s = (.ok tag, lazySession) := by
    have ran := t.deferring.run_compute methods f.get f.view s
    simp only [Feature.run, d, later, Reading.run_bind, Session.bind_apply, ran]
    exact congrArg (fun tag => (Except.ok tag, lazySession)) sameTag
  obtain ⟨value, calls, -, failures⟩ :=
    Feature.get_new absent (d := d) issued.fresh idle (.of_newDeferred s)
  rw [computed] at value calls failures
  have forcedEq : forced = (f.set t.key (.deferred d)).force t.key (newDeferred s).2 := rfl
  have strictEq : strict = (store t.key f tag, (t.eager.conclude outcome.1 outcome.2).2) := by
    have ran : f.run (t.eager.compute methods f.view) s =
        t.eager.conclude outcome.1 outcome.2 := t.eager.run_compute methods f.get f.view s
    exact (run_strict methods f s rfl).trans (by rw [ran]; rfl)
  rw [forcedEq, Feature.force_apply slot, value, kept_new absent, strictEq]
  exact ⟨rfl, congrArg _ (concrete?_store t.key f tag).symm, calls.trans sameCalls,
    failures.trans sameFailures⟩

/-- A tag under `a` that reads `b` and has a value of its own where `b` has none. -/
def readingTag : CalculatedTag :=
  ⟨.standard, "shops", "a", "feat.properties.b ?? 'none'", true,
    .ok ⟨"feat.properties.b ?? 'none'",
      .coalesce (.var ["feat", "properties", "b"]) (.literal (.str "none"))⟩⟩

/-- A feature whose deferred property `b` reads `a`. -/
def readingFeature : Feature where
  id := "node/1"
  geometry := none
  properties := { entries := [("b", .deferred ⟨0, fun _ => .ask "a" .done⟩)] }

/-- A tag and a deferred property that read each other: the strict tag finds nothing
under either key, and the lazy one finds itself under computation. Both store the
same text. -/
theorem force_deferring_mutual :
    let s := (newDeferred (.start 10)).2
    let strict := readingTag.eager.run .empty readingFeature s
    let forced := (readingTag.deferring.run .empty readingFeature >>= fun g => g.force "a") s
    (readingFeature.properties.contains "a" = false ∧ s.Numbered ∧ readingFeature.Issued s) ∧
      forced.1.2 = strict.1 ∧ forced.2.failures = strict.2.failures ∧
        strict.1.properties.concrete? "a" = some (.str "none") := by
  have absent : readingFeature.properties.contains readingTag.key = false := rfl
  have numbered : (newDeferred (.start 10)).2.Numbered := fun id mem => nomatch mem
  have issued : readingFeature.Issued (newDeferred (.start 10)).2 := by
    intro key d slot
    by_cases same : key = "b"
    · subst same
      obtain rfl : (⟨0, fun _ => .ask "a" .done⟩ : Deferred) = d :=
        Slot.deferred.inj (Option.some.inj slot)
      exact Nat.zero_lt_one
    · have other : (key == "b") = false := by simpa using same
      simp [readingFeature, Properties.slot?, List.lookup_cons, other] at slot
  obtain ⟨same, -, -, failures⟩ :=
    readingTag.force_deferring .empty absent numbered issued
  exact ⟨⟨absent, numbered, issued⟩, same, failures, rfl⟩

end CalculatedTag

end DerivedTags
