import DerivedTags.Proofs.Tagging.NamedReads
import DerivedTags.Proofs.Tagging.TagSteps

/-!
# Running strict tags again

A strict tag overwrites its key or removes it, so a second run meets the values of
the first one. If each tag reads, of the keys of its layer, only those that a tag
before it has just written, what the first run left never shows: after every tag the
two runs agree on all keys that were written so far.
-/

namespace DerivedTags

open DerivedTags.Snippet

namespace LayerTags

/-- Each tag names what it reads, and of the keys of the layer it reads only those
that tags before it write. -/
def ReadsBack (layerKeys : List String) : List String → List CalculatedTag → Prop
  | _, [] => True
  | earlier, t :: rest =>
    (∀ c, t.compiled = .ok c →
        c.expr.NamesOnly fun key => key ∉ layerKeys ∨ key ∈ earlier) ∧
      ReadsBack layerKeys (earlier ++ [t.key]) rest

/-- Two features that hold the same values under the keys that were written so far and
under those that are not of the layer. -/
structure InStep (layerKeys earlier : List String) (f g : Feature) : Prop where
  /-- They have the same id. -/
  id : g.id = f.id
  /-- They have the same geometry. -/
  geometry : g.geometry = f.geometry
  /-- They hold the same. -/
  same : ∀ key, key ∉ layerKeys ∨ key ∈ earlier →
    g.properties.slot? key = f.properties.slot? key
  /-- None of it is deferred. -/
  plain : ∀ key, key ∉ layerKeys ∨ key ∈ earlier → f.Plain key

variable {layerKeys earlier : List String} {f g : Feature}

/-- A strict tag that reads what is in step computes the same on both sides, and its
key is in step afterwards. -/
theorem InStep.run (inStep : InStep layerKeys earlier f g) {t : CalculatedTag}
    (strict : t.strict = true)
    (names : ∀ c, t.compiled = .ok c →
      c.expr.NamesOnly fun key => key ∉ layerKeys ∨ key ∈ earlier)
    (methods methods' : FeatureMethods) (s s' : Session) :
    InStep layerKeys (earlier ++ [t.key]) (t.run methods f s).1 (t.run methods' g s').1 := by
  have sameId : g.view.id = f.view.id := inStep.id
  have sameGeometry : g.view.geometry = f.view.geometry := inStep.geometry
  obtain ⟨sameComputation, asks⟩ :=
    CalculatedTag.compute_congr sameId sameGeometry methods methods' names
  have sameTag : (g.run (t.compute methods' g.view) s').1 =
      (f.run (t.compute methods f.view) s).1 := by
    rw [sameComputation]
    exact Feature.run_fst_congr asks inStep.plain inStep.same s s'
  rw [t.run_strict methods f s strict, t.run_strict methods' g s' strict, sameTag]
  generalize (f.run (t.compute methods f.view) s).1 = tag
  have wrote := CalculatedTag.store_agree t.key f tag
  have wrote' := CalculatedTag.store_agree t.key g tag
  refine ⟨?_, ?_, fun key mem => ?_, fun key mem d => ?_⟩
  · rw [wrote'.id, wrote.id, inStep.id]
  · rw [wrote'.geometry, wrote.geometry, inStep.geometry]
  · rw [CalculatedTag.slot?_store, CalculatedTag.slot?_store]
    split
    · rfl
    · rename_i other
      exact inStep.same key (by simpa [other] using mem)
  · rw [CalculatedTag.slot?_store]
    split
    · cases tag <;> simp
    · rename_i other
      exact inStep.plain key (by simpa [other] using mem) d

/-- Strict tags that read back only keep two features in step, and bring all their
keys into step. -/
theorem InStep.runAll (inStep : InStep layerKeys earlier f g) {tags : List CalculatedTag}
    (strict : ∀ t ∈ tags, t.strict = true) (back : ReadsBack layerKeys earlier tags)
    (methods methods' : FeatureMethods) (s s' : Session) :
    InStep layerKeys (earlier ++ tags.map (·.key)) (runAll methods tags f s).1
      (LayerTags.runAll methods' tags g s').1 := by
  induction tags generalizing earlier f g s s' with
  | nil => simpa [LayerTags.runAll] using inStep
  | cons t rest ih =>
    have step := inStep.run (strict t List.mem_cons_self) back.1 methods methods' s s'
    have onward := ih step (fun u mem => strict u (List.mem_cons_of_mem _ mem)) back.2
      (t.run methods f s).2 (t.run methods' g s').2
    rwa [List.append_assoc] at onward

/-- Running the strict tags of a layer a second time leaves the same under every key
as running them once, wherever methods can be attached both times. Each snippet names
what it reads of the feature, and of the keys of the layer it reads only those that
earlier tags write, be it several times; under the other keys of the feature nothing
is deferred. Methods, surroundings and session may be others the second time. -/
theorem run_again {l : LayerTags} (strict : ∀ t ∈ l.tags, t.strict = true)
    (back : ReadsBack l.keys [] l.tags) {f : Feature} (plain : ∀ key, key ∉ l.keys → f.Plain key)
    {source source' : MethodSource} {surroundings surroundings' : Surroundings} {s s' : Session}
    (succeeds : source.Succeeds surroundings f s)
    (succeedsAgain : source'.Succeeds surroundings' (l.run source surroundings f s).1 s') :
    let once := (l.run source surroundings f s).1
    let twice := (l.run source' surroundings' once s').1
    ∀ key, twice.properties.slot? key = once.properties.slot? key := by
  intro once twice key
  obtain ⟨methods, after, ran⟩ := l.run_of_succeeds succeeds
  obtain ⟨methods', after', ranAgain⟩ := l.run_of_succeeds succeedsAgain
  have wrote : Feature.AgreeOutside l.keys f once := by
    have agree := runAll_agree methods l.tags f after
    rwa [← ran] at agree
  have begun : InStep l.keys [] f once :=
    ⟨wrote.id, wrote.geometry,
      fun key mem => wrote.slot?_eq (mem.resolve_right List.not_mem_nil),
      fun key mem => plain key (mem.resolve_right List.not_mem_nil)⟩
  have ended := begun.runAll strict back methods methods' after after'
  rw [← ran, ← ranAgain, List.nil_append] at ended
  exact ended.same key (Decidable.em (key ∈ l.keys)).symm

/-- A layer whose first and last tag write the same key, with a tag between them that
reads what the first one has written. -/
def rewritingTags : LayerTags where
  layer := "shops"
  tags :=
    [⟨.standard, "shops", "total", "feat.properties.n", true,
      .ok ⟨"feat.properties.n", .var ["feat", "properties", "n"]⟩⟩,
    ⟨.standard, "shops", "label", "feat.properties.total.trim()", true,
      .ok ⟨"feat.properties.total.trim()", .call ["feat", "properties", "total", "trim"] []⟩⟩,
    ⟨.standard, "shops", "total", "feat.id", true, .ok ⟨"feat.id", .var ["feat", "id"]⟩⟩]

/-- A feature with a number, and with a deferred property under a key of the layer. -/
def numberedFeature : Feature where
  id := "node/1"
  geometry := none
  properties :=
    { entries :=
        [("n", .concrete (.num (.int 3))), ("total", .deferred ⟨0, fun _ => .ask "n" .done⟩)] }

/-- The feature after one run of these tags. -/
def rewrittenOnce : Feature :=
  (rewritingTags.run .standard .detached numberedFeature (.start 10)).1

/-- A key that is written twice reads in between as the first tag wrote it, in both
runs, although the second run finds what the last tag wrote. -/
theorem run_again_rewriting :
    ((∀ t ∈ rewritingTags.tags, t.strict = true) ∧
        ReadsBack rewritingTags.keys [] rewritingTags.tags ∧
        (∀ key, key ∉ rewritingTags.keys → numberedFeature.Plain key) ∧
        MethodSource.standard.Succeeds .detached numberedFeature (.start 10) ∧
        MethodSource.standard.Succeeds .detached rewrittenOnce (.start 10)) ∧
      (∀ key, (rewritingTags.run .standard .detached rewrittenOnce (.start 10)).1.properties.slot?
          key = rewrittenOnce.properties.slot? key) ∧
      (rewrittenOnce.properties.concrete? "label").bind Json.text? = some "3" ∧
      (rewrittenOnce.properties.concrete? "total").bind Json.text? = some "node/1" := by
  have strict : ∀ t ∈ rewritingTags.tags, t.strict = true := by simp [rewritingTags]
  have back : ReadsBack rewritingTags.keys [] rewritingTags.tags := by
    refine ⟨fun c compiled => ?_, fun c compiled => ?_, fun c compiled => ?_, trivial⟩
    · obtain rfl := Except.ok.inj compiled
      exact .var (.property (.inl (by decide)) [])
    · obtain rfl := Except.ok.inj compiled
      exact .call (fun _ => .property (.inr (by decide)) []) (fun o mem => nomatch mem)
    · obtain rfl := Except.ok.inj compiled
      exact .var (.member (by decide) [])
  have plain : ∀ key, key ∉ rewritingTags.keys → numberedFeature.Plain key := by
    intro key other d slot
    have notTotal : (key == "total") = false := by
      rw [beq_eq_false_iff_ne]
      rintro rfl
      exact other (by decide)
    by_cases number : key = "n"
    · subst number
      cases slot
    · have notNumber : (key == "n") = false := by simpa using number
      simp [numberedFeature, Properties.slot?, List.lookup_cons, notTotal, notNumber] at slot
  have first := MethodSource.standard_succeeds .detached numberedFeature (.start 10)
  have second := MethodSource.standard_succeeds .detached rewrittenOnce (.start 10)
  refine ⟨⟨strict, back, plain, first, second⟩, ?_, ?_, ?_⟩
  · exact run_again strict back plain first second
  · decide +kernel
  · decide +kernel

end LayerTags

end DerivedTags
