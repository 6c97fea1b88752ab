import DerivedTags.Proofs.Snippet.Overflow
import DerivedTags.Proofs.Tagging.ForcedReads
import DerivedTags.Proofs.Tagging.Runs

/-!
# Which panics end a run

Two things can end a run of a tagger early: the compilation of the layer's
tags, and a forced read. A run returns exactly if neither of them panics. An
overflowing remainder in a snippet and a brittle computation show that both
happen.
-/

namespace DerivedTags

open DerivedTags.Snippet (Compiled FunctionTable Overflows Panic)

/-- The compilation of a layer breaks off: nothing is kept under its id, and one
of its snippets overflows. -/
def TagCompiler.BreaksOn (c : TagCompiler) (layer : Layer) : Prop :=
  c.kept.lookup layer.id = none ∧
    ∃ d ∈ layer.calculatedTags, ∃ source, d.snippet = some source ∧ Overflows source

namespace TagCompiler

/-- Compiling definitions breaks off exactly at a snippet that overflows. -/
theorem tagsOf_eq_error_iff (functions : FunctionTable) (layer : String)
    (ds : List Layer.Definition) (panic : Panic) :
    tagsOf functions layer ds = .error panic ↔
      panic = .remainderOverflow ∧
        ∃ d ∈ ds, ∃ source, d.snippet = some source ∧ Overflows source := by
  induction ds with
  | nil => simp [tagsOf]
  | cons d rest ih =>
    cases hs : d.snippet with
    | none => simpa [tagsOf, hs] using ih
    | some source =>
      have iff := Compiled.ofText_eq_error_iff source
      cases hc : Compiled.ofText source with
      | error q =>
        obtain ⟨rfl, overflows⟩ := (iff q).mp hc
        simp [tagsOf, hs, hc, overflows, bind, Except.bind, eq_comm]
      | ok compiled =>
        have sound : ¬Overflows source := by
          intro overflows
          have broken := (iff _).mpr ⟨rfl, overflows⟩
          rw [hc] at broken
          cases broken
        cases ht : tagsOf functions layer rest with
        | error q =>
          rw [ht] at ih
          simpa [tagsOf, hs, hc, ht, sound, bind, Except.bind] using ih
        | ok tags =>
          rw [ht] at ih
          simpa [tagsOf, hs, hc, ht, sound, bind, Except.bind] using ih

/-- Preparing a layer breaks off exactly if its compilation does. -/
theorem prepare_eq_error_iff (c : TagCompiler) (layer : Layer) (s : Session) (panic : Panic) :
    (c.prepare layer s).1.1 = .error panic ↔
      panic = .remainderOverflow ∧ c.BreaksOn layer := by
  obtain ⟨answer, compiler, lines, preparation, applied⟩ := c.exists_preparation layer
  have iff := tagsOf_eq_error_iff c.functions layer.id layer.calculatedTags panic
  rw [applied, BreaksOn]
  cases preparation with
  | plain empty => simp [empty]
  | kept defines found => simp [found]
  | compiled defines missing compiles => simpa [missing, compiles] using iff
  | broken defines missing breaks => simpa [missing, breaks] using iff

end TagCompiler

namespace Tagger

/-- The reads that a run forces, once the tags are compiled. -/
def forcedReads (t : Tagger) (features : List Feature) (surroundings : Surroundings)
    (layer : Layer) (store : Option Store) (options : Options) (s : Session) :
    List ForcedRead :=
  match t.compiler.prepare layer s with
  | ((.ok tags, _), after) =>
    (t.pass tags surroundings layer store options).forcedReads features after
  | ((.error _, _), _) => []

/-- A run ends in a panic exactly if the compilation of the layer breaks off or
a forced read panics, and then in that panic. -/
theorem run_eq_error_iff (t : Tagger) (features : List Feature) (surroundings : Surroundings)
    (layer : Layer) (store : Option Store) (options : Options) (s : Session) (panic : Panic) :
    (t.run features surroundings layer store options s).1.result = .error panic ↔
      features ≠ [] ∧
        (panic = .remainderOverflow ∧ t.compiler.BreaksOn layer ∨
          Panicking (t.forcedReads features surroundings layer store options s) panic) := by
  cases features with
  | nil => simp [run]
  | cons f rest =>
    have prepared := t.compiler.prepare_eq_error_iff layer s panic
    simp only [run, forcedReads, List.isEmpty_cons, Bool.false_eq_true, if_false,
      Session.bind_apply]
    rcases hp : t.compiler.prepare layer s with ⟨⟨result, compiler⟩, after⟩
    rw [hp] at prepared
    rw [← prepared]
    cases result with
    | error q => simp
    | ok tags =>
      have iff := (t.pass tags surroundings layer store options).visitAll_eq_error_iff
        (f :: rest) after panic
      simpa [pass] using iff

/-- A run forces nothing unless its options ask for it. -/
theorem forcedReads_eq_nil (t : Tagger) (features : List Feature) (surroundings : Surroundings)
    (layer : Layer) (store : Option Store) {options : Options}
    (lenient : options.evaluateStrict = false) (s : Session) :
    t.forcedReads features surroundings layer store options s = [] := by
  unfold forcedReads
  split
  · exact Pass.forcedReads_eq_nil lenient features _
  · rfl

/-- A run returns whether anything changed exactly if the batch is empty, or the
tags of the layer compile and, where nothing may stay deferred, every forced
read gives an answer. Panics of derivations, methods, snippets and the store
play no part: they are contained. -/
theorem run_returns_iff (t : Tagger) (features : List Feature) (surroundings : Surroundings)
    (layer : Layer) (store : Option Store) (options : Options) (s : Session) :
    (∃ changed, (t.run features surroundings layer store options s).1.result = .ok changed) ↔
      features = [] ∨ ¬t.compiler.BreaksOn layer ∧
        (options.evaluateStrict = true →
          ∀ read ∈ t.forcedReads features surroundings layer store options s,
            ∃ value, read.answer = .ok value) := by
  have broken := t.run_eq_error_iff features surroundings layer store options s
  constructor
  · rintro ⟨changed, returned⟩
    by_cases empty : features = []
    · exact .inl empty
    · refine .inr ⟨fun breaks => ?_, fun _ read mem => ?_⟩
      · have panics := (broken .remainderOverflow).mpr ⟨empty, .inl ⟨rfl, breaks⟩⟩
        rw [returned] at panics
        cases panics
      · cases answered : read.answer with
        | ok value => exact ⟨value, rfl⟩
        | error panic =>
          have panics := (broken panic).mpr ⟨empty, .inr ⟨read, mem, answered⟩⟩
          rw [returned] at panics
          cases panics
  · intro safe
    cases result : (t.run features surroundings layer store options s).1.result with
    | ok changed => exact ⟨changed, rfl⟩
    | error panic =>
      obtain ⟨nonempty, breaks | ⟨read, mem, panics⟩⟩ := (broken panic).mp result
      · exact absurd breaks.2 (safe.resolve_left nonempty).1
      · have answers := (safe.resolve_left nonempty).2
        cases strict : options.evaluateStrict with
        | false =>
          rw [t.forcedReads_eq_nil features surroundings layer store strict s] at mem
          cases mem
        | true =>
          obtain ⟨value, answered⟩ := answers strict read mem
          rw [answered] at panics
          cases panics

/-- A feature without geometry and properties. -/
def bareFeature : Feature := ⟨"a", none, .empty⟩

/-- A layer with a strict tag whose constants cannot be folded. -/
def overflowingLayer : Layer :=
  ⟨"boom", some (.obj []), [⟨"_x", some "(-9223372036854775807 + -1) % -1", true⟩]⟩

/-- A lazy derivation that leaves a computation that panics. -/
def brittleDerivation : Derivation where
  keys := ["_tp"]
  isLazy := true
  includesDates := false
  propose _ _ _ _ :=
    .done ⟨[.defer "_tp" fun _ => .done (.error (.ofText "thunk down"))], .ok (.ok true)⟩

/-- Whether two results of a run are the same can be decided. -/
instance decEqResult : DecidableEq (Except Panic Bool)
  | .ok a, .ok b => decidable_of_iff (a = b) (by simp)
  | .error p, .error q => decidable_of_iff (p = q) (by simp)
  | .ok _, .error _ => .isFalse (by simp)
  | .error _, .ok _ => .isFalse (by simp)

/-- Runs that end in a panic: one compiles a remainder that overflows, one forces
a computation that panics. -/
theorem run_panics :
    ((Tagger.start []).run [bareFeature] .detached overflowingLayer none .default
        (.start 10)).1.result = .error .remainderOverflow ∧
      ((Tagger.start [brittleDerivation]).run [bareFeature] .detached (.named "t") none
        ⟨true, true, true⟩ (.start 10)).1.result = .error (.ofText "thunk down") := by
  constructor
  · decide +kernel
  · decide +kernel

end Tagger

end DerivedTags
