import DerivedTags.Proofs.Journal.Running
import DerivedTags.Tagging.Tagger

/-!
# Runs as passes

Once the tags of the layer are prepared, a run over a batch that is not empty
is one pass over it.
-/

namespace DerivedTags

namespace TagCompiler

/-- What a call for the tags of a layer can come to: the answer, the compiler after it and
what it writes into the log. -/
inductive Preparation (c : TagCompiler) (layer : Layer) :
    Except Snippet.Panic (Option LayerTags) → TagCompiler → List LogLine → Prop where
  /-- The layer has no definitions. -/
  | plain (empty : layer.calculatedTags = []) : Preparation c layer (.ok none) c []
  /-- Tags are kept under its id. -/
  | kept {l : LayerTags} (defines : layer.calculatedTags ≠ [])
      (found : c.kept.lookup layer.id = some l) : Preparation c layer (.ok (some l)) c []
  /-- The definitions are compiled, and the tags are kept. -/
  | compiled {tags : List CalculatedTag} (defines : layer.calculatedTags ≠ [])
      (missing : c.kept.lookup layer.id = none)
      (compiles : tagsOf c.functions layer.id layer.calculatedTags = .ok tags) :
      Preparation c layer (.ok (some ⟨layer.id, tags⟩))
        ⟨c.functions, (layer.id, ⟨layer.id, tags⟩) :: c.kept, c.compilations + 1⟩
        [.compiled tags.length layer.id]
  /-- The compilation breaks off. -/
  | broken {panic : Snippet.Panic} (defines : layer.calculatedTags ≠ [])
      (missing : c.kept.lookup layer.id = none)
      (breaks : tagsOf c.functions layer.id layer.calculatedTags = .error panic) :
      Preparation c layer (.error panic) { c with compilations := c.compilations + 1 } []

/-- A call for the tags of a layer comes to one of these, whatever the session is. -/
theorem exists_preparation (c : TagCompiler) (layer : Layer) :
    ∃ answer compiler lines, c.Preparation layer answer compiler lines ∧
      ∀ s, c.prepare layer s = ((answer, compiler), s.addLines lines) := by
  have silent (s : Session) : s = s.addLines [] := by simp [Session.addLines]
  by_cases empty : layer.calculatedTags = []
  · refine ⟨_, _, _, .plain empty, fun s => ?_⟩
    simp [prepare, empty, ← silent]
  · cases kept : c.kept.lookup layer.id with
    | some found =>
      refine ⟨_, _, _, .kept empty kept, fun s => ?_⟩
      simp [prepare, List.isEmpty_iff, empty, kept, ← silent]
    | none =>
      cases compiled : tagsOf c.functions layer.id layer.calculatedTags with
      | error panic =>
        refine ⟨_, _, _, .broken empty kept compiled, fun s => ?_⟩
        simp [prepare, compile, List.isEmpty_iff, empty, kept, compiled, ← silent]
      | ok tags =>
        refine ⟨_, _, _, .compiled empty kept compiled, fun s => ?_⟩
        simp [prepare, compile, writeLine, List.isEmpty_iff, empty, kept, compiled]

/-- What a call came to is one of these. -/
theorem preparation_of_prepare {c compiler : TagCompiler} {layer : Layer} {s after : Session}
    {answer : Except Snippet.Panic (Option LayerTags)}
    (prepared : c.prepare layer s = ((answer, compiler), after)) :
    ∃ lines, c.Preparation layer answer compiler lines ∧ after = s.addLines lines := by
  obtain ⟨answer', compiler', lines, preparation, applied⟩ := c.exists_preparation layer
  cases prepared.symm.trans (applied s)
  exact ⟨lines, preparation, rfl⟩

/-- A layer without definitions needs no compilation. -/
theorem prepare_plain (c : TagCompiler) {layer : Layer} (plain : layer.calculatedTags = [])
    (s : Session) : c.prepare layer s = ((.ok none, c), s) := by
  simp [prepare, plain]

end TagCompiler

/-- The tags of a layer as they will be prepared: those that are kept under its id, and
else what its definitions compile to. -/
def TagCompiler.tagsFor (c : TagCompiler) (layer : Layer) :
    Except Snippet.Panic (Option LayerTags) :=
  if layer.calculatedTags.isEmpty then .ok none
  else
    match c.kept.lookup layer.id with
    | some kept => .ok (some kept)
    | none => (tagsOf c.functions layer.id layer.calculatedTags).map fun tags =>
        some ⟨layer.id, tags⟩

/-- Whether the tags of a layer have to be compiled. -/
def TagCompiler.mustCompile (c : TagCompiler) (layer : Layer) : Bool :=
  !layer.calculatedTags.isEmpty && (c.kept.lookup layer.id).isNone

/-- What preparing the tags of a layer makes of a compiler: it counts a compilation if one
was needed, and from then on the layer has the tags it was given. -/
structure TagCompiler.Prepares (c : TagCompiler) (layer : Layer) (compiler : TagCompiler) :
    Prop where
  /-- Compilations are counted. -/
  compilations : compiler.compilations = c.compilations + (c.mustCompile layer).toNat
  /-- The tags stay the same. -/
  tags : ∀ tags, c.tagsFor layer = .ok tags → compiler.tagsFor layer = .ok tags
  /-- They need no other compilation. -/
  done : ∀ tags, c.tagsFor layer = .ok tags → compiler.mustCompile layer = false

/-- Preparing the tags of a layer gives them, and writes at most lines into the log,
whatever the session is. -/
theorem TagCompiler.prepare_apply (c : TagCompiler) (layer : Layer) :
    ∃ compiler lines, c.Prepares layer compiler ∧
      ∀ s, c.prepare layer s = ((c.tagsFor layer, compiler), s.addLines lines) := by
  obtain ⟨answer, compiler, lines, preparation, applied⟩ := c.exists_preparation layer
  have given : c.tagsFor layer = answer := by
    cases preparation with
    | plain empty => simp [tagsFor, empty]
    | kept defines found => simp [tagsFor, defines, found]
    | compiled defines missing compiles =>
      simp [tagsFor, defines, missing, compiles, Except.map]
    | broken defines missing breaks => simp [tagsFor, defines, missing, breaks, Except.map]
  refine ⟨compiler, lines, ?_, given ▸ applied⟩
  cases preparation with
  | plain empty =>
    have needless : c.mustCompile layer = false := by simp [mustCompile, empty]
    exact ⟨by simp [needless], fun _ tags => tags, fun _ _ => needless⟩
  | kept defines found =>
    have needless : c.mustCompile layer = false := by simp [mustCompile, found]
    exact ⟨by simp [needless], fun _ tags => tags, fun _ _ => needless⟩
  | compiled defines missing compiles =>
    have needed : c.mustCompile layer = true := by simp [mustCompile, defines, missing]
    refine ⟨by simp [needed], fun tags same => ?_, fun _ _ => by simp [mustCompile]⟩
    rw [← given.symm.trans same]
    simp [tagsFor, defines]
  | broken defines missing breaks =>
    have needed : c.mustCompile layer = true := by simp [mustCompile, defines, missing]
    exact ⟨by simp [needed], by simp [given], by simp [given]⟩

namespace Tagger

/-- The pass that a tagger makes with the tags it prepared. -/
def pass (t : Tagger) (tags : Option LayerTags) (surroundings : Surroundings) (layer : Layer)
    (store : Option Store) (options : Options) : Pass :=
  ⟨t.registry.allowed options, tags, t.methods, surroundings, layer, store,
    options.evaluateStrict⟩

/-- The tagger with other derivations. -/
def withRegistry (t : Tagger) (registry : Registry) : Tagger := { t with registry }

/-- What was compiled stays. -/
@[simp] theorem compiler_withRegistry (t : Tagger) (registry : Registry) :
    (t.withRegistry registry).compiler = t.compiler := rfl

variable (t : Tagger) (surroundings : Surroundings) (layer : Layer) (store : Option Store)
  (options : Options) (s : Session)

/-- A run over an empty batch does nothing. -/
theorem run_nil : t.run [] surroundings layer store options s = (⟨.ok false, t, []⟩, s) := rfl

/-- A run is a pass with the tags that were prepared. -/
theorem run_of_prepare {features : List Feature} (nonempty : features ≠ [])
    {tags : Option LayerTags} {compiler : TagCompiler} {mid after : Session}
    {result : Except Snippet.Panic Bool} {visited : List Feature}
    (prepared : t.compiler.prepare layer s = ((.ok tags, compiler), mid))
    (passed : (t.pass tags surroundings layer store options).visitAll features mid =
      ((result, visited), after)) :
    t.run features surroundings layer store options s =
      (⟨result, { t with compiler }, visited⟩, after) := by
  have some : features.isEmpty = false := by simpa using nonempty
  rw [pass] at passed
  simp [run, some, prepared, passed]

/-- A run whose tags cannot be prepared leaves the features alone. -/
theorem run_of_refused {features : List Feature} (nonempty : features ≠ [])
    {panic : Snippet.Panic} {compiler : TagCompiler} {mid : Session}
    (refused : t.compiler.prepare layer s = ((.error panic, compiler), mid)) :
    t.run features surroundings layer store options s =
      (⟨.error panic, { t with compiler }, features⟩, mid) := by
  have some : features.isEmpty = false := by simpa using nonempty
  simp [run, some, refused]

end Tagger

end DerivedTags
