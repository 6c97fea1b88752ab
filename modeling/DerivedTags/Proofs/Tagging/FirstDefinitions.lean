import Mathlib.Data.Finset.Card
import Mathlib.Data.Finset.Dedup
import Mathlib.Data.List.Induction
import DerivedTags.Proofs.Tagging.SourceTags

/-!
# The first definitions of a layer count

A compiler is asked for the tags of layers, one call after the other. Under an id it keeps
the tags of the first definitions that it was given, so that it compiles once for each id,
whatever definitions come under the id later on. A layer without definitions is passed
over, even under an id that was compiled before.
-/

namespace DerivedTags

/-- Whether a layer defines calculated tags, be they placeholders only. -/
def Layer.defines (layer : Layer) : Bool := !layer.calculatedTags.isEmpty

/-- The first of several layers that defines calculated tags under an id. -/
def Layer.firstUnder (id : String) (layers : List Layer) : Option Layer :=
  layers.find? fun layer => layer.id == id && layer.defines

/-- The ids under which layers define calculated tags. -/
def Layer.definedIds (layers : List Layer) : Finset String :=
  ((layers.filter Layer.defines).map Layer.id).toFinset

namespace TagCompiler

/-- The compiler after calls for the tags of layers. -/
def afterCalls (c : TagCompiler) : List Layer → StateM Session TagCompiler
  | [] => pure c
  | layer :: rest => do
    let (_, called) ← c.prepare layer
    called.afterCalls rest

/-- A call for the tags of a layer after calls for those of others. -/
def callAfter (c : TagCompiler) (before : List Layer) (layer : Layer) :
    StateM Session (Except Snippet.Panic (Option LayerTags) × TagCompiler) := do
  let called ← c.afterCalls before
  called.prepare layer

/-- No compilation breaks off in a sequence of calls. -/
def Serves (c : TagCompiler) (layers : List Layer) (s : Session) : Prop :=
  ∀ before layer rest, layers = before ++ layer :: rest →
    ∀ panic, (c.callAfter before layer s).1.1 ≠ .error panic

/-- What holds of a compiler after calls: it has the functions it began with, it keeps
under each id what the first definitions there compile to, and it counted the ids. -/
structure Keeps (functions : Snippet.FunctionTable) (layers : List Layer) (c : TagCompiler) :
    Prop where
  /-- The functions are the same. -/
  table : c.functions = functions
  /-- Under an id with definitions the tags of the first ones are kept, under others none. -/
  kept : ∀ id, Option.Rel
    (fun first l => l.layer = id ∧ tagsOf functions id first.calculatedTags = .ok l.tags)
    (Layer.firstUnder id layers) (c.kept.lookup id)
  /-- Each id with definitions was compiled once. -/
  compilations : c.compilations = (Layer.definedIds layers).card

end TagCompiler

namespace Layer

variable {layers : List Layer} {layer : Layer} {id : String}

/-- A layer defines calculated tags unless its list of them is empty. -/
theorem defines_iff : layer.defines = true ↔ layer.calculatedTags ≠ [] := by
  simp [defines]

/-- One more layer comes first under its id only if none did before it. -/
theorem firstUnder_append (id : String) (layers : List Layer) (layer : Layer) :
    firstUnder id (layers ++ [layer]) =
      (firstUnder id layers).or (if layer.id = id ∧ layer.defines then some layer else none) := by
  rw [firstUnder, List.find?_append]
  by_cases comes : layer.id = id ∧ layer.defines
  · simp [firstUnder, comes]
  · rw [if_neg comes]
    have no : (layer.id == id && layer.defines) = false := by
      rw [Bool.eq_false_iff, ne_eq, Bool.and_eq_true, beq_iff_eq]
      exact comes
    simp [firstUnder, no]

/-- One more layer changes nothing under an id where another one came first. -/
theorem firstUnder_append_of_some {first : Layer} (found : firstUnder layer.id layers = some first)
    (id : String) : firstUnder id (layers ++ [layer]) = firstUnder id layers := by
  rw [firstUnder_append]
  by_cases own : layer.id = id
  · rw [← own, found]
    rfl
  · rw [if_neg fun comes => own comes.1, Option.or_none]

/-- Ids are defined where a layer comes first under them. -/
theorem mem_definedIds_iff : id ∈ definedIds layers ↔ (firstUnder id layers).isSome := by
  rw [definedIds, List.mem_toFinset, firstUnder, List.find?_isSome]
  simp [and_left_comm, and_comm]

/-- One more layer with definitions adds its id. -/
theorem definedIds_append (defines : layer.defines = true) :
    definedIds (layers ++ [layer]) = insert layer.id (definedIds layers) := by
  ext other
  simp [definedIds, defines]

/-- One more layer without definitions adds nothing. -/
theorem definedIds_append_plain (plain : layer.defines = false) :
    definedIds (layers ++ [layer]) = definedIds layers := by
  simp [definedIds, plain]

end Layer

namespace TagCompiler

variable {functions : Snippet.FunctionTable} {layers : List Layer} {c : TagCompiler}
  {layer : Layer} {s : Session}

/-- A compiler that was not called yet keeps nothing. -/
theorem keeps_start (functions : Snippet.FunctionTable) : Keeps functions [] (start functions) :=
  ⟨rfl, fun _ => .none, rfl⟩

/-- Where tags are kept a layer came first, and they are what it compiles to. -/
theorem Keeps.exists_first (keeps : Keeps functions layers c) {id : String} {l : LayerTags}
    (found : c.kept.lookup id = some l) : ∃ first, Layer.firstUnder id layers = some first ∧
      l.layer = id ∧ tagsOf functions id first.calculatedTags = .ok l.tags := by
  have related := keeps.kept id
  rw [found] at related
  generalize Layer.firstUnder id layers = under at related
  cases related with
  | some here => exact ⟨_, rfl, here⟩

/-- Where no tags are kept no layer came. -/
theorem Keeps.firstUnder_eq_none (keeps : Keeps functions layers c) {id : String}
    (missing : c.kept.lookup id = none) : Layer.firstUnder id layers = none := by
  have related := keeps.kept id
  rw [missing] at related
  generalize Layer.firstUnder id layers = under at related
  cases related
  rfl

/-- Where definitions are compiled no layer came under the id, so that this one is first. -/
theorem Keeps.firstUnder_append (keeps : Keeps functions layers c)
    (missing : c.kept.lookup layer.id = none) (defines : layer.calculatedTags ≠ []) :
    Layer.firstUnder layer.id (layers ++ [layer]) = some layer := by
  have comes : layer.id = layer.id ∧ layer.defines = true := ⟨rfl, Layer.defines_iff.mpr defines⟩
  rw [Layer.firstUnder_append, keeps.firstUnder_eq_none missing, if_pos comes, Option.none_or]

/-- A call that does not break off keeps to this. -/
theorem Keeps.step (keeps : Keeps functions layers c)
    (calm : ∀ panic, (c.prepare layer s).1.1 ≠ .error panic) :
    Keeps functions (layers ++ [layer]) (c.prepare layer s).1.2 := by
  obtain ⟨answer, compiler, lines, preparation, applied⟩ := c.exists_preparation layer
  rw [applied] at calm ⊢
  cases preparation with
  | plain empty =>
    have plain : ¬layer.defines = true := mt Layer.defines_iff.mp (not_not_intro empty)
    refine ⟨keeps.table, fun id => ?_, ?_⟩
    · rw [Layer.firstUnder_append, if_neg fun comes => plain comes.2, Option.or_none]
      exact keeps.kept id
    · rw [Layer.definedIds_append_plain (Bool.eq_false_iff.mpr plain)]
      exact keeps.compilations
  | kept defines found =>
    obtain ⟨first, came, -⟩ := keeps.exists_first found
    have known : layer.id ∈ Layer.definedIds layers := by
      rw [Layer.mem_definedIds_iff, came]
      rfl
    refine ⟨keeps.table, fun id => ?_, ?_⟩
    · rw [Layer.firstUnder_append_of_some came]
      exact keeps.kept id
    · rw [Layer.definedIds_append (Layer.defines_iff.mpr defines), Finset.insert_eq_of_mem known]
      exact keeps.compilations
  | compiled defines missing compiles =>
    have fresh : layer.id ∉ Layer.definedIds layers := by
      rw [Layer.mem_definedIds_iff, keeps.firstUnder_eq_none missing]
      exact Bool.false_ne_true
    refine ⟨keeps.table, fun id => ?_, ?_⟩
    · by_cases own : layer.id = id
      · subst own
        rw [keeps.firstUnder_append missing defines]
        simp only [List.lookup_cons, beq_self_eq_true]
        exact .some ⟨rfl, keeps.table ▸ compiles⟩
      · have no : (id == layer.id) = false := beq_false_of_ne (Ne.symm own)
        rw [Layer.firstUnder_append, if_neg fun comes => own comes.1, Option.or_none]
        simp only [List.lookup_cons, no]
        exact keeps.kept id
    · rw [Layer.definedIds_append (Layer.defines_iff.mpr defines),
        Finset.card_insert_of_notMem fresh, ← keeps.compilations]
  | broken defines missing breaks => exact absurd rfl (calm _)

/-- A call for a layer with definitions gives what the first definitions under its id
compile to, those of the layer itself among them. -/
theorem Keeps.answer (keeps : Keeps functions layers c)
    (calm : ∀ panic, (c.prepare layer s).1.1 ≠ .error panic) (present : layer.calculatedTags ≠ []) :
    ∃ first tags, Layer.firstUnder layer.id (layers ++ [layer]) = some first ∧
      tagsOf functions layer.id first.calculatedTags = .ok tags ∧
      (c.prepare layer s).1.1 = .ok (some ⟨layer.id, tags⟩) := by
  obtain ⟨answer, compiler, lines, preparation, applied⟩ := c.exists_preparation layer
  rw [applied] at calm ⊢
  cases preparation with
  | plain empty => exact absurd empty present
  | @kept l defines found =>
    obtain ⟨first, came, own, compiles⟩ := keeps.exists_first found
    refine ⟨first, l.tags, ?_, compiles, ?_⟩
    · rw [Layer.firstUnder_append_of_some came, came]
    · rw [← own]
  | @compiled tags defines missing compiles =>
    exact ⟨layer, tags, keeps.firstUnder_append missing defines, keeps.table ▸ compiles, rfl⟩
  | broken defines missing breaks => exact absurd rfl (calm _)

/-- Calls one after the other, and then more. -/
theorem afterCalls_append (c : TagCompiler) (before after : List Layer) (s : Session) :
    c.afterCalls (before ++ after) s =
      (c.afterCalls before s).1.afterCalls after (c.afterCalls before s).2 := by
  induction before generalizing c s with
  | nil => rfl
  | cons layer rest ih => exact ih _ _

/-- Calls that do not break off keep to this, one after the other. -/
theorem keeps_afterCalls (serves : (start functions).Serves layers s) {before rest : List Layer}
    (prefixed : layers = before ++ rest) :
    Keeps functions before ((start functions).afterCalls before s).1 := by
  induction before using List.reverseRecOn generalizing rest with
  | nil => exact keeps_start functions
  | append_singleton front last ih =>
    rw [List.append_assoc] at prefixed
    have keeps := ih prefixed
    have calm := serves front last rest prefixed
    rw [afterCalls_append]
    exact keeps.step calm

/-- No compilation breaks off if none does at the first call and none after it. -/
theorem Serves.cons {rest : List Layer} (calm : (c.prepare layer s).1.1.isOk = true)
    (serves : (c.prepare layer s).1.2.Serves rest (c.prepare layer s).2) :
    c.Serves (layer :: rest) s := by
  intro before called others split panic broken
  cases before with
  | nil =>
    obtain ⟨rfl, rfl⟩ := List.cons.inj split
    have failed : (c.prepare layer s).1.1 = .error panic := broken
    rw [failed] at calm
    cases calm
  | cons first more =>
    obtain ⟨rfl, onward⟩ := List.cons.inj split
    exact serves more called others onward panic broken

/-- Compile once, and first definitions win. Take any sequence of calls in which no
compilation breaks off, whatever definitions come under an id again. At each point of it
the compiler has compiled as often as there are ids for which definitions came so far. A
call for a layer without definitions gives no tags and changes neither the compiler nor
the session, even under an id that was compiled. Any other call gives tags of the id: one
for each definition with code, in their order, compiled from the first definitions that
came under the id, this call included. -/
theorem first_definitions_win (serves : (start functions).Serves layers s) :
    (∀ before rest, layers = before ++ rest →
      ((start functions).afterCalls before s).1.compilations =
        (Layer.definedIds before).card) ∧
      ∀ before layer rest, layers = before ++ layer :: rest →
        (layer.calculatedTags = [] →
          (start functions).callAfter before layer s =
            ((.ok none, ((start functions).afterCalls before s).1),
              ((start functions).afterCalls before s).2)) ∧
        (layer.calculatedTags ≠ [] →
          ∃ first tags, Layer.firstUnder layer.id (before ++ [layer]) = some first ∧
            List.Forall₂ (CompiledFrom functions layer.id)
              (first.calculatedTags.filter (·.snippet.isSome)) tags ∧
            ((start functions).callAfter before layer s).1.1 =
              .ok (some ⟨layer.id, tags⟩)) := by
  refine ⟨fun before rest prefixed => (keeps_afterCalls serves prefixed).compilations,
    fun before layer rest prefixed => ⟨fun plain => ?_, fun defines => ?_⟩⟩
  · exact prepare_plain _ plain _
  · have keeps := keeps_afterCalls serves prefixed
    obtain ⟨first, tags, came, compiled, gives⟩ :=
      keeps.answer (serves before layer rest prefixed) defines
    exact ⟨first, tags, came, forall₂_of_tagsOf compiled, gives⟩

/-- Two drafts of a layer with an empty one behind them, and a layer with a placeholder. -/
def drafts : List Layer :=
  [⟨"shops", none, [⟨"_off", none, false⟩, ⟨"sum", some "1 + x", true⟩]⟩,
    ⟨"shops", none, [⟨"other", some "2", true⟩]⟩, ⟨"shops", none, []⟩,
    ⟨"cafes", none, [⟨"_off", none, true⟩]⟩]

/-- The drafts are compiled once, the placeholder counts as a definition, and the second
draft gives the one tag of the first. -/
theorem first_definitions_win_drafts :
    (start .standard).Serves drafts (.start 0) ∧
      ((start .standard).afterCalls drafts (.start 0)).1.compilations = 2 ∧
      ∃ t, ((start .standard).callAfter (drafts.take 1)
          ⟨"shops", none, [⟨"other", some "2", true⟩]⟩ (.start 0)).1.1 =
          .ok (some ⟨"shops", [t]⟩) ∧ t.key = "sum" ∧ t.source = "1 + x" := by
  have serves : (start .standard).Serves drafts (.start 0) := by
    refine .cons (by decide +kernel) (.cons (by decide +kernel) (.cons (by decide +kernel)
      (.cons (by decide +kernel) ?_)))
    intro before called others split
    simp at split
  have wins := first_definitions_win serves
  refine ⟨serves, (wins.1 drafts [] (by simp)).trans (by decide), ?_⟩
  obtain ⟨first, tags, came, compiled, gives⟩ :=
    (wins.2 (drafts.take 1) _ (drafts.drop 2) rfl).2 (by simp)
  obtain rfl := Option.some.inj came
  obtain _ | ⟨one, _ | _⟩ := compiled
  exact ⟨_, gives, one.key, (Option.some.inj one.snippet).symm⟩

end TagCompiler

end DerivedTags
