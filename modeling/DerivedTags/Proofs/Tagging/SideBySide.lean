import DerivedTags.Proofs.Tagging.OrderlyRuns
import DerivedTags.Proofs.Tagging.StandardSteps
import DerivedTags.Proofs.Tagging.TagSteps

/-!
# Runs side by side

Two runs go side by side, each with a session and a feature of its own, if whatever one
writes the other one writes too. A relation between them that survives the elementary
steps of a visit survives the whole visit, and both give the same result. The steps are
those of `Upkeep`, taken on both sides at once: a value is put, a key is removed, or a
computation is left under a number that is new on its side.
-/

namespace DerivedTags

open DerivedTags.Standard

/-- Two features of which enumerations and tests of presence show the same to the
standard derivations. -/
structure Feature.LooksLike (f g : Feature) : Prop where
  /-- They have the same id. -/
  id : g.id = f.id
  /-- They have the same geometry. -/
  geometry : g.geometry = f.geometry
  /-- They have the same values. -/
  values : ∀ key, g.properties.concrete? key = f.properties.concrete? key
  /-- They have the same keys. -/
  present : ∀ key, g.properties.contains key = f.properties.contains key

/-- A relation between two runs side by side that survives what a visit does. -/
structure Pairing where
  /-- Where the sessions stand. -/
  sessions : Session → Session → Prop
  /-- Where the features stand, each in its session. -/
  features : Session → Feature → Session → Feature → Prop
  /-- The computations that may be left. -/
  allows : (View → Reading Answer) → Prop
  /-- The features look alike. -/
  looksLike : ∀ {s t : Session} {f g : Feature}, features s f t g → f.LooksLike g
  /-- The same event may be let known. -/
  addEvent : ∀ {s t : Session} (e : Event), sessions s t → sessions (s.addEvent e) (t.addEvent e)
  /-- The same lines may be logged. -/
  addLines : ∀ {s t : Session} (lines : List LogLine),
    sessions s t → sessions (s.addLines lines) (t.addLines lines)
  /-- Both may read the clock. -/
  tick : ∀ {s t : Session}, sessions s t → sessions (tick s).2 (tick t).2
  /-- Both may take a number. -/
  newDeferred : ∀ {s t : Session}, sessions s t → sessions (newDeferred s).2 (newDeferred t).2
  /-- Orderly steps leave the features where they stand. -/
  onward : ∀ {s s' t t' : Session} {f g : Feature},
    s.Precedes s' → t.Precedes t' → features s f t g → features s' f t' g
  /-- The same value may be put. -/
  put : ∀ {s t : Session} {f g : Feature} (key : String) (v : Json),
    features s f t g → features s (f.set key (.concrete v)) t (g.set key (.concrete v))
  /-- The same key may be removed. -/
  remove : ∀ {s t : Session} {f g : Feature} (key : String),
    features s f t g → features s (f.erase key) t (g.erase key)
  /-- The same computation may be left under numbers that are new. -/
  leave : ∀ {s t : Session} {f g : Feature} {compute : View → Reading Answer} (key : String),
    allows compute → sessions s t → features s f t g →
      features (DerivedTags.newDeferred s).2 (f.set key (.deferred ⟨s.nextDeferred, compute⟩))
        (DerivedTags.newDeferred t).2 (g.set key (.deferred ⟨t.nextDeferred, compute⟩))
  /-- Computations from the geometry may be left. -/
  measures : ∀ measure, allows (fromGeometry measure)
  /-- The computations of tags may be left, with the standard methods. -/
  later : ∀ (t : CalculatedTag) (lookup : Option Lookup) (centre : Option Geo.Position)
    (box : Option Geo.Box), allows (t.later (FeatureMethods.spatial lookup centre box))

namespace Standard

/-- Storing values does not depend on anything but the values that are there. -/
theorem storing_congr {f g : Feature} {values : List (String × Json)}
    (same : ∀ key ∈ values.map Prod.fst,
      g.properties.concrete? key = f.properties.concrete? key) :
    storing g values = storing f values := by
  have edits : (values.flatMap fun entry => store g entry.1 entry.2) =
      values.flatMap fun entry => store f entry.1 entry.2 := by
    induction values with
    | nil => rfl
    | cons entry rest ih =>
      have first := same entry.1 List.mem_cons_self
      have others := ih fun key mem => same key (List.mem_cons_of_mem _ mem)
      rw [List.flatMap_cons, List.flatMap_cons, others]
      simp only [store, first]
  let proposing (edits : List Edit) : Reading Proposal := .done ⟨edits, .ok (.ok !edits.isEmpty)⟩
  exact congrArg proposing edits

/-- What a standard derivation proposes depends on the layer, the geometry and the values
under its keys, and on the moment only if it has to do with dates. -/
theorem propose_congr {d : Derivation} (std : d ∈ all) (layer : Layer)
    {surroundings surroundings' : Surroundings} {moment moment' : Moment} {f g : Feature}
    (dated : d.includesDates = true → moment' = moment) (geometry : g.geometry = f.geometry)
    (values : ∀ key ∈ d.keys, g.properties.concrete? key = f.properties.concrete? key) :
    d.propose layer surroundings' moment' g = d.propose layer surroundings moment f := by
  simp only [all, List.mem_cons, List.not_mem_nil, or_false] at std
  rcases std with rfl | rfl | rfl | rfl | rfl | rfl
  · cases found : f.geometry.bind Geo.Geometry.centre? with
    | none => simp only [centre, geometry, found]
    | some p =>
      by_cases finite : p.lat.isFinite && p.lon.isFinite
      · simp only [centre, geometry, found, finite, if_true]
        exact storing_congr values
      · simp only [centre, geometry, found, finite, Bool.false_eq_true, if_false]
  · exact storing_congr values
  · cases found : f.geometry with
    | none => simp only [geometryKind, geometry, found]
    | some shape =>
      simp only [geometryKind, geometry, found]
      exact storing_congr values
  · rfl
  · rfl
  · rw [dated rfl]
    exact storing_congr values

end Standard

/-- What a derivation leaves in the log that ends so. -/
def Proposal.complaints (p : Proposal) (keys : List String) : List LogLine :=
  match p.verdict with
  | .ok (.ok _) => []
  | .ok (.error e) => [.derivationFailed e]
  | .error panic => [.derivationFailed (.ofDerivation keys panic.message)]

/-- A derivation reads the clock and the feature, carries out what it proposes, and logs what
went wrong. -/
theorem Derivation.runContained_eq (d : Derivation) (layer : Layer) (surroundings : Surroundings)
    (f : Feature) (s : Session) :
    d.runContained layer surroundings f s =
      let proposing :=
        f.run (d.propose layer surroundings (surroundings.clock s.ticks) f) (tick s).2
      let edited := Edit.applyAll proposing.1.edits f proposing.2
      ((proposing.1.counts, edited.1), edited.2.addLines (proposing.1.complaints d.keys)) := by
  have ticked : (tick s).1 = s.ticks := rfl
  simp only [runContained, run, Session.bind_apply, ticked, Session.pure_apply, Proposal.counts,
    Proposal.complaints]
  rcases (f.run (d.propose layer surroundings (surroundings.clock s.ticks) f)
    (tick s).2).1.verdict with panic | e | changed
  · rfl
  · rfl
  · simp [Session.addLines]

/-- A derivation that asks for no property carries out what it proposes, and logs what
went wrong. -/
theorem Derivation.runContained_apply {d : Derivation} {layer : Layer}
    {surroundings : Surroundings} {f : Feature} {s : Session} {proposal : Proposal}
    (proposes : d.propose layer surroundings (surroundings.clock s.ticks) f = .done proposal) :
    d.runContained layer surroundings f s =
      ((proposal.counts, (Edit.applyAll proposal.edits f (tick s).2).1),
        (Edit.applyAll proposal.edits f (tick s).2).2.addLines (proposal.complaints d.keys)) := by
  rw [d.runContained_eq layer surroundings f s, proposes]
  rfl

namespace Pairing

variable (law : Pairing)

/-- Two runs side by side. -/
structure Paired (s : Session) (f : Feature) (t : Session) (g : Feature) : Prop where
  /-- The sessions. -/
  sessions : law.sessions s t
  /-- The features. -/
  features : law.features s f t g

/-- Two outcomes side by side: the result is the same. -/
structure Beside {α : Type} (x y : (α × Feature) × Session) : Prop where
  /-- The result. -/
  result : y.1.1 = x.1.1
  /-- What the outcomes leave. -/
  paired : law.Paired x.2 x.1.2 y.2 y.1.2

variable {law} {α β : Type} {s t : Session} {f g : Feature}

/-- The same mere result leaves two runs as they are. -/
theorem Paired.pure (paired : law.Paired s f t g) (a : α) :
    law.Beside ((a, f), s) ((a, g), t) := ⟨rfl, paired⟩

/-- Two runs that go on side by side stay so. -/
theorem Beside.bind {x y : StateM Session (α × Feature)}
    {k l : α × Feature → StateM Session (β × Feature)} (first : law.Beside (x s) (y t))
    (onward : ∀ {a s f t g}, law.Paired s f t g → law.Beside (k (a, f) s) (l (a, g) t)) :
    law.Beside ((x >>= k) s) ((y >>= l) t) := by
  simp only [Session.bind_apply]
  rcases ran : x s with ⟨⟨a, f⟩, s'⟩
  rcases ranThere : y t with ⟨⟨b, g⟩, t'⟩
  rw [ran, ranThere] at first
  obtain rfl : b = a := first.result
  exact onward first.paired

/-- What was put on both sides goes on in any later sessions. -/
theorem Paired.onward (paired : law.Paired s f t g) {s' t' : Session}
    (sessions : law.sessions s' t') (first : s.Precedes s') (second : t.Precedes t') :
    law.Paired s' f t' g := ⟨sessions, law.onward first second paired.features⟩

/-- The same edit is carried out side by side. -/
theorem edit {e : Edit} (allowed : ∀ key compute, e = .defer key compute → law.allows compute)
    (paired : law.Paired s f t g) :
    law.Paired (e.apply f s).2 (e.apply f s).1 (e.apply g t).2 (e.apply g t).1 := by
  cases e with
  | insert key value => exact ⟨paired.sessions, law.put key value paired.features⟩
  | defer key compute =>
    exact ⟨law.newDeferred paired.sessions,
      law.leave key (allowed key compute rfl) paired.sessions paired.features⟩
  | remove key => exact ⟨paired.sessions, law.remove key paired.features⟩

/-- The same edits are carried out side by side. -/
theorem edits {edits : List Edit}
    (allowed : ∀ e ∈ edits, ∀ key compute, e = .defer key compute → law.allows compute)
    (paired : law.Paired s f t g) :
    law.Paired (Edit.applyAll edits f s).2 (Edit.applyAll edits f s).1
      (Edit.applyAll edits g t).2 (Edit.applyAll edits g t).1 := by
  induction edits generalizing s f t g with
  | nil => exact paired
  | cons e rest ih =>
    exact ih (fun e mem => allowed e (List.mem_cons_of_mem _ mem))
      (law.edit (allowed e List.mem_cons_self) paired)

/-- A standard derivation runs side by side, if it reads the same moment on both sides. -/
theorem derivation {d : Derivation} (std : d ∈ all) (layer : Layer) (surroundings : Surroundings)
    (clock : surroundings.clock t.ticks = surroundings.clock s.ticks)
    (paired : law.Paired s f t g) :
    law.Beside (d.runContained layer surroundings f s) (d.runContained layer surroundings g t) := by
  have looks := law.looksLike paired.features
  obtain ⟨proposal, proposed, edits⟩ :=
    propose_done std layer surroundings (surroundings.clock s.ticks) f
  have proposedThere :
      d.propose layer surroundings (surroundings.clock t.ticks) g = .done proposal := by
    rw [← proposed]
    exact propose_congr std layer (fun _ => clock) looks.geometry fun key _ => looks.values key
  have allowed : ∀ e ∈ proposal.edits, ∀ key compute, e = .defer key compute →
      law.allows compute := by
    rintro e mem key compute rfl
    cases edits _ mem
    exact law.measures _
  have ticked := paired.onward (law.tick paired.sessions) (Orderly.tick s) (Orderly.tick t)
  obtain ⟨sessions, features⟩ := law.edits allowed ticked
  rw [Derivation.runContained_apply proposed, Derivation.runContained_apply proposedThere]
  exact ⟨rfl, law.addLines _ sessions, law.onward (.addLines _ _) (.addLines _ _) features⟩

variable (law) in
/-- Properties can be forced side by side. -/
structure Forces : Prop where
  /-- The same property gives the same. -/
  force : ∀ {s t : Session} {f g : Feature} (key : String), law.Paired s f t g →
    law.Beside (f.force key s) (g.force key t)
  /-- The same properties are deferred. -/
  deferredKeys : ∀ {s t : Session} {f g : Feature}, law.features s f t g →
    g.properties.deferredKeys = f.properties.deferredKeys

/-- Properties are forced side by side, up to a panic. -/
theorem forceKeys (forces : law.Forces) (keys : List String) (paired : law.Paired s f t g) :
    law.Beside (f.forceKeys keys s) (g.forceKeys keys t) := by
  induction keys generalizing s f t g with
  | nil => exact paired.pure _
  | cons key rest ih =>
    refine (forces.force key paired).bind fun {a} _ _ _ _ paired => ?_
    cases a with
    | ok v => exact ih paired
    | error panic => exact paired.pure _

variable (law) in
/-- The tag is computed side by side, with the standard methods. -/
def Computes (tag : CalculatedTag) : Prop :=
  ∀ {s t : Session} {f g : Feature} (lookup : Option Lookup) (centre : Option Geo.Position)
    (box : Option Geo.Box), law.Paired s f t g →
    let methods := FeatureMethods.spatial lookup centre box
    let here := f.run (tag.compute methods f.view) s
    let there := g.run (tag.compute methods g.view) t
    there.1 = here.1 ∧ law.sessions here.2 there.2

/-- A tag runs side by side if, should it be strict, it is computed so. -/
theorem tag {tag : CalculatedTag} (computes : tag.strict = true → law.Computes tag)
    (lookup : Option Lookup) (centre : Option Geo.Position) (box : Option Geo.Box)
    (paired : law.Paired s f t g) :
    let methods := FeatureMethods.spatial lookup centre box
    law.Paired (tag.run methods f s).2 (tag.run methods f s).1 (tag.run methods g t).2
      (tag.run methods g t).1 := by
  intro methods
  cases strict : tag.strict with
  | true =>
    obtain ⟨same, sessions⟩ := computes strict lookup centre box paired
    rw [tag.run_strict methods f s strict, tag.run_strict methods g t strict, same]
    have read := paired.onward sessions (Orderly.discipline.run f _ s)
      (Orderly.discipline.run g _ t)
    refine ⟨read.sessions, ?_⟩
    cases (f.run (tag.compute methods f.view) s).1 with
    | none => exact law.remove tag.key read.features
    | some v => exact law.put tag.key v read.features
  | false =>
    rw [tag.run_lazy methods f s strict, tag.run_lazy methods g t strict]
    exact ⟨law.newDeferred paired.sessions,
      law.leave tag.key (law.later tag lookup centre box) paired.sessions paired.features⟩

/-- Tags run side by side one after the other. -/
theorem tags {tags : List CalculatedTag}
    (computes : ∀ tag ∈ tags, tag.strict = true → law.Computes tag) (lookup : Option Lookup)
    (centre : Option Geo.Position) (box : Option Geo.Box) (paired : law.Paired s f t g) :
    let methods := FeatureMethods.spatial lookup centre box
    law.Paired (LayerTags.runAll methods tags f s).2 (LayerTags.runAll methods tags f s).1
      (LayerTags.runAll methods tags g t).2 (LayerTags.runAll methods tags g t).1 := by
  induction tags generalizing s f t g with
  | nil => exact paired
  | cons tag rest ih =>
    exact ih (fun tag mem => computes tag (List.mem_cons_of_mem _ mem))
      (law.tag (computes tag List.mem_cons_self) lookup centre box paired)

/-- The tags of a layer run side by side with the standard methods. -/
theorem layerTags {l : LayerTags}
    (computes : ∀ tag ∈ l.tags, tag.strict = true → law.Computes tag)
    {surroundings surroundings' : Surroundings}
    (lookup : surroundings'.lookup = surroundings.lookup)
    (paired : law.Paired s f t g) :
    law.Paired (l.run .standard surroundings f s).2 (l.run .standard surroundings f s).1
      (l.run .standard surroundings' g t).2 (l.run .standard surroundings' g t).1 := by
  have looks := law.looksLike paired.features
  have attaching (surroundings : Surroundings) (f : Feature) (s : Session) :
      l.run .standard surroundings f s =
        LayerTags.runAll (.spatial surroundings.lookup (f.geometry.bind Geo.Geometry.centre?)
          (f.geometry.bind Geo.Geometry.box?)) l.tags f (s.addCall (.attached f.id)) := rfl
  have attached := paired.onward (law.addEvent (.call (.attached f.id)) paired.sessions)
    (.addEvent s _) (.addEvent t _)
  rw [attaching, attaching, looks.id, looks.geometry, lookup]
  exact law.tags computes _ _ _ attached

variable {p : Pass}

/-- A derivation runs side by side in a pass if it does so for itself. -/
theorem derive_beside (forces : p.evaluateStrict = true → law.Forces) {d : Derivation}
    (before : List String) (paired : law.Paired s f t g)
    (ran : law.Beside (d.runContained p.layer p.surroundings f s)
      (d.runContained p.layer p.surroundings g t)) :
    law.Beside (p.derive before d f s) (p.derive before d g t) := by
  have looks := law.looksLike paired.features
  have complete : d.keys.all g.properties.contains = d.keys.all f.properties.contains := by
    rw [funext looks.present]
  unfold Pass.derive
  rw [complete]
  split
  · exact paired.pure _
  · split
    · split
      · exact paired.pure _
      · refine ran.bind fun paired => ?_
        dsimp only
        split
        · rename_i strict
          exact (law.forceKeys (forces strict) d.keys paired).bind fun paired => paired.pure _
        · exact paired.pure _
    · exact ran.bind fun paired => paired.pure _

/-- Derivations run side by side in a pass if they do so for themselves. -/
theorem deriveAll_beside (forces : p.evaluateStrict = true → law.Forces) {ds : List Derivation}
    (runs : ∀ d ∈ ds, ∀ {s f t g}, law.Paired s f t g →
      law.Beside (d.runContained p.layer p.surroundings f s)
        (d.runContained p.layer p.surroundings g t))
    (before : List String) (changed : Bool) (paired : law.Paired s f t g) :
    law.Beside (p.deriveAll before ds changed f s) (p.deriveAll before ds changed g t) := by
  induction ds generalizing changed s f t g with
  | nil => exact paired.pure _
  | cons d rest ih =>
    have first := law.derive_beside forces before paired (runs d List.mem_cons_self paired)
    refine first.bind fun {a} _ _ _ _ paired => ?_
    cases a with
    | ok more =>
      exact ih (fun d mem => runs d (List.mem_cons_of_mem _ mem)) (changed || more) paired
    | error panic => exact paired.pure _

/-- Standard derivations of a pass run side by side. -/
theorem deriveAll
    (clock : ∀ {s t}, law.sessions s t →
      p.surroundings.clock t.ticks = p.surroundings.clock s.ticks)
    (forces : p.evaluateStrict = true → law.Forces) {ds : List Derivation}
    (std : ∀ d ∈ ds, d ∈ all) (before : List String) (changed : Bool)
    (paired : law.Paired s f t g) :
    law.Beside (p.deriveAll before ds changed f s) (p.deriveAll before ds changed g t) :=
  law.deriveAll_beside forces (fun d mem _ _ _ _ paired =>
    law.derivation (std d mem) p.layer p.surroundings (clock paired.sessions) paired) before changed
    paired

end Pairing

namespace Pass

/-- Two passes with the standard methods that differ at most in their derivations and in
their clocks. -/
structure SameTags (p q : Pass) : Prop where
  /-- The first one has the standard methods. -/
  standard : p.methods = .standard
  /-- They have the same methods. -/
  methods : q.methods = p.methods
  /-- They have the same tags. -/
  tags : q.tags = p.tags
  /-- They find the same features. -/
  lookup : q.surroundings.lookup = p.surroundings.lookup
  /-- They tell the same store. -/
  store : q.store = p.store
  /-- The same may stay deferred. -/
  strict : q.evaluateStrict = p.evaluateStrict

/-- A pass with the standard methods has the same tags as itself. -/
theorem SameTags.refl {p : Pass} (standard : p.methods = .standard) : p.SameTags p :=
  ⟨standard, rfl, rfl, rfl, rfl, rfl⟩

end Pass

namespace Pairing

variable {law : Pairing} {p q : Pass} {s t : Session} {f g : Feature}

/-- The tags of two passes run side by side, forced or not, if they do so for themselves. -/
theorem runTags_beside (tags : q.tags = p.tags) (strict : q.evaluateStrict = p.evaluateStrict)
    (forces : p.evaluateStrict = true → law.Forces) (changed : Bool) (paired : law.Paired s f t g)
    (runs : ∀ l, p.tags = some l →
      law.Paired (l.run p.methods p.surroundings f s).2 (l.run p.methods p.surroundings f s).1
        (l.run q.methods q.surroundings g t).2 (l.run q.methods q.surroundings g t).1) :
    law.Beside (p.runTags changed f s) (q.runTags changed g t) := by
  simp only [Pass.runTags, tags, strict]
  cases tags : p.tags with
  | none => exact paired.pure _
  | some l =>
    have ran := runs l tags
    simp only [Session.bind_apply]
    split
    · rename_i strict
      rw [Feature.forceAll, Feature.forceAll, (forces strict).deferredKeys ran.features]
      exact (law.forceKeys (forces strict) _ ran).bind fun paired => paired.pure _
    · exact ran.pure _

/-- A store is told side by side. -/
theorem tell (store : Store) (id : String) (paired : law.Paired s f t g) :
    law.Paired (Pass.tell store id s).2 f (Pass.tell store id t).2 g := by
  have noted := paired.onward (law.addEvent (.call (.pinged id)) paired.sessions)
    (.addEvent s _) (.addEvent t _)
  have logged (line : LogLine) := noted.onward (law.addLines [line] noted.sessions)
    (.addLines _ _) (.addLines _ _)
  simp only [Pass.tell, Session.bind_apply]
  rcases store.ping id with panic | e | ⟨⟩
  · exact logged _
  · exact logged _
  · exact noted

/-- Two passes that tell the same store visit side by side if their derivations and then
their tags run so. -/
theorem visit_beside (stores : q.store = p.store)
    (derived : law.Beside (p.deriveAll f.properties.keys p.derivations false f s)
      (q.deriveAll g.properties.keys q.derivations false g t))
    (tagged : ∀ {changed f' s' g' t'},
      p.deriveAll f.properties.keys p.derivations false f s = ((.ok changed, f'), s') →
        law.Paired s' f' t' g' → law.Beside (p.runTags changed f' s') (q.runTags changed g' t')) :
    law.Beside (p.visit f s) (q.visit g t) := by
  rcases here : p.deriveAll f.properties.keys p.derivations false f s with ⟨⟨a, f'⟩, s'⟩
  rcases there : q.deriveAll g.properties.keys q.derivations false g t with ⟨⟨b, g'⟩, t'⟩
  rw [here, there] at derived
  obtain ⟨same, paired⟩ := derived
  obtain rfl : b = a := same
  simp only [Pass.visit, Session.bind_apply, here, there, stores]
  cases b with
  | error panic => exact paired.pure _
  | ok changed =>
    refine (tagged here paired).bind fun {a} _ f _ g paired => ?_
    have id : g.id = f.id := (law.looksLike paired.features).id
    rcases a with panic | _ | _
    · exact paired.pure _
    · exact paired.pure _
    · cases p.store with
      | none => exact paired.pure _
      | some store =>
        simp only [Session.bind_apply, id]
        exact (law.tell store f.id paired).pure _

/-- Two passes with the standard methods visit side by side if their derivations run so. -/
theorem visit (same : p.SameTags q) (forces : p.evaluateStrict = true → law.Forces)
    (computes : ∀ l, p.tags = some l → ∀ tag ∈ l.tags, tag.strict = true → law.Computes tag)
    (derived : law.Beside (p.deriveAll f.properties.keys p.derivations false f s)
      (q.deriveAll g.properties.keys q.derivations false g t)) :
    law.Beside (p.visit f s) (q.visit g t) := by
  refine law.visit_beside same.store derived fun _ paired => ?_
  refine law.runTags_beside same.tags same.strict forces _ paired fun l tags => ?_
  rw [same.methods, same.standard]
  exact law.layerTags (computes l tags) same.lookup paired

end Pairing

end DerivedTags
