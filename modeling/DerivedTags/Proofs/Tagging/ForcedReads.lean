import DerivedTags.Proofs.Journal.Running
import DerivedTags.Tagging.Pass

/-!
# The reads that a pass forces

Where nothing may stay deferred, a pass reads properties right after they
were installed. These reads are listed here with the feature and the session
they meet. A pass breaks off exactly at the first of them that panics; what
derivations, methods, snippets and the store do wrong is contained.
-/

namespace DerivedTags

open DerivedTags.Snippet (Panic)

/-- A property that is forced. -/
structure ForcedRead where
  /-- The feature at that moment. -/
  feature : Feature
  /-- The key that is forced. -/
  key : String
  /-- The session at that moment. -/
  session : Session

/-- What reading the property gives at that moment. -/
def ForcedRead.answer (r : ForcedRead) : Answer := (r.feature.get r.key r.session).1

/-- Some of the reads ends in the given panic. -/
def Panicking (reads : List ForcedRead) (panic : Panic) : Prop :=
  ∃ read ∈ reads, read.answer = .error panic

/-- Without reads nothing panics. -/
@[simp] theorem not_panicking_nil (panic : Panic) : ¬Panicking [] panic := by
  simp [Panicking]

/-- The first read panics, or one of the others does. -/
@[simp] theorem panicking_cons (read : ForcedRead) (rest : List ForcedRead) (panic : Panic) :
    Panicking (read :: rest) panic ↔ read.answer = .error panic ∨ Panicking rest panic := by
  simp [Panicking]

/-- Of two lists of reads one panics. -/
@[simp] theorem panicking_append (first second : List ForcedRead) (panic : Panic) :
    Panicking (first ++ second) panic ↔ Panicking first panic ∨ Panicking second panic := by
  simp only [Panicking, List.mem_append, or_and_right, exists_or]

namespace Feature

/-- The reads that forcing keys makes, up to the first panic. -/
def forcedReads (f : Feature) : List String → Session → List ForcedRead
  | [], _ => []
  | key :: rest, s =>
    ⟨f, key, s⟩ ::
      match f.force key s with
      | ((.ok _, g), after) => g.forcedReads rest after
      | ((.error _, _), _) => []

/-- Forcing answers what reading answers. -/
theorem force_answer (f : Feature) (key : String) (s : Session) :
    (f.force key s).1.1 = (f.get key s).1 := by
  cases hs : f.properties.slot? key with
  | none =>
    simp only [force, hs, get]
    cases f.properties.deferredKeys.length with
    | zero => simp [getWithin, Properties.concrete?, hs]
    | succ depth => simp [getWithin, hs]
  | some slot =>
    cases slot with
    | concrete v =>
      simp only [force, hs, get]
      cases f.properties.deferredKeys.length with
      | zero => simp [getWithin, Properties.concrete?, hs, Slot.value?]
      | succ depth => simp [getWithin, hs]
    | deferred d =>
      simp only [force, hs, Session.bind_apply]
      rcases f.get key s with ⟨answer, after⟩
      rcases answer with panic | value
      · rfl
      · cases value <;> rfl

/-- Forcing keys breaks off exactly at a read that panics. -/
theorem forceKeys_eq_error_iff (f : Feature) (keys : List String) (s : Session) (panic : Panic) :
    (f.forceKeys keys s).1.1 = .error panic ↔ Panicking (f.forcedReads keys s) panic := by
  induction keys generalizing f s with
  | nil => simp [forceKeys, forcedReads]
  | cons key rest ih =>
    have answer := f.force_answer key s
    rcases hf : f.force key s with ⟨⟨a, g⟩, after⟩
    rw [hf] at answer
    simp only [forceKeys, forcedReads, Session.bind_apply, hf]
    cases a with
    | ok v => simp [ih, ForcedRead.answer, ← answer]
    | error p => simp [ForcedRead.answer, ← answer]

end Feature

namespace Pass

/-- The reads that running one derivation forces. -/
def forcedByDerivation (p : Pass) (before : List String) (d : Derivation) (f : Feature)
    (s : Session) : List ForcedRead :=
  if d.keys.all f.properties.contains then []
  else if d.isLazy && !d.keys.all before.contains && p.evaluateStrict then
    match d.runContained p.layer p.surroundings f s with
    | ((_, g), after) => g.forcedReads d.keys after
  else []

/-- The reads that running derivations forces, up to the first panic. -/
def forcedByDerivations (p : Pass) (before : List String) :
    List Derivation → Feature → Session → List ForcedRead
  | [], _, _ => []
  | d :: rest, f, s =>
    p.forcedByDerivation before d f s ++
      match p.derive before d f s with
      | ((.ok _, g), after) => p.forcedByDerivations before rest g after
      | ((.error _, _), _) => []

/-- The reads that running the calculated tags forces. -/
def forcedByTags (p : Pass) (f : Feature) (s : Session) : List ForcedRead :=
  match p.tags with
  | none => []
  | some tags =>
    if p.evaluateStrict then
      match tags.run p.methods p.surroundings f s with
      | (g, after) => g.forcedReads g.properties.deferredKeys after
    else []

/-- The reads that the visit of a feature forces. -/
def forcedByVisit (p : Pass) (f : Feature) (s : Session) : List ForcedRead :=
  p.forcedByDerivations f.properties.keys p.derivations f s ++
    match p.deriveAll f.properties.keys p.derivations false f s with
    | ((.ok _, g), after) => p.forcedByTags g after
    | ((.error _, _), _) => []

/-- The reads that a pass forces, up to the first panic. -/
def forcedReads (p : Pass) : List Feature → Session → List ForcedRead
  | [], _ => []
  | f :: rest, s =>
    p.forcedByVisit f s ++
      match p.visit f s with
      | ((.ok _, _), after) => p.forcedReads rest after
      | ((.error _, _), _) => []

/-- A derivation breaks a pass off exactly at a forced read that panics. Its own
errors and panics are contained. -/
theorem derive_eq_error_iff (p : Pass) (before : List String) (d : Derivation) (f : Feature)
    (s : Session) (panic : Panic) :
    (p.derive before d f s).1.1 = .error panic ↔
      Panicking (p.forcedByDerivation before d f s) panic := by
  unfold derive forcedByDerivation
  by_cases present : d.keys.all f.properties.contains
  · simp [present]
  rcases hr : d.runContained p.layer p.surroundings f s with ⟨⟨changed, g⟩, after⟩
  by_cases isLazy : d.isLazy
  · by_cases known : d.keys.all before.contains
    · simp [present, isLazy, known]
    · by_cases strict : p.evaluateStrict
      · rcases hk : g.forceKeys d.keys after with ⟨⟨forced, h⟩, last⟩
        have iff := g.forceKeys_eq_error_iff d.keys after panic
        rw [hk] at iff
        cases forced <;> simpa [present, isLazy, known, strict, hr, hk, Except.map] using iff
      · simp [present, isLazy, known, strict, hr]
  · simp [present, isLazy, hr]

/-- Derivations break a pass off exactly at a forced read that panics. -/
theorem deriveAll_eq_error_iff (p : Pass) (before : List String) (ds : List Derivation)
    (changed : Bool) (f : Feature) (s : Session) (panic : Panic) :
    (p.deriveAll before ds changed f s).1.1 = .error panic ↔
      Panicking (p.forcedByDerivations before ds f s) panic := by
  induction ds generalizing changed f s with
  | nil => simp [deriveAll, forcedByDerivations]
  | cons d rest ih =>
    have iff := p.derive_eq_error_iff before d f s panic
    rcases hd : p.derive before d f s with ⟨⟨result, g⟩, after⟩
    rw [hd] at iff
    simp only [deriveAll, forcedByDerivations, Session.bind_apply, hd, panicking_append, ← iff]
    cases result with
    | ok more => simp [ih]
    | error q => simp

/-- Calculated tags break a pass off exactly at a forced read that panics. -/
theorem runTags_eq_error_iff (p : Pass) (changed : Bool) (f : Feature) (s : Session)
    (panic : Panic) :
    (p.runTags changed f s).1.1 = .error panic ↔ Panicking (p.forcedByTags f s) panic := by
  unfold runTags forcedByTags
  cases p.tags with
  | none => simp
  | some tags =>
    rcases hr : tags.run p.methods p.surroundings f s with ⟨g, after⟩
    by_cases strict : p.evaluateStrict
    · rcases hk : g.forceAll after with ⟨⟨forced, h⟩, last⟩
      have iff := g.forceKeys_eq_error_iff g.properties.deferredKeys after panic
      rw [← Feature.forceAll, hk] at iff
      cases forced <;> simpa [strict, hr, hk, Except.map] using iff
    · simp [strict, hr]

/-- Nothing is forced unless nothing may stay deferred. -/
theorem forcedByVisit_eq_nil {p : Pass} (lenient : p.evaluateStrict = false) (f : Feature)
    (s : Session) : p.forcedByVisit f s = [] := by
  have derived (ds : List Derivation) (g : Feature) (after : Session) :
      p.forcedByDerivations f.properties.keys ds g after = [] := by
    induction ds generalizing g after with
    | nil => rfl
    | cons d rest ih =>
      simp only [forcedByDerivations, forcedByDerivation, lenient, Bool.and_false,
        Bool.false_eq_true, if_false, ite_self, List.nil_append]
      split
      · exact ih _ _
      · rfl
  have tagged (g : Feature) (after : Session) : p.forcedByTags g after = [] := by
    unfold forcedByTags
    split
    · rfl
    · simp [lenient]
  unfold forcedByVisit
  rw [derived]
  split
  · exact tagged _ _
  · rfl

/-- A pass forces nothing unless nothing may stay deferred. -/
theorem forcedReads_eq_nil {p : Pass} (lenient : p.evaluateStrict = false)
    (features : List Feature) (s : Session) : p.forcedReads features s = [] := by
  induction features generalizing s with
  | nil => rfl
  | cons f rest ih =>
    simp only [forcedReads, forcedByVisit_eq_nil lenient, List.nil_append]
    split
    · exact ih _
    · rfl

/-- The visit of a feature breaks off exactly at a forced read that panics. What
the store does wrong is contained. -/
theorem visit_eq_error_iff (p : Pass) (f : Feature) (s : Session) (panic : Panic) :
    (p.visit f s).1.1 = .error panic ↔ Panicking (p.forcedByVisit f s) panic := by
  have derived := p.deriveAll_eq_error_iff f.properties.keys p.derivations false f s panic
  rcases hd : p.deriveAll f.properties.keys p.derivations false f s with ⟨⟨result, g⟩, after⟩
  rw [hd] at derived
  simp only [visit, forcedByVisit, Session.bind_apply, hd, panicking_append, ← derived]
  cases result with
  | error q => simp
  | ok changed =>
    have tagged := p.runTags_eq_error_iff changed g after panic
    rcases ht : p.runTags changed g after with ⟨⟨outcome, h⟩, last⟩
    rw [ht] at tagged
    simp only [Session.bind_apply, ht, reduceCtorEq, false_or, ← tagged]
    rcases outcome with q | _ | _
    · rfl
    · rfl
    · cases p.store <;> simp

/-- A pass breaks off exactly at a forced read that panics. -/
theorem visitAll_eq_error_iff (p : Pass) (features : List Feature) (s : Session)
    (panic : Panic) :
    (p.visitAll features s).1.1 = .error panic ↔ Panicking (p.forcedReads features s) panic := by
  induction features generalizing s with
  | nil => simp [visitAll, forcedReads]
  | cons f rest ih =>
    have iff := p.visit_eq_error_iff f s panic
    rcases hv : p.visit f s with ⟨⟨result, g⟩, after⟩
    rw [hv] at iff
    simp only [visitAll, forcedReads, Session.bind_apply, hv, panicking_append, ← iff]
    cases result with
    | error q => simp
    | ok changed =>
      have others := ih after
      rcases ho : p.visitAll rest after with ⟨⟨outcome, visited⟩, last⟩
      rw [ho] at others
      cases outcome <;> simpa [ho, Except.map] using others

end Pass

end DerivedTags
