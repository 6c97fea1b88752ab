import Mathlib.Data.Fintype.EquivFin
import Mathlib.Logic.Relation
import DerivedTags.Proofs.Feature.Calm
import DerivedTags.Proofs.Feature.Nesting
import DerivedTags.Proofs.Feature.Outside
import DerivedTags.Proofs.Tagging.ForcedReads

/-!
# Forcing everything

Deferred properties are forced one by one in the order of the keys, while those that come
later still read those that came before. If no property reads itself through others, each
key reads the same all along: a property that is replaced reads as what a read of it gave,
and what a computation is answered does not depend on which of its answers were computed
anew. The induction goes along the reads of a property; the ones that are reached that way
are never under computation already.
-/

namespace DerivedTags

namespace Reading

variable {α : Type}

/-- With these answers to its questions, the computation asks for a key. -/
def Asks (answers : String → Answer) (key : String) : Reading α → Prop
  | .done _ => False
  | .ask other next => other = key ∨ (next (answers other)).Asks answers key
  | .tell _ next => next.Asks answers key

/-- A computation has a fixed result in sessions with the same properties under
computation, if whatever it asks for has a fixed answer there. -/
theorem run_fst_of_asked {r : Reading α} {answer : String → StateM Session Answer}
    {answers : String → Answer} {running : List Nat} (orderly : ∀ key, Orderly (answer key))
    (fixed : ∀ key, r.Asks answers key → ∀ s : Session, s.evaluating = running →
      (answer key s).1 = answers key)
    {s : Session} (here : s.evaluating = running) : (r.run answer s).1 = r.value answers := by
  induction r generalizing s with
  | done a => rfl
  | ask key next ih =>
    have answered := fixed key (.inl rfl) s here
    simp only [run, value, Session.bind_apply, answered]
    exact ih _ (fun other asks => fixed other (.inr asks)) ((orderly key s).evaluating.trans here)
  | tell e next ih => exact ih fixed ((Orderly.addEvent e s).evaluating.trans here)

end Reading

namespace Feature

variable {f g : Feature} {s t : Session} {key other : String}

/-- Computed in a session, the property under a key asks for another key. -/
def Consults (f : Feature) (s : Session) (key other : String) : Prop :=
  ∃ d, f.properties.slot? key = some (.deferred d) ∧
    (d.compute f.view).Asks (fun asked => (f.get asked s).1) other

/-- A feature whose deferred properties can be computed in some order, one after the
other. -/
structure ReadsInOrder (f : Feature) (s : Session) : Prop where
  /-- Of the feature they heed the id and the geometry, and what they ask for by key. -/
  byKey : ∀ key d, f.properties.slot? key = some (.deferred d) →
    ∀ v w : View, w.id = v.id → w.geometry = v.geometry → d.compute w = d.compute v
  /-- Those that share a number share everything. -/
  shared : ∀ key other d e, f.properties.slot? key = some (.deferred d) →
    f.properties.slot? other = some (.deferred e) → d.id = e.id → d = e
  /-- None of them is under computation. -/
  idle : ∀ key d, f.properties.slot? key = some (.deferred d) → d.id ∉ s.evaluating
  /-- They do not panic. -/
  calm : ∀ key, ∃ v, (f.get key s).1 = .ok v
  /-- No one reads itself, directly or through others. -/
  acyclic : ∀ key, ¬Relation.TransGen (f.Consults s) key key

/-- Something else than a deferred property reads nothing. -/
theorem deferred_of_consults (reads : f.Consults s key other) :
    key ∈ f.properties.deferredKeys := by
  obtain ⟨d, slot, -⟩ := reads
  exact Properties.mem_deferredKeys slot

/-- No property reads itself where each has a rank above what it reads. -/
theorem acyclic_of_rank (rank : String → Nat)
    (falls : ∀ key other, f.Consults s key other → rank other < rank key) (key : String) :
    ¬Relation.TransGen (f.Consults s) key key := by
  have falling {key other : String} (path : Relation.TransGen (f.Consults s) key other) :
      rank other < rank key := by
    induction path with
    | single reads => exact falls _ _ reads
    | tail _ reads ih => exact (falls _ _ reads).trans ih
  exact fun path => Nat.lt_irrefl _ (falling path)

/-- Following the reads of a property comes to an end. -/
theorem ReadsInOrder.wellFounded (order : f.ReadsInOrder s) :
    WellFounded fun other key => f.Consults s key other := by
  let among (a b : { key // key ∈ f.properties.deferredKeys }) : Prop :=
    Relation.TransGen (f.Consults s) b a
  have transitive : IsTrans _ among := ⟨fun _ _ _ first second => second.trans first⟩
  have irreflexive : Std.Irrefl among := ⟨fun key => order.acyclic key⟩
  have ends : WellFounded among := Finite.wellFounded_of_trans_of_irrefl among
  have deferred (key : { key // key ∈ f.properties.deferredKeys }) :
      Acc (fun other key => f.Consults s key other) key.1 := by
    induction key using ends.induction with
    | _ key ih =>
      refine .intro _ fun other reads => ?_
      by_cases mem : other ∈ f.properties.deferredKeys
      · exact ih ⟨other, mem⟩ (.single reads)
      · exact .intro _ fun _ onward => absurd (deferred_of_consults onward) mem
  refine ⟨fun key => .intro _ fun other reads => ?_⟩
  by_cases mem : other ∈ f.properties.deferredKeys
  · exact deferred ⟨other, mem⟩
  · exact .intro _ fun _ onward => absurd (deferred_of_consults onward) mem

/-- Nothing that the property under a key reads, directly or through others, is under
computation, nor is the property itself. -/
def Clear (f : Feature) (s : Session) (key : String) (t : Session) : Prop :=
  ∀ other d, Relation.ReflTransGen (f.Consults s) key other →
    f.properties.slot? other = some (.deferred d) → d.id ∉ t.evaluating

/-- Where a property is computed in clear, so is what it reads. -/
theorem Clear.enter (order : f.ReadsInOrder s) {d : Deferred}
    (slot : f.properties.slot? key = some (.deferred d)) (reads : f.Consults s key other)
    (clear : f.Clear s key t) {t' : Session} (entered : t'.evaluating = (t.enter d.id).evaluating) :
    f.Clear s other t' := by
  intro last e path slotLast
  rw [entered]
  refine List.not_mem_cons_of_ne_of_not_mem (fun same => ?_)
    (clear last e (.head reads path) slotLast)
  obtain rfl := order.shared last key e d slotLast slot same
  obtain ⟨d', slot', asks⟩ := reads
  obtain rfl := Slot.deferred.inj (Option.some.inj (slot.symm.trans slot'))
  exact order.acyclic other (Relation.TransGen.tail' path ⟨e, slotLast, asks⟩)

/-- Some deferred properties of a feature were replaced by what a read of them gives. -/
structure PartlyForced (f : Feature) (s : Session) (g : Feature) : Prop where
  /-- The id is the same. -/
  id : g.id = f.id
  /-- The geometry is the same. -/
  geometry : g.geometry = f.geometry
  /-- Each property is the same or was replaced. -/
  slots : ∀ key, g.properties.slot? key = f.properties.slot? key ∨
    ∃ v, (f.get key s).1 = .ok v ∧ g.properties.slot? key = v.map Slot.concrete
  /-- The keys that are left are in the same order. -/
  order : g.properties.keys.Sublist f.properties.keys

/-- Nothing was replaced so far. -/
theorem PartlyForced.refl (f : Feature) (s : Session) : f.PartlyForced s f :=
  ⟨rfl, rfl, fun _ => .inl rfl, .refl _⟩

/-- A value in the place of a property reads as this value. -/
theorem get_fst_of_slot {v : Option Json} (slot : g.properties.slot? key = v.map Slot.concrete)
    (t : Session) : (g.get key t).1 = .ok v := by
  have plain : g.Plain key := by
    intro d
    rw [slot]
    cases v <;> simp
  rw [get_fst_of_plain plain, Properties.concrete?, slot]
  cases v <;> rfl

/-- Whatever was replaced, each key reads as it did at first. -/
theorem PartlyForced.get_fst (order : f.ReadsInOrder s) (forced : f.PartlyForced s g)
    (clear : f.Clear s key t) : (g.get key t).1 = (f.get key s).1 := by
  induction key using order.wellFounded.induction generalizing g t with
  | _ key ih =>
    rcases forced.slots key with same | ⟨v, given, slot⟩
    · rcases slot : f.properties.slot? key with _ | ⟨v | d⟩
      · rw [get_fst_of_slot (v := none) (same.trans slot), get_fst_of_slot (v := none) slot]
      · rw [get_fst_of_slot (v := some v) (same.trans slot),
          get_fst_of_slot (v := some v) slot]
      · have computed {h : Feature} (forced : f.PartlyForced s h) {t : Session}
            (clear : f.Clear s key t) (same : h.properties.slot? key = f.properties.slot? key) :
            (h.get key t).1 = (d.compute f.view).value fun asked => (f.get asked s).1 := by
          have view : d.compute h.view = d.compute f.view :=
            order.byKey key d slot _ _ forced.id forced.geometry
          rw [get_deferred (same.trans slot), Deferred.evaluate_apply,
            if_neg (clear key d .refl slot), view]
          refine Reading.run_fst_of_asked (Orderly.discipline.get h)
            (fun other asks t' entered => ?_) (rfl : (t.enter d.id).evaluating = _)
          have reads : f.Consults s key other := ⟨d, slot, asks⟩
          exact ih other reads forced (clear.enter order slot reads entered)
        have clearHere : f.Clear s key s := fun other d _ slot => order.idle other d slot
        rw [computed forced clear same, computed (.refl f s) clearHere rfl]
    · rw [get_fst_of_slot slot, given]

/-- What an answer leaves: its value in the place of the property, and all else as it was. -/
theorem slot?_kept (f : Feature) (key : String) (v : Option Json) (other : String) :
    (f.kept key (.ok v)).properties.slot? other =
      if other = key then v.map Slot.concrete else f.properties.slot? other := by
  cases v with
  | none => exact f.properties.slot?_erase key other
  | some v => exact f.properties.slot?_set key other (.concrete v)

/-- An answer in the place of a property leaves the keys in order. -/
theorem keys_kept_sublist {d : Deferred} (slot : f.properties.slot? key = some (.deferred d))
    (v : Option Json) : (f.kept key (.ok v)).properties.keys.Sublist f.properties.keys := by
  cases v with
  | none => exact f.properties.keys_erase key ▸ List.filter_sublist
  | some v =>
    have present : key ∈ f.properties.keys :=
      (f.properties.contains_iff_mem_keys key).mp (by simp [Properties.contains, slot])
    have same : (f.kept key (.ok (some v))).properties.keys = f.properties.keys :=
      (f.properties.keys_set key (.concrete v)).trans (if_pos present)
    exact same ▸ .refl _

/-- One more deferred property may be replaced by what a read of it gave at first. -/
theorem PartlyForced.kept (forced : f.PartlyForced s g) {d : Deferred}
    (slot : g.properties.slot? key = some (.deferred d)) {v : Option Json}
    (given : (f.get key s).1 = .ok v) : f.PartlyForced s (g.kept key (.ok v)) where
  id := by cases v <;> exact forced.id
  geometry := by cases v <;> exact forced.geometry
  slots other := by
    rw [slot?_kept]
    split
    · rename_i own
      exact .inr ⟨v, own ▸ given, rfl⟩
    · exact forced.slots other
  order := (keys_kept_sublist slot v).trans forced.order

/-- Forcing one more key gives what a read of it gave at first. -/
theorem PartlyForced.force (order : f.ReadsInOrder s) (forced : f.PartlyForced s g)
    (same : t.evaluating = s.evaluating) (key : String) :
    (g.force key t).1.1 = (f.get key s).1 ∧ f.PartlyForced s (g.force key t).1.2 ∧
      (g.force key t).2.evaluating = s.evaluating := by
  have clear : f.Clear s key t := fun other d _ slot => same ▸ order.idle other d slot
  have answered : (g.get key t).1 = (f.get key s).1 := forced.get_fst order clear
  refine ⟨(g.force_answer key t).trans answered, ?_,
    (Orderly.discipline.force g key t).evaluating.trans same⟩
  rcases slot : g.properties.slot? key with _ | ⟨v | d⟩
  · simpa [Feature.force, slot] using forced
  · simpa [Feature.force, slot] using forced
  · obtain ⟨v, given⟩ := order.calm key
    rw [force_apply slot, answered, given]
    exact forced.kept slot given

/-- Keys are forced one after the other without a panic. -/
theorem PartlyForced.forceKeys (order : f.ReadsInOrder s) (keys : List String)
    (forced : f.PartlyForced s g) (same : t.evaluating = s.evaluating) :
    ∃ h after, g.forceKeys keys t = ((.ok (), h), after) ∧ f.PartlyForced s h ∧
      after.evaluating = s.evaluating := by
  induction keys generalizing g t with
  | nil => exact ⟨g, t, rfl, forced, same⟩
  | cons key rest ih =>
    obtain ⟨answered, next, running⟩ := forced.force order same key
    obtain ⟨v, given⟩ := order.calm key
    obtain ⟨h, after, onward, final⟩ := ih next running
    refine ⟨h, after, ?_, final⟩
    simp only [Feature.forceKeys, Session.bind_apply, answered, given]
    exact onward

/-- Forcing all that is deferred agrees with single reads, if the deferred properties read
others by key only and none of them reads itself: it does not panic, leaves nothing
deferred, and each key holds what a read of it gave before, a value or nothing. Values stay
as they are, and the keys that are left keep their order. On the way, whichever keys were
forced so far, every key still reads the same, and forcing it gives what the read gave. -/
theorem forceAll_reads (order : f.ReadsInOrder s) :
    (∃ g after, f.forceAll s = ((.ok (), g), after) ∧ g.Computed ∧
        (∀ key v, (f.get key s).1 = .ok (some v) →
          g.properties.slot? key = some (.concrete v)) ∧
        (∀ key, (f.get key s).1 = .ok none → g.properties.slot? key = none) ∧
        (∀ key v, f.properties.slot? key = some (.concrete v) →
          g.properties.slot? key = some (.concrete v)) ∧
        g.properties.keys.Sublist f.properties.keys ∧ g.id = f.id ∧ g.geometry = f.geometry) ∧
      ∀ forced, ∃ g mid, f.forceKeys forced s = ((.ok (), g), mid) ∧
        ∀ key, (g.get key mid).1 = (f.get key s).1 ∧
          (g.force key (g.get key mid).2).1.1 = (g.get key mid).1 := by
  constructor
  · obtain ⟨g, after, all, forced, -⟩ :=
      (PartlyForced.refl f s).forceKeys order f.properties.deferredKeys rfl
    have computed : g.Computed := computed_of_forceAll (congrArg Prod.fst all)
    have holds (key : String) {v : Option Json} (given : (f.get key s).1 = .ok v) :
        g.properties.slot? key = v.map Slot.concrete := by
      rcases forced.slots key with same | ⟨w, read, slot⟩
      · rcases slot : f.properties.slot? key with _ | ⟨w | d⟩
        · cases given.symm.trans (get_fst_of_slot (v := none) slot s)
          exact same.trans slot
        · cases given.symm.trans (get_fst_of_slot (v := some w) slot s)
          exact same.trans slot
        · exact absurd (same.trans slot) (computed key d)
      · cases given.symm.trans read
        exact slot
    refine ⟨g, after, all, computed, fun key v given => holds key given,
      fun key given => holds key given, fun key v slot => ?_, forced.order, forced.id,
      forced.geometry⟩
    exact holds key (get_fst_of_slot (v := some v) slot s)
  · intro keys
    obtain ⟨g, mid, all, forced, same⟩ := (PartlyForced.refl f s).forceKeys order keys rfl
    have clear (key : String) {t : Session} (same : t.evaluating = s.evaluating) :
        f.Clear s key t := fun other d _ slot => same ▸ order.idle other d slot
    refine ⟨g, mid, all, fun key => ⟨forced.get_fst order (clear key same), ?_⟩⟩
    have later := (Orderly.discipline.get g key mid).evaluating.trans same
    rw [(forced.force order later key).1, forced.get_fst order (clear key same)]

/-- A feature with a property that reads two later ones, of which one gives nothing. -/
def shelf : Feature where
  id := "a"
  geometry := none
  properties :=
    { entries :=
        [("_total", .deferred ⟨0, fun _ => .ask "_missing" fun _ => .ask "_count" .done⟩),
          ("_missing", .deferred ⟨1, fun _ => .ask "_nothing" .done⟩),
          ("name", .concrete (.str "x")),
          ("_count", .deferred ⟨2, fun view => .done (.ok (some (.str view.id)))⟩)] }

/-- A property that reads later ones is forced before them, and one that gives nothing
goes. -/
theorem forceAll_reads_shelf :
    shelf.ReadsInOrder (.start 0) ∧
      ∃ g after, shelf.forceAll (.start 0) = ((.ok (), g), after) ∧ g.Computed ∧
        g.properties.slot? "_total" = some (.concrete (.str "a")) ∧
        g.properties.slot? "_missing" = none ∧
        g.properties.keys.Sublist ["_total", "_missing", "name", "_count"] := by
  have slots {key : String} {d : Deferred}
      (slot : shelf.properties.slot? key = some (.deferred d)) :
      key = "_total" ∧ d = ⟨0, fun _ => .ask "_missing" fun _ => .ask "_count" .done⟩ ∨
        key = "_missing" ∧ d = ⟨1, fun _ => .ask "_nothing" .done⟩ ∨
        key = "_count" ∧ d = ⟨2, fun view => .done (.ok (some (.str view.id)))⟩ := by
    obtain ⟨before, after, entries, -⟩ := List.lookup_eq_some_iff.mp slot
    have mem : (key, Slot.deferred d) ∈ shelf.properties.entries := by simp [entries]
    simpa [shelf] using mem
  have calm : shelf.Calm := by
    intro key d slot view
    rcases slots slot with ⟨-, rfl⟩ | ⟨-, rfl⟩ | ⟨-, rfl⟩
    · exact fun _ v => ⟨v, rfl⟩
    · exact fun v => ⟨v, rfl⟩
    · exact ⟨_, rfl⟩
  let rank (key : String) : Nat := if key = "_total" then 2 else if key = "_missing" then 1 else 0
  have falls (key other : String) (reads : shelf.Consults (.start 0) key other) :
      rank other < rank key := by
    obtain ⟨d, slot, asks⟩ := reads
    rcases slots slot with ⟨rfl, rfl⟩ | ⟨rfl, rfl⟩ | ⟨rfl, rfl⟩
    · rcases asks with rfl | rfl | ⟨⟨⟩⟩ <;> decide
    · rcases asks with rfl | ⟨⟨⟩⟩
      decide
    · cases asks
  have order : shelf.ReadsInOrder (.start 0) := by
    refine ⟨fun key d slot v w id _ => ?_, fun key other d e here there same => ?_,
      fun key d _ => List.not_mem_nil, fun key => calm.getWithin _ key _,
      acyclic_of_rank rank falls⟩
    · rcases slots slot with ⟨-, rfl⟩ | ⟨-, rfl⟩ | ⟨-, rfl⟩
      · rfl
      · rfl
      · exact congrArg (fun id => Reading.done (Except.ok (some (Json.str id)) : Answer)) id
    · rcases slots here with ⟨-, rfl⟩ | ⟨-, rfl⟩ | ⟨-, rfl⟩ <;>
        rcases slots there with ⟨-, rfl⟩ | ⟨-, rfl⟩ | ⟨-, rfl⟩ <;> cases same <;> rfl
  obtain ⟨⟨g, after, all, computed, values, nothing, -, keys, -⟩, -⟩ := forceAll_reads order
  exact ⟨order, g, after, all, computed, values "_total" _ rfl, nothing "_missing" rfl, keys⟩

end Feature

end DerivedTags
