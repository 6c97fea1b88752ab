import DerivedTags.Feature.Access
import DerivedTags.Proofs.Journal.Running

/-!
# What a computation asks for

A computation that asks only for certain properties depends on the answers to these
and on nothing else. Where none of them is deferred the answers do not depend on the
session either, so that the result is a function of the stored values.
-/

namespace DerivedTags

namespace Reading

variable {α β : Type}

/-- Whatever it is answered, the computation asks only for properties under some
keys. -/
def AsksOnly (keys : String → Prop) : Reading α → Prop
  | .done _ => True
  | .ask key next => keys key ∧ ∀ answer, (next answer).AsksOnly keys
  | .tell _ next => next.AsksOnly keys

/-- A sequence asks only for what its parts ask for. -/
theorem AsksOnly.bind {keys : String → Prop} {r : Reading α} {next : α → Reading β}
    (first : r.AsksOnly keys) (onward : ∀ a, (next a).AsksOnly keys) :
    (r.bind next).AsksOnly keys := by
  induction r with
  | done a => exact onward a
  | ask key inner ih => exact ⟨first.1, fun answer => ih answer (first.2 answer)⟩
  | tell e rest ih => exact ih first

/-- The result of a computation whose questions have fixed answers. -/
def value (answers : String → Answer) : Reading α → α
  | .done a => a
  | .ask key next => (next (answers key)).value answers
  | .tell _ next => next.value answers

/-- Where all that it asks for has fixed answers, a computation has a fixed result. -/
theorem run_fst_eq_value {keys : String → Prop} {r : Reading α} (asks : r.AsksOnly keys)
    {answer : String → StateM Session Answer} {answers : String → Answer}
    (fixed : ∀ key, keys key → ∀ s, (answer key s).1 = answers key) (s : Session) :
    (r.run answer s).1 = r.value answers := by
  induction r generalizing s with
  | done a => rfl
  | ask key next ih =>
    simp only [run, value, Session.bind_apply, fixed key asks.1 s]
    exact ih _ (asks.2 _) _
  | tell e next ih => exact ih asks _

/-- The result depends on the answers to the questions only. -/
theorem value_congr {keys : String → Prop} {r : Reading α} (asks : r.AsksOnly keys)
    {answers answers' : String → Answer} (same : ∀ key, keys key → answers' key = answers key) :
    r.value answers' = r.value answers := by
  induction r with
  | done a => rfl
  | ask key next ih =>
    simp only [value, same key asks.1]
    exact ih _ (asks.2 _)
  | tell e next ih => exact ih asks

end Reading

namespace Feature

/-- There is a value or nothing under a key, no deferred property. -/
def Plain (f : Feature) (key : String) : Prop :=
  ∀ d, f.properties.slot? key ≠ some (.deferred d)

/-- Reading what is not deferred gives the stored value in any session. -/
theorem get_fst_of_plain {f : Feature} {key : String} (plain : f.Plain key) (s : Session) :
    (f.get key s).1 = .ok (f.properties.concrete? key) := by
  rw [get]
  cases f.properties.deferredKeys.length with
  | zero => rfl
  | succ depth =>
    cases slot : f.properties.slot? key with
    | none => simp [getWithin, Properties.concrete?, slot]
    | some found =>
      cases found with
      | concrete v => simp [getWithin, Properties.concrete?, slot, Slot.value?]
      | deferred d => exact absurd slot (plain d)

/-- A computation that asks only for what is not deferred has the same result over
every feature that holds the same there, in any session. -/
theorem run_fst_congr {α : Type} {keys : String → Prop} {r : Reading α}
    (asks : r.AsksOnly keys) {f g : Feature} (plain : ∀ key, keys key → f.Plain key)
    (same : ∀ key, keys key → g.properties.slot? key = f.properties.slot? key)
    (s t : Session) : (g.run r t).1 = (f.run r s).1 := by
  have plainThere : ∀ key, keys key → g.Plain key := fun key mem d => same key mem ▸ plain key mem d
  have values : ∀ key, keys key →
      (Except.ok (g.properties.concrete? key) : Answer) = .ok (f.properties.concrete? key) :=
    fun key mem => by rw [Properties.concrete?, same key mem, Properties.concrete?]
  calc (g.run r t).1
      = r.value fun key => .ok (g.properties.concrete? key) :=
        Reading.run_fst_eq_value asks (fun key mem => get_fst_of_plain (plainThere key mem)) t
    _ = r.value fun key => .ok (f.properties.concrete? key) := Reading.value_congr asks values
    _ = (f.run r s).1 :=
        (Reading.run_fst_eq_value asks (fun key mem => get_fst_of_plain (plain key mem)) s).symm

end Feature

end DerivedTags
