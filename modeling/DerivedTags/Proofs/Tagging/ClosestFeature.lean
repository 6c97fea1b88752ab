import DerivedTags.Feature.Access
import DerivedTags.Proofs.Decimal.TotalOrder
import DerivedTags.Tagging.FeatureValue

/-!
# The closest feature

`feat.closest` answers with the first of the listed features that are nearest, among those that
are candidates: other features with a centre within the limit. Another order of the list
changes the answer at most to a candidate at the same distance, bit for bit.
-/

namespace DerivedTags

open DerivedTags.Geo
open DerivedTags.Snippet

namespace FeatureMethods

/-- What `feat.closest` looks for. -/
structure Search where
  /-- The layer in which it looks. -/
  layer : String
  /-- The id of the feature itself. -/
  self : String
  /-- The centre of the feature. -/
  start : Position
  /-- The box around the feature. -/
  around : Box
  /-- The largest distance that counts, in metres. -/
  limit : Float

namespace Search

/-- The box in which candidates are looked up. -/
def box (q : Search) : Box := q.around.widen (q.limit / degreeInMetres)

/-- The features that the lookup returns, in its order. Without lookup there are none. -/
def returned (q : Search) (lookup : Option Lookup) : List Feature :=
  match lookup with
  | none => []
  | some l => l.within q.layer q.box

/-- A candidate and its distance: another feature, with a centre within the limit. -/
def Candidate (q : Search) (g : Feature) (d : Float) : Prop :=
  g.id ≠ q.self ∧ (∃ c, centre? g = some c ∧ distance q.start c = d) ∧ d ≤ q.limit

/-- The first listed candidate with the least distance: every candidate before it is farther,
none behind it is nearer. -/
def NearestAt (q : Search) (found : List Feature) (g : Feature) (d : Float) : Prop :=
  ∃ earlier later, found = earlier ++ g :: later ∧ q.Candidate g d ∧
    (∀ h ∈ earlier, ∀ e, q.Candidate h e → Decimal.totalRank d < Decimal.totalRank e) ∧
    ∀ h ∈ later, ∀ e, q.Candidate h e → Decimal.totalRank d ≤ Decimal.totalRank e

/-- The answer to a search among the features that were found. -/
def answer (q : Search) (found : List Feature) : Value :=
  match nearest? (candidates q.self q.start q.limit found) with
  | some best => .str best.2
  | none => .undefined

end Search

/-- The search that a call poses for a feature with a centre and a box, by a layer and the
finite number that is given as limit, or the usual limit. -/
inductive Poses (f : Feature) : List Value → Search → Prop where
  /-- A finite limit is given. -/
  | limited {layer : String} {v : Value} {rest : List Value} {start : Position} {around : Box}
      (centre : centre? f = some start) (box : box? f = some around)
      (finite : v.toNumber.isFinite = true) :
      Poses f (.str layer :: v :: rest) ⟨layer, f.id, start, around, v.toNumber⟩
  /-- No finite limit is given. -/
  | usual {layer : String} {rest : List Value} {start : Position} {around : Box}
      (centre : centre? f = some start) (box : box? f = some around)
      (unlimited : ∀ v ∈ rest.head?, v.toNumber.isFinite = false) :
      Poses f (.str layer :: rest) ⟨layer, f.id, start, around, 500.0⟩

/-- A list that is not empty has a nearest entry. -/
theorem nearest?_eq_none_iff {cs : List (Float × String)} : nearest? cs = none ↔ cs = [] := by
  cases cs with
  | nil => exact ⟨fun _ => rfl, fun _ => rfl⟩
  | cons c rest =>
    refine ⟨fun none => ?_, nofun⟩
    unfold nearest? at none
    split at none
    · cases none
    · split at none <;> cases none

/-- Every entry before the nearest one has a greater rank, none behind it a smaller one. -/
theorem exists_of_nearest? {cs : List (Float × String)} {best : Float × String}
    (found : nearest? cs = some best) : ∃ earlier later, cs = earlier ++ best :: later ∧
      (∀ c ∈ earlier, Decimal.totalRank best.1 < Decimal.totalRank c.1) ∧
      ∀ c ∈ later, Decimal.totalRank best.1 ≤ Decimal.totalRank c.1 := by
  induction cs generalizing best with
  | nil => cases found
  | cons c rest ih =>
    cases others : nearest? rest with
    | none =>
      rw [nearest?, others] at found
      obtain rfl := nearest?_eq_none_iff.mp others
      exact ⟨[], [], congrArg (· :: []) (Option.some.inj found), nofun, nofun⟩
    | some next =>
      obtain ⟨earlier, later, rfl, before, behind⟩ := ih others
      rw [nearest?, others] at found
      dsimp only at found
      split at found
      · rename_i nearer
        obtain rfl := Option.some.inj found
        exact ⟨c :: earlier, later, rfl, List.forall_mem_cons.mpr ⟨nearer, before⟩, behind⟩
      · rename_i farther
        obtain rfl := Option.some.inj found
        refine ⟨[], _, rfl, nofun, List.forall_mem_append.mpr ⟨fun d mem => ?_, ?_⟩⟩
        · have := before d mem
          omega
        · refine List.forall_mem_cons.mpr ⟨by omega, fun d mem => ?_⟩
          have := behind d mem
          omega

/-- The nearest entry of a list is the first one of least rank. -/
theorem nearest?_eq_some_iff {cs : List (Float × String)} {best : Float × String} :
    nearest? cs = some best ↔ ∃ earlier later, cs = earlier ++ best :: later ∧
      (∀ c ∈ earlier, Decimal.totalRank best.1 < Decimal.totalRank c.1) ∧
      ∀ c ∈ later, Decimal.totalRank best.1 ≤ Decimal.totalRank c.1 := by
  refine ⟨exists_of_nearest?, ?_⟩
  rintro ⟨earlier, later, rfl, before, behind⟩
  induction earlier with
  | nil =>
    cases others : nearest? later with
    | none => rw [List.nil_append, nearest?, others]
    | some next =>
      obtain ⟨front, back, rfl, _, _⟩ := exists_of_nearest? others
      have least := behind next (List.mem_append_right _ List.mem_cons_self)
      rw [List.nil_append, nearest?, others]
      exact if_neg (by omega)
  | cons c earlier ih =>
    obtain ⟨farther, before⟩ := List.forall_mem_cons.mp before
    rw [List.cons_append, nearest?, ih before]
    exact if_pos farther

namespace Search

variable {q : Search} {found : List Feature} {g : Feature}

/-- The entry of a feature in the list of candidates. -/
def entry? (q : Search) (g : Feature) : Option (Float × String) :=
  if g.id = q.self then none else (ranked q.start g).filter (·.1 ≤ q.limit)

/-- A feature has an entry exactly if it is a candidate. -/
theorem entry?_eq_some_iff {e : Float × String} :
    q.entry? g = some e ↔ q.Candidate g e.1 ∧ e.2 = g.id := by
  obtain ⟨d, id⟩ := e
  unfold entry? Candidate
  split
  · rename_i same
    exact ⟨nofun, fun both => absurd same both.1.1⟩
  · rename_i other
    rw [Option.filter_eq_some_iff, ranked, Option.map_eq_some_iff]
    simp only [Prod.mk.injEq, decide_eq_true_iff]
    constructor
    · rintro ⟨⟨c, centre, away, rfl⟩, near⟩
      exact ⟨⟨other, ⟨c, centre, away⟩, near⟩, rfl⟩
    · rintro ⟨⟨_, ⟨c, centre, away⟩, near⟩, rfl⟩
      exact ⟨⟨c, centre, away, rfl⟩, near⟩

/-- A candidate has an entry with its distance. -/
theorem Candidate.entry? {d : Float} (candidate : q.Candidate g d) :
    q.entry? g = some (d, g.id) := entry?_eq_some_iff.mpr ⟨candidate, rfl⟩

/-- The entries of the candidates, in the order of the list. -/
theorem candidates_eq_filterMap (q : Search) (found : List Feature) :
    candidates q.self q.start q.limit found = found.filterMap q.entry? := by
  rw [candidates, List.filterMap_filter, List.filter_filterMap]
  congr 1
  funext g
  by_cases same : g.id = q.self <;> simp [Search.entry?, same]

/-- An entry is the nearest one exactly if it is that of a nearest candidate. -/
theorem nearest?_candidates_iff {best : Float × String} :
    nearest? (candidates q.self q.start q.limit found) = some best ↔
      ∃ g, q.NearestAt found g best.1 ∧ best.2 = g.id := by
  rw [candidates_eq_filterMap, nearest?_eq_some_iff]
  constructor
  · rintro ⟨entries, others, parts, before, behind⟩
    obtain ⟨front, rest, rfl, rfl, tail⟩ := List.filterMap_eq_append_iff.mp parts
    obtain ⟨silent, g, later, rfl, none, here, rfl⟩ := List.filterMap_eq_cons_iff.mp tail
    obtain ⟨candidate, id⟩ := entry?_eq_some_iff.mp here
    refine ⟨g, ⟨front ++ silent, later, by simp, candidate, ?_, ?_⟩, id⟩
    · refine List.forall_mem_append.mpr ⟨fun h mem e other => ?_, fun h mem e other => ?_⟩
      · exact before _ (List.mem_filterMap.mpr ⟨h, mem, other.entry?⟩)
      · cases (none h mem).symm.trans other.entry?
    · exact fun h mem e other => behind _ (List.mem_filterMap.mpr ⟨h, mem, other.entry?⟩)
  · rintro ⟨g, ⟨earlier, later, rfl, candidate, before, behind⟩, id⟩
    have here : q.entry? g = some best := entry?_eq_some_iff.mpr ⟨candidate, id⟩
    refine ⟨earlier.filterMap q.entry?, later.filterMap q.entry?, ?_, ?_, ?_⟩
    · rw [List.filterMap_append, List.filterMap_cons_some here]
    · intro c mem
      obtain ⟨h, inside, entry⟩ := List.mem_filterMap.mp mem
      exact before h inside c.1 (entry?_eq_some_iff.mp entry).1
    · intro c mem
      obtain ⟨h, inside, entry⟩ := List.mem_filterMap.mp mem
      exact behind h inside c.1 (entry?_eq_some_iff.mp entry).1

/-- The answer is an id exactly if that is the id of a nearest candidate. -/
theorem answer_eq_str_iff {id : String} :
    q.answer found = .str id ↔ ∃ g d, q.NearestAt found g d ∧ g.id = id := by
  unfold answer
  split
  · rename_i best nearest
    rw [Value.str.injEq]
    constructor
    · rintro rfl
      obtain ⟨g, at_, id⟩ := nearest?_candidates_iff.mp nearest
      exact ⟨g, best.1, at_, id.symm⟩
    · rintro ⟨g, d, at_, rfl⟩
      have same : nearest? (candidates q.self q.start q.limit found) = some (d, g.id) :=
        nearest?_candidates_iff.mpr ⟨g, at_, rfl⟩
      rw [nearest] at same
      exact congrArg Prod.snd (Option.some.inj same)
  · rename_i none
    refine ⟨nofun, ?_⟩
    rintro ⟨g, d, at_, rfl⟩
    have same : nearest? (candidates q.self q.start q.limit found) = some (d, g.id) :=
      nearest?_candidates_iff.mpr ⟨g, at_, rfl⟩
    cases none.symm.trans same

/-- There is no answer exactly if there is no candidate. -/
theorem answer_eq_undefined_iff :
    q.answer found = .undefined ↔ ∀ g ∈ found, ∀ d, ¬q.Candidate g d := by
  have none : q.answer found = .undefined ↔ found.filterMap q.entry? = [] := by
    rw [← candidates_eq_filterMap, ← nearest?_eq_none_iff]
    unfold answer
    split
    · rename_i nearest
      simp [nearest]
    · rename_i nearest
      simp [nearest]
  rw [none, List.filterMap_eq_nil_iff]
  refine forall₂_congr fun g _ => ⟨fun none d candidate => ?_, fun no => ?_⟩
  · cases none.symm.trans candidate.entry?
  · cases entry : q.entry? g with
    | none => rfl
    | some e => exact absurd (entry?_eq_some_iff.mp entry).1 (no e.1)

/-- No candidate of the list is nearer than the nearest one. -/
theorem NearestAt.totalRank_le {d e : Float} {h : Feature} (nearest : q.NearestAt found g d)
    (mem : h ∈ found) (candidate : q.Candidate h e) :
    Decimal.totalRank d ≤ Decimal.totalRank e := by
  obtain ⟨earlier, later, rfl, own, before, behind⟩ := nearest
  rcases List.mem_append.mp mem with inside | inside
  · exact Int.le_of_lt (before h inside e candidate)
  · rcases List.mem_cons.mp inside with rfl | inside
    · have same := Option.some.inj (own.entry?.symm.trans candidate.entry?)
      rw [(Prod.mk.inj same).1]
    · exact behind h inside e candidate

/-- No candidate of the list has a smaller distance than the nearest one. -/
theorem NearestAt.not_lt {d e : Float} {h : Feature} (nearest : q.NearestAt found g d)
    (mem : h ∈ found) (candidate : q.Candidate h e) : ¬e < d := by
  intro nearer
  have less := Decimal.totalRank_lt_of_lt nearer
  have le := nearest.totalRank_le mem candidate
  omega

/-- The nearest one is a candidate of the list. -/
theorem NearestAt.candidate {d : Float} (nearest : q.NearestAt found g d) :
    g ∈ found ∧ q.Candidate g d := by
  obtain ⟨earlier, later, rfl, own, _, _⟩ := nearest
  exact ⟨List.mem_append_right _ List.mem_cons_self, own⟩

/-- There is an answer or there is a nearest candidate. -/
theorem answer_cases (q : Search) (found : List Feature) :
    q.answer found = .undefined ∨ ∃ g d, q.NearestAt found g d ∧ q.answer found = .str g.id := by
  cases given : q.answer found with
  | str id =>
    obtain ⟨g, d, nearest, rfl⟩ := answer_eq_str_iff.mp given
    exact .inr ⟨g, d, nearest, rfl⟩
  | undefined => exact .inl rfl
  | _ =>
    unfold answer at given
    split at given <;> cases given

/-- In another order of the list, the answer is the same or that of another nearest candidate,
at the same distance. -/
theorem answer_perm {other : List Feature} (perm : other.Perm found) :
    q.answer other = q.answer found ∨ ∃ g d g' d', q.NearestAt found g d ∧
      q.NearestAt other g' d' ∧ d'.toBits = d.toBits ∧ q.answer found = .str g.id ∧
      q.answer other = .str g'.id := by
  rcases answer_cases q found with none | ⟨g, d, nearest, given⟩
  · refine .inl ?_
    rw [none, answer_eq_undefined_iff]
    exact fun h mem => answer_eq_undefined_iff.mp none h (perm.mem_iff.mp mem)
  · rcases answer_cases q other with none | ⟨g', d', nearest', given'⟩
    · exact absurd nearest.candidate.2
        (answer_eq_undefined_iff.mp none g (perm.mem_iff.mpr nearest.candidate.1) d)
    · have le := nearest.totalRank_le (perm.mem_iff.mp nearest'.candidate.1) nearest'.candidate.2
      have ge := nearest'.totalRank_le (perm.mem_iff.mpr nearest.candidate.1) nearest.candidate.2
      exact .inr ⟨g, d, g', d', nearest, nearest',
        Decimal.toBits_eq_of_totalRank_eq (Int.le_antisymm ge le), given, given'⟩

end Search

/-- `feat.closest` with these arguments gives a result, by the methods that are attached to the
feature, also when its properties have become others. -/
def ClosestGives (surroundings : Surroundings) (f : Feature) (args : List Value) (result : Value) :
    Prop :=
  ∃ methods, MethodSource.standard.attach surroundings f.view = .done (.ok (.ok methods)) ∧
    ∀ (properties : Properties) (s : Session), ∃ call,
      ((f.withProperties properties).view.scope methods).call ["feat", "closest"] args = some call ∧
      ((f.withProperties properties).run call.run s).1 = .ok result

variable {surroundings : Surroundings} {f : Feature} {args : List Value}

/-- The call is that of the standard methods. -/
theorem closestGives_iff {result : Value} : ClosestGives surroundings f args result ↔
    ∀ (properties : Properties) (s : Session),
      ((f.withProperties properties).run
        (closestCall surroundings.lookup f.id (centre? f) (box? f) args).run s).1 = .ok result := by
  constructor
  · rintro ⟨methods, attached, gives⟩ properties s
    obtain rfl := Except.ok.inj (Except.ok.inj (Reading.done.inj attached))
    obtain ⟨call, called, given⟩ := gives properties s
    obtain rfl := Option.some.inj called
    exact given
  · exact fun gives => ⟨_, rfl, fun properties s => ⟨_, rfl, gives properties s⟩⟩

/-- What a call gives is determined. -/
theorem ClosestGives.unique {result other : Value} (gives : ClosestGives surroundings f args result)
    (gives' : ClosestGives surroundings f args other) : result = other := by
  have one := closestGives_iff.mp gives f.properties (.start 0)
  have two := closestGives_iff.mp gives' f.properties (.start 0)
  exact Except.ok.inj (one.symm.trans two)

/-- A search that was made is answered among what the lookup returns. -/
theorem run_closestCall (lookup : Option Lookup) (f : Feature) (layer self : String)
    (rest : List Value) (start : Position) (around : Box) (s : Session) :
    let q : Search := ⟨layer, self, start, around, distanceLimit (.str layer :: rest)⟩
    (f.run (closestCall lookup self (some start) (some around) (.str layer :: rest)).run s).1 =
      .ok (q.answer (q.returned lookup)) := by
  intro q
  cases lookup with
  | none => rfl
  | some l =>
    have told : f.run (closestCall (some l) self (some start) (some around)
        (.str layer :: rest)).run s =
      f.run (match nearest? (candidates self start q.limit (l.within layer q.box)) with
        | some best => give (.str best.2)
        | none => give .undefined).run (s.addEvent (.call (.searched layer q.box))) := rfl
    rw [told, Search.answer]
    change (f.run (match nearest? (candidates self start q.limit (l.within layer q.box)) with
        | some best => give (.str best.2)
        | none => give .undefined).run _).1 =
      .ok (match nearest? (candidates self start q.limit (l.within layer q.box)) with
        | some best => .str best.2
        | none => .undefined)
    split <;> rfl

/-- A call that poses a search names a layer by a text. -/
theorem Poses.exists_layer {q : Search} (poses : Poses f args q) :
    ∃ layer rest, args = .str layer :: rest := by
  cases poses <;> exact ⟨_, _, rfl⟩

/-- The search that a call poses, by the limit that its arguments set. -/
theorem poses_iff {layer : String} {rest : List Value} {q : Search} :
    Poses f (.str layer :: rest) q ↔
      ∃ start around, centre? f = some start ∧ box? f = some around ∧
        q = ⟨layer, f.id, start, around, distanceLimit (.str layer :: rest)⟩ := by
  constructor
  · intro poses
    cases poses with
    | limited centre box finite => exact ⟨_, _, centre, box, by rw [distanceLimit, if_pos finite]⟩
    | usual centre box unlimited =>
      refine ⟨_, _, centre, box, ?_⟩
      cases rest with
      | nil => rfl
      | cons v rest =>
        rw [distanceLimit, if_neg (by simp [unlimited v rfl])]
        rfl
  · rintro ⟨start, around, centre, box, rfl⟩
    cases rest with
    | nil => exact .usual centre box nofun
    | cons v rest =>
      rw [distanceLimit]
      split
      · rename_i finite
        exact .limited centre box finite
      · rename_i infinite
        refine .usual centre box fun w first => ?_
        obtain rfl := Option.some.inj first
        exact eq_false_of_ne_true infinite

/-- A call that poses a search gives its answer. -/
theorem Poses.gives {q : Search} (poses : Poses f args q) :
    ClosestGives surroundings f args (q.answer (q.returned surroundings.lookup)) := by
  obtain ⟨layer, rest, rfl⟩ := poses.exists_layer
  obtain ⟨start, around, centre, box, rfl⟩ := poses_iff.mp poses
  refine closestGives_iff.mpr fun properties s => ?_
  rw [centre, box]
  exact run_closestCall surroundings.lookup _ layer f.id rest start around s

/-- A call that poses no search gives nothing. -/
theorem gives_undefined (none : ∀ q, ¬Poses f args q) :
    ClosestGives surroundings f args .undefined := by
  refine closestGives_iff.mpr fun properties s => ?_
  unfold closestCall
  split
  · rename_i layer rest start around centre box
    exact absurd (poses_iff.mpr ⟨start, around, centre, box, rfl⟩) (none _)
  · rfl

/-- A call poses a search exactly if it names a layer by a text and the feature has a centre and
a box. -/
theorem exists_poses_iff : (∃ q, Poses f args q) ↔
    (∃ layer, args.head? = some (.str layer)) ∧ centre? f ≠ none ∧ box? f ≠ none := by
  simp only [Option.ne_none_iff_exists']
  constructor
  · rintro ⟨q, poses⟩
    obtain ⟨layer, rest, rfl⟩ := poses.exists_layer
    obtain ⟨start, around, centre, box, _⟩ := poses_iff.mp poses
    exact ⟨⟨layer, rfl⟩, ⟨start, centre⟩, around, box⟩
  · rintro ⟨⟨layer, first⟩, ⟨start, centre⟩, around, box⟩
    obtain ⟨rest, rfl⟩ := List.head?_eq_some_iff.mp first
    exact ⟨_, poses_iff.mpr ⟨start, around, centre, box, rfl⟩⟩

/-- A call poses at most one search. -/
theorem Poses.unique {q q' : Search} (poses : Poses f args q) (poses' : Poses f args q') :
    q = q' := by
  obtain ⟨layer, rest, rfl⟩ := poses.exists_layer
  obtain ⟨start, around, centre, box, rfl⟩ := poses_iff.mp poses
  obtain ⟨start', around', centre', box', rfl⟩ := poses_iff.mp poses'
  rw [Option.some.inj (centre.symm.trans centre'), Option.some.inj (box.symm.trans box')]

/-- There is a result. -/
theorem exists_gives (surroundings : Surroundings) (f : Feature) (args : List Value) :
    ∃ result, ClosestGives surroundings f args result := by
  by_cases posed : ∃ q, Poses f args q
  · obtain ⟨q, poses⟩ := posed
    exact ⟨_, poses.gives⟩
  · exact ⟨_, gives_undefined fun q poses => posed ⟨q, poses⟩⟩

namespace ClosestGives

variable {result : Value} (gives : ClosestGives surroundings f args result)

include gives

/-- The result is the id of the first nearest candidate, if it is an id. -/
theorem eq_str_iff {id : String} : result = .str id ↔ ∃ q g d, Poses f args q ∧
    q.NearestAt (q.returned surroundings.lookup) g d ∧ g.id = id := by
  by_cases posed : ∃ q, Poses f args q
  · obtain ⟨q, poses⟩ := posed
    rw [gives.unique poses.gives, Search.answer_eq_str_iff]
    constructor
    · rintro ⟨g, d, nearest, same⟩
      exact ⟨q, g, d, poses, nearest, same⟩
    · rintro ⟨q', g, d, poses', nearest, same⟩
      obtain rfl := poses'.unique poses
      exact ⟨g, d, nearest, same⟩
  · rw [gives.unique (gives_undefined fun q poses => posed ⟨q, poses⟩)]
    refine ⟨nofun, ?_⟩
    rintro ⟨q, g, d, poses, _⟩
    exact absurd ⟨q, poses⟩ posed

/-- The result is none where no search is posed or the search has no candidate. -/
theorem eq_undefined_iff : result = .undefined ↔ (∀ layer, args.head? ≠ some (.str layer)) ∨
    centre? f = none ∨ box? f = none ∨ ∃ q, Poses f args q ∧
      ∀ g ∈ q.returned surroundings.lookup, ∀ d, ¬q.Candidate g d := by
  by_cases posed : ∃ q, Poses f args q
  · obtain ⟨⟨layer, first⟩, centre, box⟩ := exists_poses_iff.mp posed
    obtain ⟨q, poses⟩ := posed
    rw [gives.unique poses.gives, Search.answer_eq_undefined_iff]
    constructor
    · exact fun none => .inr (.inr (.inr ⟨q, poses, none⟩))
    · rintro (other | missing | missing | ⟨q', poses', none⟩)
      · exact absurd first (other layer)
      · exact absurd missing centre
      · exact absurd missing box
      · obtain rfl := poses'.unique poses
        exact none
  · refine ⟨fun _ => ?_, fun _ => gives.unique (gives_undefined fun q poses => posed ⟨q, poses⟩)⟩
    by_contra all
    simp only [not_or, not_forall, not_not] at all
    exact posed (exists_poses_iff.mpr ⟨all.1, all.2.1, all.2.2.1⟩)

/-- A lookup that returns the same features in another order gives the same result or that of
another nearest candidate at the same distance. -/
theorem of_perm {other : Surroundings} {result' : Value}
    (gives' : ClosestGives other f args result')
    (perm : ∀ q, Poses f args q →
      (q.returned other.lookup).Perm (q.returned surroundings.lookup)) :
    result' = result ∨ ∃ q g d g' d', Poses f args q ∧
      q.NearestAt (q.returned surroundings.lookup) g d ∧
      q.NearestAt (q.returned other.lookup) g' d' ∧ d'.toBits = d.toBits ∧
      result = .str g.id ∧ result' = .str g'.id := by
  by_cases posed : ∃ q, Poses f args q
  · obtain ⟨q, poses⟩ := posed
    rw [gives.unique poses.gives, gives'.unique poses.gives]
    rcases Search.answer_perm (perm q poses) with same | ⟨g, d, g', d', nearest, changed⟩
    · exact .inl same
    · exact .inr ⟨q, g, d, g', d', poses, nearest, changed⟩
  · have none : ∀ q, ¬Poses f args q := fun q poses => posed ⟨q, poses⟩
    rw [gives.unique (gives_undefined none), gives'.unique (gives_undefined none)]
    exact .inl rfl

end ClosestGives

/-- `feat.closest` gives the id of the first nearest candidate among what the lookup returns:
of the other features with a centre within the limit, the first listed one at the least
distance in the total order of doubles, so that no candidate is nearer. It gives nothing exactly
if the layer is not a text, the feature has no centre or no box, or there is no candidate. A
lookup that returns the same features in another order changes the answer at most to that of
another nearest candidate, whose distance has the same bits. -/
theorem closest_first_nearest (surroundings : Surroundings) (f : Feature) (args : List Value) :
    ∃ result, ClosestGives surroundings f args result ∧
      (∀ id, result = .str id ↔ ∃ q g d, Poses f args q ∧
        q.NearestAt (q.returned surroundings.lookup) g d ∧ g.id = id) ∧
      (∀ q g d, Poses f args q → q.NearestAt (q.returned surroundings.lookup) g d →
        ∀ h ∈ q.returned surroundings.lookup, ∀ e, q.Candidate h e → ¬e < d) ∧
      (result = .undefined ↔ (∀ layer, args.head? ≠ some (.str layer)) ∨ centre? f = none ∨
        box? f = none ∨ ∃ q, Poses f args q ∧
          ∀ g ∈ q.returned surroundings.lookup, ∀ d, ¬q.Candidate g d) ∧
      ∀ (other : Surroundings) (result' : Value), ClosestGives other f args result' →
        (∀ q, Poses f args q →
          (q.returned other.lookup).Perm (q.returned surroundings.lookup)) →
        result' = result ∨ ∃ q g d g' d', Poses f args q ∧
          q.NearestAt (q.returned surroundings.lookup) g d ∧
          q.NearestAt (q.returned other.lookup) g' d' ∧ d'.toBits = d.toBits ∧
          result = .str g.id ∧ result' = .str g'.id := by
  obtain ⟨result, gives⟩ := exists_gives surroundings f args
  exact ⟨result, gives, fun id => gives.eq_str_iff,
    fun q g d _ nearest h mem e candidate => nearest.not_lt mem candidate,
    gives.eq_undefined_iff, fun other result' gives' perm => gives.of_perm gives' perm⟩

end FeatureMethods

end DerivedTags
