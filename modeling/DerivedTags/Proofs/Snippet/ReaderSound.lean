import DerivedTags.Proofs.Snippet.Nodes

/-!
# What the reader accepts is derived

Whatever a part of the reader takes from the front of the tokens is a phrase of
the grammar, its node is the tree of the phrase, and the derivation has no more
frames than there was room.
-/

namespace DerivedTags.Snippet

/-- A computation in two steps gives a result if both steps do. -/
theorem bind_eq_ok_iff {ε α β : Type} {x : Except ε α} {f : α → Except ε β} {b : β} :
    (x >>= f) = .ok b ↔ ∃ a, x = .ok a ∧ f a = .ok b := by
  cases x with
  | error e => simp [bind, Except.bind]
  | ok a => simp [bind, Except.bind]

/-- A function that reads from the front of the tokens. -/
abbrev Reader := List Token → Except ReadError (Node × List Token)

/-- Behind an expression the next token decides. -/
theorem suffixes_succ (fault : Option ReadError) (inner : Reader) (bound : Nat) (base : Node)
    (ts : List Token) :
    suffixes fault inner (bound + 1) base ts =
      match ts with
      | .op .dot :: .name s :: after => do
        let node ← base.member (.leaf (.str s))
        suffixes fault inner bound node after
      | .op .dot :: t :: _ => .error (unexpected t)
      | [.op .dot] => missing fault .unexpectedEnd
      | .opening .square :: rest => do
        let (key, after) ← inner rest
        let last ← expectClosing fault .square after
        let node ← base.member key
        suffixes fault inner bound node last
      | .opening .round :: rest => do
        let (args, after) ← list fault inner .round rest
        let node ← base.call args
        suffixes fault inner bound node after
      | _ => peek fault ts >>= fun _ => .ok (base, ts) := by
  rw [suffixes.eq_def]
  rcases ts with _ | ⟨⟨b⟩ | ⟨b⟩ | n | s | s | o, rest⟩
  · rfl
  · cases b <;> rfl
  · rfl
  · rfl
  · rfl
  · rfl
  · cases o
    case dot => rcases rest with _ | ⟨⟨b⟩ | ⟨b⟩ | n | s | s | o, rest⟩ <;> rfl
    all_goals rfl

/-- Behind a left operand the next token decides. -/
theorem climb_succ (fault : Option ReadError) (operand : Reader) (bound least : Nat)
    (left : Node) (ts : List Token) :
    climb fault operand (bound + 1) least left ts =
      match ts with
      | .op o :: rest =>
        match o.precedence? with
        | none => .ok (left, .op o :: rest)
        | some strength =>
          if strength < least then .ok (left, .op o :: rest)
          else do
            let (first, after) ← operand rest
            let (right, last) ← climb fault operand bound (strength + 1) first after
            let node ← Node.operator o.text [left, right]
            climb fault operand bound least node last
      | _ => peek fault ts >>= fun _ => .ok (left, ts) := by
  rcases ts with _ | ⟨⟨b⟩ | ⟨b⟩ | n | s | s | o, rest⟩ <;> rfl

/-- What a reader takes is a phrase with the tree of the node, derived with at most
so many frames. -/
def Sound (p : Phrase) (room : Nat) (reader : Reader) : Prop :=
  ∀ ts node rest, reader ts = .ok (node, rest) →
    ∃ n pre t, n ≤ room ∧ ts = pre ++ rest ∧ node = .of t ∧ t.depth ≤ depthLimit ∧
      Derives p n pre t

/-- Where no nesting is left nothing is taken. -/
theorem sound_tooDeep (p : Phrase) (room : Nat) : Sound p room tooDeep := by
  intro ts node rest h
  cases h

variable {fault : Option ReadError} {room : Nat} {inner below : Reader}

/-- What is read as items is at least one item and the closing bracket. -/
theorem items_sound (sound : Sound .whole room inner) {close : Bracket} {bound : Nat}
    {ts rest : List Token} {nodes : List Node}
    (h : items fault inner close bound ts = .ok (nodes, rest)) :
    ∃ n pre t trees, n ≤ room ∧ ts = pre ++ .closing close :: rest ∧
      nodes = (t :: trees).map .of ∧ (∀ u ∈ t :: trees, u.depth ≤ depthLimit) ∧
      Derives .items n pre (.arr (t :: trees)) := by
  induction bound generalizing ts nodes with
  | zero => cases h
  | succ bound ih =>
    rw [items] at h
    obtain ⟨⟨node, after⟩, read, h⟩ := bind_eq_ok_iff.mp h
    obtain ⟨n, pre, t, le, rfl, rfl, within, item⟩ := sound _ _ _ read
    dsimp only at h
    split at h
    · obtain ⟨⟨others, last⟩, readOthers, h⟩ := bind_eq_ok_iff.mp h
      cases h
      obtain ⟨m, mid, u, trees, le', rfl, rfl, within', others⟩ := ih readOthers
      refine ⟨max n m, pre ++ .op .comma :: mid, t, u :: trees, by omega, by simp, rfl, ?_,
        .more item others⟩
      intro v mem
      rcases List.mem_cons.mp mem with rfl | mem
      · exact within
      · exact within' v mem
    · split at h
      · rename_i same
        cases h
        subst same
        exact ⟨n, pre, t, [], le, rfl, rfl, by simpa using within, .one item⟩
      · cases h
    · cases h
    · cases h

/-- What is read as a list is items and the closing bracket. -/
theorem list_sound (sound : Sound .whole room inner) {close : Bracket} {ts rest : List Token}
    {nodes : List Node} (h : list fault inner close ts = .ok (nodes, rest)) :
    ∃ n pre trees, n ≤ room ∧ ts = pre ++ .closing close :: rest ∧ nodes = trees.map .of ∧
      (∀ u ∈ trees, u.depth ≤ depthLimit) ∧ Derives .items n pre (.arr trees) := by
  have some_items {bound : Nat} (h : items fault inner close bound ts = .ok (nodes, rest)) :
      ∃ n pre trees, n ≤ room ∧ ts = pre ++ .closing close :: rest ∧ nodes = trees.map .of ∧
        (∀ u ∈ trees, u.depth ≤ depthLimit) ∧ Derives .items n pre (.arr trees) := by
    obtain ⟨n, pre, t, trees, found⟩ := items_sound sound h
    exact ⟨n, pre, t :: trees, found⟩
  rw [list] at h
  obtain ⟨next, peeked, h⟩ := bind_eq_ok_iff.mp h
  split at h
  · rename_i b
    by_cases same : b = close
    · subst same
      cases ts with
      | nil => cases fault <;> cases peeked
      | cons first others =>
        cases peeked
        simp only [if_true] at h
        cases h
        exact ⟨0, [], [], Nat.zero_le _, rfl, rfl, by simp, .none⟩
    · rw [if_neg same] at h
      exact some_items h
  · exact some_items h

/-- What is read as a primary expression is one. -/
theorem primary_sound (sound : Sound .whole room inner) :
    Sound .primary room (primary fault inner) := by
  intro ts node rest h
  rw [primary.eq_def] at h
  split at h
  · cases h
  · rename_i n _
    cases h
    exact ⟨0, [_], _, Nat.zero_le _, rfl, rfl, Nat.zero_le _, .number n⟩
  · rename_i s _
    cases h
    exact ⟨0, [_], _, Nat.zero_le _, rfl, rfl, Nat.zero_le _, .text s⟩
  · rename_i s _
    cases h
    exact ⟨0, [_], _, Nat.zero_le _, rfl, ofName_eq s, depth_nameTree s, .name s⟩
  · obtain ⟨⟨grouped, after⟩, read, h⟩ := bind_eq_ok_iff.mp h
    obtain ⟨n, pre, t, le, rfl, rfl, within, expression⟩ := sound _ _ _ read
    dsimp only at h
    split at h
    · cases h
      exact ⟨n, _, t, le, by simp, rfl, within, .grouped expression⟩
    · cases h
    · cases h
  · obtain ⟨⟨nodes, after⟩, read, h⟩ := bind_eq_ok_iff.mp h
    obtain ⟨n, pre, trees, le, rfl, rfl, -, inside⟩ := list_sound sound read
    obtain ⟨made, operator, h⟩ := bind_eq_ok_iff.mp h
    cases h
    rw [operator_of, checked_eq_ok_iff] at operator
    exact ⟨n, _, _, le, by simp, operator.2, operator.1, .list inside⟩
  · cases h
  · cases h

/-- A closing bracket that was expected is there. -/
theorem expectClosing_eq_ok {b : Bracket} {ts rest : List Token}
    (h : expectClosing fault b ts = .ok rest) : ts = .closing b :: rest := by
  rw [expectClosing.eq_def] at h
  split at h
  · split at h
    · rename_i same
      cases h
      rw [same]
    · cases h
  · cases h
  · cases h

/-- What is read behind an expression are members and calls of it. -/
theorem suffixes_sound (sound : Sound .whole room inner) {bound n : Nat}
    {pre ts rest : List Token} {t : Json} {node : Node} (le : n ≤ room)
    (within : t.depth ≤ depthLimit) (base : Derives .suffixed n pre t)
    (h : suffixes fault inner bound (.of t) ts = .ok (node, rest)) :
    ∃ m mid u, m ≤ room ∧ ts = mid ++ rest ∧ node = .of u ∧ u.depth ≤ depthLimit ∧
      Derives .suffixed m (pre ++ mid) u := by
  have flat := base.flat (by simp)
  induction bound generalizing n pre t ts with
  | zero =>
    obtain ⟨-, -, h⟩ := bind_eq_ok_iff.mp h
    cases h
    exact ⟨n, [], t, le, rfl, rfl, within, by simpa using base⟩
  | succ bound ih =>
    rw [suffixes_succ] at h
    split at h
    · rename_i s after
      obtain ⟨made, member, h⟩ := bind_eq_ok_iff.mp h
      rw [show Node.leaf (.str s) = .of (.str s) from rfl, member_of flat, checked_eq_ok_iff]
        at member
      obtain ⟨withinMember, rfl⟩ := member
      obtain ⟨m, mid, u, le', rfl, same, within', derived⟩ :=
        ih le withinMember base.member h (flat_memberTree flat _)
      exact ⟨m, .op .dot :: .name s :: mid, u, le', rfl, same, within', by simpa using derived⟩
    · cases h
    · cases h
    · obtain ⟨⟨key, after⟩, read, h⟩ := bind_eq_ok_iff.mp h
      obtain ⟨k, keys, keyTree, leKey, rfl, rfl, -, whole⟩ := sound _ _ _ read
      obtain ⟨last, closed, onward⟩ := bind_eq_ok_iff.mp h
      obtain rfl := expectClosing_eq_ok closed
      obtain ⟨made, member, behind⟩ := bind_eq_ok_iff.mp onward
      rw [member_of flat, checked_eq_ok_iff] at member
      obtain ⟨withinMember, rfl⟩ := member
      obtain ⟨m, mid, u, le', rfl, same, within', derived⟩ :=
        ih (Nat.max_le.mpr ⟨le, leKey⟩) withinMember (base.computed whole) behind
          (flat_memberTree flat _)
      exact ⟨m, .opening .square :: (keys ++ .closing .square :: mid), u, le', by simp, same,
        within', by simpa using derived⟩
    · obtain ⟨⟨nodes, after⟩, read, h⟩ := bind_eq_ok_iff.mp h
      obtain ⟨k, inside, trees, leArgs, rfl, rfl, -, arguments⟩ := list_sound sound read
      obtain ⟨made, call, h⟩ := bind_eq_ok_iff.mp h
      rw [call_of flat] at call
      cases known : callTree? t trees with
      | none =>
        rw [known] at call
        cases call
      | some called =>
        simp only [known, checked_eq_ok_iff] at call
        obtain ⟨withinCall, rfl⟩ := call
        obtain ⟨m, mid, u, le', rfl, same, within', derived⟩ :=
          ih (Nat.max_le.mpr ⟨le, leArgs⟩) withinCall (base.call arguments known) h
            (flat_callTree? known)
        exact ⟨m, .opening .round :: (inside ++ .closing .round :: mid), u, le', by simp, same,
          within', by simpa using derived⟩
    · obtain ⟨-, -, h⟩ := bind_eq_ok_iff.mp h
      cases h
      exact ⟨n, [], t, le, rfl, rfl, within, by simpa using base⟩

/-- What is read as an operand without sign is one. -/
theorem suffixed_sound (sound : Sound .whole room inner) :
    Sound .suffixed room (suffixed fault inner) := by
  intro ts node rest h
  obtain ⟨⟨base, after⟩, read, h⟩ := bind_eq_ok_iff.mp h
  obtain ⟨n, pre, t, le, rfl, rfl, within, derived⟩ := primary_sound sound _ _ _ read
  obtain ⟨m, mid, u, le', rfl, same, within', found⟩ :=
    suffixes_sound sound le within derived.primary h
  exact ⟨m, pre ++ mid, u, le', by simp, same, within', found⟩

/-- Behind the tokens no operator of a level or a stronger one goes on. -/
def Below (i : Nat) (ts : List Token) : Prop :=
  ∀ o rest k, ts = .op o :: rest → o ∈ operatorsAt k → k < i

/-- At the end of the tokens nothing goes on. -/
theorem below_nil (i : Nat) : Below i [] := by
  intro o rest k same
  cases same

/-- Whether an operator at the front goes on depends on its level. -/
theorem below_cons {i : Nat} {o : Operator} {rest : List Token} :
    Below i (.op o :: rest) ↔ ∀ k, o ∈ operatorsAt k → k < i := by
  constructor
  · intro below k
    exact below o rest k rfl
  · intro levels o' rest' k same
    cases same
    exact levels k

/-- An expression of stronger operators is one of weaker operators. -/
theorem Derives.weaken {i j n : Nat} {ts : List Token} {t : Json}
    (h : Derives (.level i) n ts t) (le : j ≤ i) : Derives (.level j) n ts t := by
  induction i with
  | zero =>
    obtain rfl : j = 0 := by omega
    exact h
  | succ i ih =>
    rcases Nat.lt_or_eq_of_le le with lt | rfl
    · exact ih h.stronger (by omega)
    · exact h

/-- What is read behind a left operand are operators of the given level or stronger
ones with their right operands, and no such operator is left over. -/
theorem climb_sound {operand : Reader} (sound : Sound .operand room operand)
    {bound i j n : Nat} {pre ts rest : List Token} {t : Json} {node : Node}
    (enough : ts.length ≤ bound) (level : j ≤ i) (le : n ≤ room) (within : t.depth ≤ depthLimit)
    (left : Derives (.level i) n pre t) (weaker : Below (i + 1) ts)
    (h : climb fault operand bound (j + 1) (.of t) ts = .ok (node, rest)) :
    ∃ m mid u, m ≤ room ∧ ts = mid ++ rest ∧ node = .of u ∧ u.depth ≤ depthLimit ∧
      Derives (.level j) m (pre ++ mid) u ∧ Below j rest := by
  induction bound generalizing i j n pre t ts node rest with
  | zero =>
    obtain rfl : ts = [] := List.length_eq_zero_iff.mp (by omega)
    obtain ⟨-, -, h⟩ := bind_eq_ok_iff.mp h
    cases h
    exact ⟨n, [], t, le, rfl, rfl, within, by simpa using left.weaken level, below_nil j⟩
  | succ bound ih =>
    have stop (below : Below j ts) : ∃ m mid u, m ≤ room ∧ ts = mid ++ ts ∧ Node.of t = .of u ∧
        u.depth ≤ depthLimit ∧ Derives (.level j) m (pre ++ mid) u ∧ Below j ts :=
      ⟨n, [], t, le, rfl, rfl, within, by simpa using left.weaken level, below⟩
    rw [climb_succ] at h
    split at h
    · rename_i o others
      split at h
      · rename_i unranked
        cases h
        refine stop (below_cons.mpr fun k known => ?_)
        rw [(precedence?_eq_some_iff o k).mpr known] at unranked
        cases unranked
      · rename_i strength ranked
        obtain ⟨k, rfl, known⟩ := exists_level ranked
        split at h
        · rename_i weak
          cases h
          refine stop (below_cons.mpr fun l also => ?_)
          rw [(precedence?_eq_some_iff o l).mpr also, Option.some.injEq] at ranked
          omega
        · obtain ⟨⟨first, after⟩, read, h⟩ := bind_eq_ok_iff.mp h
          obtain ⟨a, fs, f, leFirst, rfl, rfl, withinFirst, operand⟩ := sound _ _ _ read
          obtain ⟨⟨right, last⟩, readRight, onward⟩ := bind_eq_ok_iff.mp h
          have high : k ≤ 5 := level_le_five known
          have low : k < i + 1 := below_cons.mp weaker k known
          simp only [List.length_cons, List.length_append] at enough
          obtain ⟨b, mid, r, leRight, rfl, rfl, -, rightSide, weakerRight⟩ :=
            ih (i := 6) (by omega) (by omega) leFirst withinFirst (.operand operand)
              (fun _ _ l _ mem => Nat.lt_of_le_of_lt (level_le_five mem) (by omega)) readRight
          obtain ⟨made, joined, behind⟩ := bind_eq_ok_iff.mp onward
          rw [show [Node.of t, Node.of r] = [t, r].map Node.of from rfl, operator_of,
            checked_eq_ok_iff] at joined
          obtain ⟨withinJoined, rfl⟩ := joined
          simp only [List.length_append] at enough
          obtain ⟨m, more, u, le', rfl, same, within', found, below⟩ :=
            ih (by omega) (by omega) (Nat.max_le.mpr ⟨le, leRight⟩) withinJoined
              (.joined known (left.weaken (by omega)) rightSide) weakerRight behind
          exact ⟨m, .op o :: (fs ++ mid ++ more), u, le', by simp, same, within',
            by simpa using found, below⟩
    · rename_i no_operator
      obtain ⟨-, -, h⟩ := bind_eq_ok_iff.mp h
      cases h
      exact stop fun o others k same => (no_operator o others same).elim

/-- What is read as operands with operators between them is one expression. -/
theorem binary_sound {operand : Reader} (sound : Sound .operand room operand) :
    Sound (.level 0) room (binary fault operand) := by
  intro ts node rest h
  obtain ⟨⟨left, after⟩, read, h⟩ := bind_eq_ok_iff.mp h
  obtain ⟨n, pre, t, le, rfl, rfl, within, operand⟩ := sound _ _ _ read
  obtain ⟨m, mid, u, le', rfl, same, within', found, -⟩ :=
    climb_sound (i := 6) sound (Nat.le_refl _) (Nat.zero_le _) le within (.operand operand)
      (fun _ _ k _ mem => Nat.lt_of_le_of_lt (level_le_five mem) (by omega)) h
  exact ⟨m, pre ++ mid, u, le', by simp, same, within', found⟩

/-- A colon that was expected is there. -/
theorem expectColon_eq_ok {ts rest : List Token} (h : expectColon fault ts = .ok rest) :
    ts = .op .colon :: rest := by
  rw [expectColon.eq_def] at h
  split at h
  · cases h
    rfl
  · cases h
  · cases h

/-- What is read as a choice or an expression without one is a whole expression,
with one frame more. -/
theorem conditional_sound {operand : Reader} (sound : Sound .operand room operand)
    (soundInner : Sound .whole room inner) :
    Sound .whole (room + 1) (conditional fault operand inner) := by
  intro ts node rest h
  obtain ⟨⟨condition, after⟩, read, h⟩ := bind_eq_ok_iff.mp h
  obtain ⟨a, cs, c, leCondition, rfl, rfl, within, level⟩ := binary_sound sound _ _ _ read
  dsimp only at h
  split at h
  · obtain ⟨⟨yes, afterYes⟩, readYes, h⟩ := bind_eq_ok_iff.mp h
    obtain ⟨b, ys, y, leYes, rfl, rfl, -, yes⟩ := soundInner _ _ _ readYes
    obtain ⟨others, colon, onward⟩ := bind_eq_ok_iff.mp h
    obtain rfl := expectColon_eq_ok colon
    obtain ⟨⟨no, last⟩, readNo, behind⟩ := bind_eq_ok_iff.mp onward
    obtain ⟨d, ns, m, leNo, rfl, rfl, -, no⟩ := soundInner _ _ _ readNo
    obtain ⟨made, operator, finish⟩ := bind_eq_ok_iff.mp behind
    cases finish
    rw [show [Node.of c, Node.of y, Node.of m] = [c, y, m].map Node.of from rfl, operator_of,
      checked_eq_ok_iff] at operator
    exact ⟨_, _, _, by omega, by simp, operator.2, operator.1, .choice level yes no⟩
  · cases h
    exact ⟨a + 1, cs, c, by omega, rfl, rfl, within, .plain level⟩

/-- A sign has a tree in front of any operand. -/
theorem sign?_eq_some {ts rest : List Token} {o : Operator} (h : sign? ts = some (o, rest)) :
    ts = .op o :: rest ∧ ∀ t, ∃ signedTree, signTree? o t = some signedTree := by
  unfold sign? at h
  split at h
  · cases h
    exact ⟨rfl, fun t => ⟨_, rfl⟩⟩
  · cases h
    exact ⟨rfl, fun t => ⟨_, rfl⟩⟩
  · cases h
    exact ⟨rfl, fun t => ⟨_, rfl⟩⟩
  · cases h

/-- What is read as an operand with signs is one. Behind a sign either nothing is
taken, or there is room for one frame less. -/
theorem prefixed_sound
    (soundBelow : below = tooDeep ∨ ∃ less, room = less + 1 ∧ Sound .operand less below)
    (sound : Sound .whole room inner) : Sound .operand room (prefixed fault below inner) := by
  intro ts node rest h
  unfold prefixed at h
  split at h
  · rename_i o others front
    obtain ⟨rfl, tree⟩ := sign?_eq_some front
    obtain ⟨⟨operand, after⟩, read, h⟩ := bind_eq_ok_iff.mp h
    rcases soundBelow with rfl | ⟨less, rfl, soundBelow⟩
    · cases read
    · obtain ⟨n, pre, t, le, rfl, rfl, -, derived⟩ := soundBelow _ _ _ read
      obtain ⟨made, sign, h⟩ := bind_eq_ok_iff.mp h
      cases h
      obtain ⟨signedTree, known⟩ := tree t
      rw [signed_of known, checked_eq_ok_iff] at sign
      exact ⟨n + 1, .op o :: pre, _, by omega, rfl, sign.2, sign.1, .sign known derived⟩
  · obtain ⟨n, pre, t, le, same, made, within, derived⟩ := suffixed_sound sound _ _ _ h
    exact ⟨n, pre, t, le, same, made, within, .suffixed derived⟩

variable (fault)

/-- What is read as an operand or a whole expression is one, with no more frames
than there was room. -/
theorem unary_ternary_sound (room : Nat) :
    Sound .operand room (unary fault room) ∧ Sound .whole room (ternary fault room) := by
  induction room with
  | zero =>
    rw [unary, ternary]
    exact ⟨prefixed_sound (.inl rfl) (sound_tooDeep _ _), sound_tooDeep _ _⟩
  | succ room ih =>
    have whole : Sound .whole (room + 1) (ternary fault (room + 1)) := by
      rw [ternary]
      exact conditional_sound ih.1 ih.2
    rw [unary_succ]
    exact ⟨prefixed_sound (.inr ⟨room, rfl, ih.1⟩) whole, whole⟩

end DerivedTags.Snippet
