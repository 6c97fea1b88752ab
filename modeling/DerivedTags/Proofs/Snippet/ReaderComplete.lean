import DerivedTags.Proofs.Snippet.ReaderSound

/-!
# What is derived the reader accepts

Wherever the grammar derives a phrase within the limits, the reader takes exactly
this phrase, if nothing behind it could go on with it. The parts of the reader that
loop are followed from one turn to the next: reading a left part leaves the loop at
the tokens behind it, with enough turns to come.
-/

namespace DerivedTags.Snippet

/-- Behind the tokens no member and no call goes on. -/
def Bare : List Token → Prop
  | .op .dot :: _ | .opening _ :: _ => False
  | _ => True

/-- Behind the tokens nothing goes on: they are at their end, or a closing bracket,
a comma or a colon is next. -/
def Ended : List Token → Prop
  | [] | .closing _ :: _ | .op .comma :: _ | .op .colon :: _ => True
  | _ => False

/-- Where nothing goes on, no member and no call goes on. -/
theorem Ended.bare {ts : List Token} (ended : Ended ts) : Bare ts := by
  unfold Ended at ended
  split at ended
  · trivial
  · trivial
  · trivial
  · trivial
  · cases ended

/-- Where nothing goes on, no operator goes on. -/
theorem Ended.below {ts : List Token} (ended : Ended ts) : Below 0 ts := by
  intro o rest k same known
  subst same
  have bound := level_le_five known
  match k with
  | 0 | 1 | 2 | 3 | 4 | 5 => cases o <;> revert known ended <;> simp [Ended, operatorsAt]
  | _ + 6 => cases known

/-- An operator between operands is no member and no call. -/
theorem bare_of_mem {o : Operator} {i : Nat} (known : o ∈ operatorsAt i) (rest : List Token) :
    Bare (.op o :: rest) := by
  have ranked := (precedence?_eq_some_iff o i).mpr known
  cases o <;> trivial

/-- Without a fault the next token can be looked at. -/
theorem peek_none (ts : List Token) : peek none ts = .ok ts.head? := by
  cases ts <;> rfl

variable {inner operand : Reader}

/-- Where no member and no call goes on, nothing more is read. -/
theorem suffixes_stop {ts : List Token} (bare : Bare ts) (bound : Nat) (base : Node) :
    suffixes none inner bound base ts = .ok (base, ts) := by
  have stay : (peek none ts >>= fun _ => Except.ok (base, ts)) = .ok (base, ts) := by
    rw [peek_none]
    rfl
  cases bound with
  | zero => exact stay
  | succ bound =>
    rw [suffixes_succ]
    split
    · cases bare
    · cases bare
    · cases bare
    · cases bare
    · cases bare
    · exact stay

/-- Where no operator strong enough goes on, nothing more is read. -/
theorem climb_stop {j : Nat} {ts : List Token} (below : Below j ts) (bound : Nat) (left : Node) :
    climb none operand bound (j + 1) left ts = .ok (left, ts) := by
  have stay : (peek none ts >>= fun _ => Except.ok (left, ts)) = .ok (left, ts) := by
    rw [peek_none]
    rfl
  cases bound with
  | zero => exact stay
  | succ bound =>
    rw [climb_succ]
    split
    · split
      · rfl
      · rename_i ranked
        obtain ⟨k, rfl, known⟩ := exists_level ranked
        rw [if_pos]
        have := below_cons.mp below k known
        omega
    · exact stay

/-- An operand and the operators behind it. -/
def climbFrom (operand : Reader) (bound least : Nat) (ts : List Token) :
    Except ReadError (Node × List Token) :=
  operand ts >>= fun read => climb none operand bound least read.1 read.2

/-- The reader takes a phrase from the front of the tokens, whatever is behind it
that cannot go on with it. For the parts that loop: the loop goes on behind the
phrase, with enough turns to come. -/
def Complete : Phrase → Nat → List Token → Json → Prop
  | .whole, n, ts, t => t.depth ≤ depthLimit → ∀ room, n ≤ room → ∀ rest, Ended rest →
    ternary none room (ts ++ rest) = .ok (.of t, rest)
  | .level i, n, ts, t => t.depth ≤ depthLimit → ∀ room, n ≤ room → ∀ rest, Bare rest →
    Below (i + 1) rest → ∀ j, j ≤ i → ∀ bound,
    (∀ left after, unary none room (ts ++ rest) = .ok (left, after) → after.length ≤ bound) →
    ∃ turns, rest.length ≤ turns ∧
      climbFrom (unary none room) bound (j + 1) (ts ++ rest) =
        climb none (unary none room) turns (j + 1) (.of t) rest
  | .operand, n, ts, t => t.depth ≤ depthLimit → ∀ room, n ≤ room → ∀ rest, Bare rest →
    unary none room (ts ++ rest) = .ok (.of t, rest)
  | .suffixed, n, ts, t => t.depth ≤ depthLimit → ∀ room, n ≤ room → ∀ rest,
    ∃ turns, rest.length ≤ turns ∧
      suffixed none (ternary none room) (ts ++ rest) =
        suffixes none (ternary none room) turns (.of t) rest
  | .primary, n, ts, t => t.depth ≤ depthLimit → ∀ room, n ≤ room → ∀ rest,
    primary none (ternary none room) (ts ++ rest) = .ok (.of t, rest)
  | .items, n, ts, t => ∀ trees, t = .arr trees → (∀ u ∈ trees, u.depth ≤ depthLimit) →
    ∀ room, n ≤ room → ∀ close rest,
    list none (ternary none room) close (ts ++ .closing close :: rest) =
        .ok (trees.map .of, rest) ∧
      (trees ≠ [] → ∀ bound, ts.length < bound →
        items none (ternary none room) close bound (ts ++ .closing close :: rest) =
          .ok (trees.map .of, rest))

/-- What stands in the brackets of an operand is a whole expression. -/
theorem unary_eq (room : Nat) :
    ∃ below, unary none room = prefixed none below (ternary none room) := by
  cases room with
  | zero => exact ⟨tooDeep, by rw [unary, ternary]⟩
  | succ room => exact ⟨_, unary_succ none room⟩

/-- An expression of operators is read up to where none goes on. -/
theorem Complete.binary {n room : Nat} {ts rest : List Token} {t : Json}
    (h : Complete (.level 0) n ts t) (within : t.depth ≤ depthLimit) (le : n ≤ room)
    (bare : Bare rest) (below : Below 0 rest) :
    binary none (unary none room) (ts ++ rest) = .ok (.of t, rest) := by
  have loop := h within room le rest bare
    (fun o others k same known => Nat.lt_succ_of_lt (below o others k same known)) 0 (Nat.le_refl 0)
  cases read : unary none room (ts ++ rest) with
  | error e =>
    obtain ⟨turns, -, same⟩ := loop 0 (by simp [read])
    rw [climb_stop below, climbFrom, read] at same
    cases same
  | ok found =>
    obtain ⟨left, after⟩ := found
    obtain ⟨turns, -, same⟩ := loop after.length (by simp [read])
    rw [climb_stop below, climbFrom, read] at same
    rw [Snippet.binary, read]
    exact same

/-- Two sides of an operator: behind the left side the loop finds the operator,
and behind the right side it goes on with the joined tree. -/
theorem Complete.joined {i a b : Nat} {ls rs : List Token} {l r : Json} {o : Operator}
    (known : o ∈ operatorsAt i) (left : Complete (.level i) a ls l)
    (right : Complete (.level (i + 1)) b rs r) :
    Complete (.level i) (max a b) (ls ++ .op o :: rs) (.arr [.str o.text, l, r]) := by
  intro within room le rest bare below j level bound enough
  have withinSides : l.depth ≤ depthLimit ∧ r.depth ≤ depthLimit := by
    simp only [Json.depth, Json.depthOfItems] at within
    omega
  have consumes (ts : List Token) (first : Node) (after : List Token)
      (read : unary none room ts = .ok (first, after)) : after.length ≤ ts.length := by
    obtain ⟨n, pre, t, -, rfl, -⟩ := (unary_ternary_sound none room).1 _ _ _ read
    simp
  have onlyAt (k : Nat) (also : o ∈ operatorsAt k) : k = i := by
    have ranked := (precedence?_eq_some_iff o i).mpr known
    rw [(precedence?_eq_some_iff o k).mpr also] at ranked
    simpa using ranked
  rw [List.append_assoc, List.cons_append] at enough ⊢
  obtain ⟨turns, room_left, reads_left⟩ := left withinSides.1 room (by omega)
    (.op o :: (rs ++ rest)) (bare_of_mem known _)
    (below_cons.mpr fun k also => by have := onlyAt k also; omega) j level bound enough
  cases turns with
  | zero => simp at room_left
  | succ turns =>
    simp only [List.length_cons, List.length_append] at room_left
    obtain ⟨more, room_right, reads_right⟩ := right withinSides.2 room (by omega) rest bare
      (fun o' others k same also => Nat.lt_succ_of_lt (below o' others k same also)) (i + 1)
      (Nat.le_refl _) turns (fun first after read => by
        have := consumes _ _ _ read
        simp only [List.length_append] at this
        omega)
    rw [climb_stop below] at reads_right
    refine ⟨turns, by omega, ?_⟩
    rw [reads_left, climb_succ]
    simp only [(precedence?_eq_some_iff o i).mpr known]
    rw [if_neg (by omega)]
    obtain ⟨⟨first, after⟩, read, climbed⟩ := bind_eq_ok_iff.mp reads_right
    have operator : Node.operator o.text [.of l, .of r] = .ok (.of (.arr [.str o.text, l, r])) := by
      rw [show [Node.of l, Node.of r] = [l, r].map Node.of from rfl, operator_of,
        checked_of_le within]
    simp only [read, bind, Except.bind] at climbed ⊢
    simp only [climbed, operator]

/-- A choice: behind the condition the question mark is next, and behind the first
branch the colon. -/
theorem Complete.choice {a b d : Nat} {cs ys ns : List Token} {c y m : Json}
    (condition : Complete (.level 0) a cs c) (yes : Complete .whole b ys y)
    (no : Complete .whole d ns m) :
    Complete .whole (max a (max b d) + 1)
      (cs ++ .op .question :: (ys ++ .op .colon :: ns)) (.arr [.str "if", c, y, m]) := by
  intro within room le rest ended
  have withinParts : c.depth ≤ depthLimit ∧ y.depth ≤ depthLimit ∧ m.depth ≤ depthLimit := by
    simp only [Json.depth, Json.depthOfItems] at within
    omega
  obtain ⟨withinCondition, withinYes, withinNo⟩ := withinParts
  cases room with
  | zero => omega
  | succ room =>
    have read : Snippet.binary none (unary none room)
        (cs ++ .op .question :: (ys ++ .op .colon :: (ns ++ rest))) =
          .ok (.of c, .op .question :: (ys ++ .op .colon :: (ns ++ rest))) :=
      condition.binary withinCondition (by omega) trivial (below_cons.mpr fun k known => by
        have ranked := (precedence?_eq_some_iff _ k).mpr known
        cases ranked)
    have readYes := yes withinYes room (by omega) (.op .colon :: (ns ++ rest)) trivial
    have readNo := no withinNo room (by omega) rest ended
    have operator : Node.operator "if" [.of c, .of y, .of m] =
        .ok (.of (.arr [.str "if", c, y, m])) := by
      rw [show [Node.of c, Node.of y, Node.of m] = [c, y, m].map Node.of from rfl, operator_of,
        checked_of_le within]
    rw [ternary, conditional]
    simp only [List.append_assoc, List.cons_append, read, bind, Except.bind, readYes, expectColon,
      readNo, operator]

/-- An expression without choice. -/
theorem Complete.plain {n : Nat} {ts : List Token} {t : Json}
    (expression : Complete (.level 0) n ts t) : Complete .whole (n + 1) ts t := by
  intro within room le rest ended
  cases room with
  | zero => omega
  | succ room =>
    have read := expression.binary within (Nat.le_of_succ_le_succ le) ended.bare ended.below
    rw [ternary, conditional]
    simp only [read, bind, Except.bind]
    split
    · cases ended
    · rfl

/-- An operand at the end of the loop over operators. -/
theorem Complete.single {n : Nat} {ts : List Token} {t : Json}
    (operand : Complete .operand n ts t) : Complete (.level 6) n ts t := by
  intro within room le rest bare _ j _ bound enough
  have read := operand within room le rest bare
  refine ⟨bound, enough _ _ read, ?_⟩
  rw [climbFrom, read]
  rfl

/-- A sign in front of an operand. -/
theorem Complete.sign {n : Nat} {ts : List Token} {t signedTree : Json} {o : Operator}
    (known : signTree? o t = some signedTree) (operand : Complete .operand n ts t) :
    Complete .operand (n + 1) (.op o :: ts) signedTree := by
  intro within room le rest bare
  cases room with
  | zero => omega
  | succ room =>
    have withinOperand := Nat.le_trans (flat_signTree? known).2 within
    have read := operand withinOperand room (Nat.le_of_succ_le_succ le) rest bare
    have front : sign? (.op o :: (ts ++ rest)) = some (o, ts ++ rest) := by
      unfold signTree? at known
      split at known <;> first | rfl | cases known
    rw [unary_succ, List.cons_append, prefixed, front]
    simp only [read, bind, Except.bind, signed_of known, checked_of_le within]

/-- An operand without sign: its first token is none. -/
theorem Complete.unsigned {n : Nat} {ts : List Token} {t : Json}
    (bare : Complete .suffixed n ts t) : Complete .operand n ts t := by
  intro within room le rest free
  obtain ⟨turns, -, read⟩ := bare within room le rest
  rw [suffixes_stop free] at read
  obtain ⟨below, same⟩ := unary_eq room
  rw [same, prefixed]
  cases front : sign? (ts ++ rest) with
  | none => exact read
  | some signed =>
    obtain ⟨o, others⟩ := signed
    rw [(sign?_eq_some front).1] at read
    cases read

/-- A primary expression at the start of the loop over members and calls. -/
theorem Complete.base {n : Nat} {ts : List Token} {t : Json}
    (base : Complete .primary n ts t) : Complete .suffixed n ts t := by
  intro within room le rest
  refine ⟨rest.length, Nat.le_refl _, ?_⟩
  rw [suffixed, base within room le rest]
  rfl

/-- A member under a name is one turn of the loop. -/
theorem Complete.member {n : Nat} {ts : List Token} {t : Json} {s : String} (flat : Flat t)
    (base : Complete .suffixed n ts t) :
    Complete .suffixed n (ts ++ [.op .dot, .name s]) (memberTree t (.str s)) := by
  intro within room le rest
  have withinBase := Nat.le_trans (depth_le_memberTree t (.str s)).1 within
  obtain ⟨turns, left, read⟩ := base withinBase room le (.op .dot :: .name s :: rest)
  cases turns with
  | zero => simp at left
  | succ turns =>
    simp only [List.length_cons] at left
    refine ⟨turns, by omega, ?_⟩
    have member : (Node.of t).member (.leaf (.str s)) = .ok (.of (memberTree t (.str s))) := by
      rw [show Node.leaf (.str s) = .of (.str s) from rfl, member_of flat, checked_of_le within]
    rw [List.append_assoc, List.cons_append, List.cons_append, List.nil_append, read,
      suffixes_succ]
    simp only [member, bind, Except.bind]

/-- A member under a computed key is one turn of the loop. -/
theorem Complete.computed {a b : Nat} {ts ks : List Token} {t key : Json} (flat : Flat t)
    (base : Complete .suffixed a ts t) (inner : Complete .whole b ks key) :
    Complete .suffixed (max a b) (ts ++ .opening .square :: (ks ++ [.closing .square]))
      (memberTree t key) := by
  intro within room le rest
  have ⟨leBase, leKey⟩ := depth_le_memberTree t key
  obtain ⟨turns, left, read⟩ := base (Nat.le_trans leBase within) room (by omega)
    (.opening .square :: (ks ++ .closing .square :: rest))
  have readKey := inner (Nat.le_trans leKey within) room (by omega) (.closing .square :: rest)
    trivial
  cases turns with
  | zero => simp at left
  | succ turns =>
    simp only [List.length_cons, List.length_append] at left
    refine ⟨turns, by omega, ?_⟩
    simp only [List.append_assoc, List.cons_append, List.nil_append]
    rw [read, suffixes_succ]
    simp only [readKey, bind, Except.bind, expectClosing, if_true, member_of flat,
      checked_of_le within]

/-- A call is one turn of the loop. -/
theorem Complete.call {a b : Nat} {fs as : List Token} {callee called : Json}
    {args : List Json} (flat : Flat callee) (base : Complete .suffixed a fs callee)
    (arguments : Complete .items b as (.arr args)) (known : callTree? callee args = some called) :
    Complete .suffixed (max a b) (fs ++ .opening .round :: (as ++ [.closing .round])) called := by
  intro within room le rest
  have ⟨leBase, leArgs⟩ := depth_le_callTree? known
  obtain ⟨turns, left, read⟩ := base (Nat.le_trans leBase within) room (by omega)
    (.opening .round :: (as ++ .closing .round :: rest))
  have readArgs := (arguments args rfl (fun u mem => Nat.le_trans (leArgs u mem) within) room
    (by omega) .round rest).1
  cases turns with
  | zero => simp at left
  | succ turns =>
    simp only [List.length_cons, List.length_append] at left
    refine ⟨turns, by omega, ?_⟩
    simp only [List.append_assoc, List.cons_append, List.nil_append]
    rw [read, suffixes_succ]
    simp only [readArgs, bind, Except.bind, call_of flat, known, checked_of_le within]

/-- An expression in brackets. -/
theorem Complete.grouped {n : Nat} {ts : List Token} {t : Json} (inner : Complete .whole n ts t) :
    Complete .primary n (.opening .round :: (ts ++ [.closing .round])) t := by
  intro within room le rest
  have read := inner within room le (.closing .round :: rest) trivial
  simp only [List.append_assoc, List.cons_append, List.nil_append]
  rw [primary]
  simp only [read, bind, Except.bind]

/-- A list. -/
theorem Complete.list {n : Nat} {ts : List Token} {trees : List Json}
    (inner : Complete .items n ts (.arr trees)) :
    Complete .primary n (.opening .square :: (ts ++ [.closing .square]))
      (.arr (.str "list" :: trees)) := by
  intro within room le rest
  have withinItems : ∀ u ∈ trees, u.depth ≤ depthLimit := by
    intro u mem
    have bound := Json.depth_le_depthOfItems mem
    simp only [Json.depth, Json.depthOfItems] at within
    omega
  have read := (inner trees rfl withinItems room le .square rest).1
  simp only [List.append_assoc, List.cons_append, List.nil_append]
  rw [primary]
  simp only [read, bind, Except.bind, operator_of, checked_of_le within]

/-- No expression begins with a closing bracket. -/
theorem ternary_closing (room : Nat) (b : Bracket) (rest : List Token) :
    ∃ e, ternary none room (.closing b :: rest) = .error e := by
  cases room with
  | zero => exact ⟨.tooDeep, by rw [ternary, tooDeep]⟩
  | succ room =>
    obtain ⟨below, same⟩ := unary_eq room
    refine ⟨.unbalanced, ?_⟩
    rw [ternary, same]
    rfl

/-- Items that are at least one are a list. -/
theorem list_of_items {room : Nat} {close : Bracket} {ts rest : List Token} {nodes : List Node}
    (read : items none (ternary none room) close (ts.length + 1) ts = .ok (nodes, rest)) :
    Snippet.list none (ternary none room) close ts = .ok (nodes, rest) := by
  rw [Snippet.list, peek_none]
  simp only [bind, Except.bind]
  split
  · rename_i b first
    cases ts with
    | nil => cases first
    | cons t others =>
      obtain rfl : t = .closing b := Option.some.inj first
      obtain ⟨e, fails⟩ := ternary_closing room b others
      rw [items, fails] at read
      cases read
  · exact read

/-- No items. -/
theorem Complete.none : Complete .items 0 [] (.arr []) := by
  intro trees same _ room _ close rest
  cases same
  refine ⟨?_, fun nonempty => absurd rfl nonempty⟩
  rw [List.nil_append, Snippet.list, peek_none]
  simp only [bind, Except.bind, List.head?_cons, if_true, List.tail_cons, List.map_nil]

/-- One item. -/
theorem Complete.one {n : Nat} {ts : List Token} {t : Json} (item : Complete .whole n ts t) :
    Complete .items n ts (.arr [t]) := by
  intro trees same within room le close rest
  cases same
  have read := item (within t List.mem_cons_self) room le (.closing close :: rest) trivial
  have readAll (bound : Nat) (enough : ts.length < bound) :
      items Option.none (ternary Option.none room) close bound (ts ++ .closing close :: rest) =
        .ok ([t].map .of, rest) := by
    cases bound with
    | zero => omega
    | succ bound =>
      rw [items]
      simp only [read, bind, Except.bind, if_true]
      rfl
  refine ⟨list_of_items (readAll _ ?_), fun _ => readAll⟩
  simp only [List.length_append]
  omega

/-- An item, a comma and at least one more item. -/
theorem Complete.more {a b : Nat} {ts us : List Token} {t u : Json} {trees : List Json}
    (item : Complete .whole a ts t) (others : Complete .items b us (.arr (u :: trees))) :
    Complete .items (max a b) (ts ++ .op .comma :: us) (.arr (t :: u :: trees)) := by
  intro all same within room le close rest
  cases same
  have read := item (within t List.mem_cons_self) room (by omega)
    (.op .comma :: (us ++ .closing close :: rest)) trivial
  have readOthers := (others (u :: trees) rfl (fun v mem => within v (List.mem_cons_of_mem _ mem))
    room (by omega) close rest).2 (List.cons_ne_nil u trees)
  have readAll (bound : Nat) (enough : (ts ++ .op .comma :: us).length < bound) :
      items Option.none (ternary Option.none room) close bound
          ((ts ++ .op .comma :: us) ++ .closing close :: rest) =
        .ok ((t :: u :: trees).map .of, rest) := by
    simp only [List.length_append, List.length_cons] at enough
    cases bound with
    | zero => omega
    | succ bound =>
      rw [List.append_assoc, List.cons_append, items]
      simp only [read, bind, Except.bind, readOthers bound (by omega)]
      rfl
  refine ⟨list_of_items (readAll _ ?_), fun _ => readAll⟩
  simp only [List.length_append]
  omega

end DerivedTags.Snippet
