import DerivedTags.Proofs.Snippet.ReaderComplete

/-!
# The reader accepts exactly its grammar

A sequence of tokens is read to a tree exactly if the grammar derives it with this
tree, no way through the derivation has more frames than the limit, and the tree is
not deeper than the limit.
-/

namespace DerivedTags.Snippet

/-- An expression of stronger operators alone. -/
theorem Complete.stronger {i n : Nat} {ts : List Token} {t : Json}
    (inner : Complete (.level (i + 1)) n ts t) : Complete (.level i) n ts t := by
  intro within room le rest bare below j level bound enough
  have belowInner : Below (i + 2) rest := fun o others k same known =>
    Nat.lt_succ_of_lt (below o others k same known)
  exact inner within room le rest bare belowInner j (Nat.le_succ_of_le level) bound enough

/-- Whatever the grammar derives within the limits the reader takes. -/
theorem Derives.complete {p : Phrase} {n : Nat} {ts : List Token} {t : Json}
    (derivation : Derives p n ts t) : Complete p n ts t := by
  induction derivation with
  | plain _ expression => exact expression.plain
  | choice _ _ _ condition yes no => exact condition.choice yes no
  | operand _ operand => exact operand.single
  | stronger _ inner => exact inner.stronger
  | joined known _ _ left right => exact Complete.joined known left right
  | sign known _ operand => exact operand.sign known
  | suffixed _ bare => exact bare.unsigned
  | primary _ base => exact base.base
  | member base read => exact read.member (base.flat (by simp))
  | computed base _ read inner => exact read.computed (base.flat (by simp)) inner
  | call base _ known read arguments => exact read.call (base.flat (by simp)) arguments known
  | number n => exact fun _ _ _ _ => rfl
  | text s => exact fun _ _ _ _ => rfl
  | name s => exact fun _ _ _ rest => by rw [List.singleton_append, Snippet.primary, ofName_eq]
  | grouped _ inner => exact inner.grouped
  | list _ inner => exact inner.list
  | none => exact .none
  | one _ item => exact item.one
  | more _ _ item others => exact item.more others

/-- A sequence of tokens is an expression with a tree within the limits: its tokens
did not end in a fault, the grammar derives it with no more frames on any way than
the limit, and no operator of the tree is deeper than the limit. -/
def Accepted (source : Tokens) (t : Json) : Prop :=
  source.fault = none ∧ t.depth ≤ depthLimit ∧
    ∃ n ≤ depthLimit, Derives .whole n source.tokens t

/-- What is read is accepted. -/
theorem accepted_of_treeOf {source : Tokens} {t : Json} (h : treeOf source = .ok t) :
    Accepted source t := by
  obtain ⟨⟨node, rest⟩, read, h⟩ := bind_eq_ok_iff.mp h
  obtain ⟨n, pre, u, le, same, rfl, within, derivation⟩ :=
    (unary_ternary_sound source.fault depthLimit).2 _ _ _ read
  dsimp only at h
  split at h
  · obtain ⟨next, peeked, h⟩ := bind_eq_ok_iff.mp h
    cases h
    have unbroken : source.fault = none := by
      cases fault : source.fault with
      | none => rfl
      | some e =>
        rw [fault] at peeked
        cases peeked
    rw [List.append_nil] at same
    exact ⟨unbroken, within, n, le, same ▸ derivation⟩
  · cases h
  · cases h

/-- What is accepted is read. -/
theorem treeOf_of_accepted {source : Tokens} {t : Json} (h : Accepted source t) :
    treeOf source = .ok t := by
  obtain ⟨unbroken, within, n, le, derivation⟩ := h
  have read := derivation.complete within depthLimit le [] trivial
  rw [List.append_nil] at read
  rw [treeOf, unbroken, read]
  rfl

/-- A sequence of tokens is read to a tree exactly if it is accepted with this tree,
and it is accepted with one tree at most. -/
theorem treeOf_eq_ok_iff (source : Tokens) :
    (∀ t, treeOf source = .ok t ↔ Accepted source t) ∧
      ∀ t u, Accepted source t → Accepted source u → t = u := by
  constructor
  · exact fun t => ⟨accepted_of_treeOf, treeOf_of_accepted⟩
  · intro t u first second
    have same := (treeOf_of_accepted first).symm.trans (treeOf_of_accepted second)
    exact Except.ok.inj same

end DerivedTags.Snippet
