import DerivedTags.Journal.Event

/-!
# The limit on logged failures

Every failure of a calculated tag is counted. The first ones are logged, and
with the last of these a summary; after that the log stays silent.
-/

namespace DerivedTags

/-- Counters of failures. -/
structure FailureCount where
  /-- How many failures are logged at most. -/
  limit : Nat
  /-- How many failures there were. -/
  failures : Nat
  /-- How many of them were logged. -/
  reported : Nat
  deriving DecidableEq, Repr

namespace FailureCount

/-- No failure yet. -/
def start (limit : Nat) : FailureCount := ⟨limit, 0, 0⟩

/-- Whether further failures are only counted. -/
def isSilent (l : FailureCount) : Bool := l.limit ≤ l.reported

/-- The counters after one more failure. -/
def count (l : FailureCount) : FailureCount :=
  ⟨l.limit, l.failures + 1, if l.isSilent then l.reported else l.reported + 1⟩

/-- The lines that one more failure puts into the log. -/
def lines (l : FailureCount) (f : TagFailure) (cause : String) : List LogLine :=
  if l.isSilent then []
  else if l.reported + 1 = l.limit then [.tagFailed f cause, .limitReached l.limit]
  else [.tagFailed f cause]

/-- A failure leaves the limit as it is. -/
theorem limit_count (l : FailureCount) : l.count.limit = l.limit := rfl

/-- No more failures are logged than the limit says. -/
theorem reported_count_le {l : FailureCount} (h : l.reported ≤ l.limit) :
    l.count.reported ≤ l.count.limit := by
  simp only [count, isSilent, decide_eq_true_eq]
  split <;> omega

end FailureCount

end DerivedTags
