import DerivedTags.Proofs.Journal.Running

/-!
# The limit on the log of failed tags

A session records what is put into the log irrespective of the limit: lines that are not
about failed tags, and failures. The limit decides only which lines the failures become
and how many count as reported. A computation that goes from record to record whatever
the limit is gives the same under every limit, and so do such computations in sequence.
-/

namespace DerivedTags

/-- Whether a line of the log is about failed tags. -/
def LogLine.isAboutTags : LogLine → Bool
  | .tagFailed .. | .limitReached _ => true
  | _ => false

/-- What is put into the log, irrespective of the limit. -/
inductive LogEntry where
  /-- A line that is not about failed tags. -/
  | line (line : LogLine) (other : line.isAboutTags = false)
  /-- A failed tag, and why it failed. -/
  | failed (f : TagFailure) (cause : String)

/-- The failures among what is put into the log. -/
def LogEntry.told : List LogEntry → List (TagFailure × String)
  | [] => []
  | .line .. :: rest => told rest
  | .failed f cause :: rest => (f, cause) :: told rest

/-- The lines that are not about failed tags. -/
def LogEntry.otherLines : List LogEntry → List LogLine
  | [] => []
  | .line l _ :: rest => l :: otherLines rest
  | .failed .. :: rest => otherLines rest

namespace FailureCount

open LogEntry (told otherLines)

/-- The lines that entries become, with some failures counted before. -/
def log : FailureCount → List LogEntry → List LogLine
  | _, [] => []
  | c, .line l _ :: rest => l :: c.log rest
  | c, .failed f cause :: rest => c.lines f cause ++ c.count.log rest

/-- The counters after entries. -/
def after : FailureCount → List LogEntry → FailureCount
  | c, [] => c
  | c, .line .. :: rest => c.after rest
  | c, .failed .. :: rest => c.count.after rest

/-- The lines of further entries follow from the counters. -/
theorem log_append (c : FailureCount) (entries more : List LogEntry) :
    c.log (entries ++ more) = c.log entries ++ (c.after entries).log more := by
  induction entries generalizing c with
  | nil => rfl
  | cons entry rest ih =>
    cases entry with
    | line l other => exact congrArg (l :: ·) (ih c)
    | failed f cause =>
      rw [List.cons_append, log, log, after, ih, List.append_assoc]

/-- The counters go on with further entries. -/
theorem after_append (c : FailureCount) (entries more : List LogEntry) :
    c.after (entries ++ more) = (c.after entries).after more := by
  induction entries generalizing c with
  | nil => rfl
  | cons entry rest ih =>
    cases entry with
    | line l other => exact ih c
    | failed f cause => exact ih c.count

/-- Every failure is counted, and as many are reported as the limit allows. -/
theorem after_eq {c : FailureCount} (within : c.reported ≤ c.limit) (entries : List LogEntry) :
    c.after entries = ⟨c.limit, c.failures + (told entries).length,
      min (c.reported + (told entries).length) c.limit⟩ := by
  induction entries generalizing c with
  | nil =>
    rw [after, told, List.length_nil, Nat.add_zero, Nat.add_zero, Nat.min_eq_left within]
  | cons entry rest ih =>
    cases entry with
    | line l other => exact ih within
    | failed f cause =>
      rw [after, ih (reported_count_le within), told, List.length_cons]
      simp only [count, isSilent, decide_eq_true_eq, mk.injEq, true_and]
      constructor
      · omega
      · split <;> omega

/-- The warning about a failure. -/
def warning (failure : TagFailure × String) : LogLine := .tagFailed failure.1 failure.2

/-- The lines about failures of which so many more may be logged under a limit: warnings,
and the summary behind the last one that is allowed. -/
def reportWithin (limit room : Nat) (failures : List (TagFailure × String)) : List LogLine :=
  (failures.take room).map warning ++
    if 0 < room ∧ room ≤ failures.length then [.limitReached limit] else []

/-- Without room nothing is reported. -/
theorem reportWithin_zero (limit : Nat) (failures : List (TagFailure × String)) :
    reportWithin limit 0 failures = [] := by
  simp [reportWithin]

/-- The summary stands behind the last warning. -/
theorem reportWithin_one (limit : Nat) (failure : TagFailure × String)
    (rest : List (TagFailure × String)) :
    reportWithin limit 1 (failure :: rest) = [warning failure, .limitReached limit] := by
  simp [reportWithin]

/-- While there is room for more, a failure becomes a warning. -/
theorem reportWithin_succ (limit room : Nat) (failure : TagFailure × String)
    (rest : List (TagFailure × String)) :
    reportWithin limit (room + 2) (failure :: rest) =
      warning failure :: reportWithin limit (room + 1) rest := by
  simp [reportWithin]

/-- Every failure takes some of the room that is left. -/
theorem room_count (c : FailureCount) :
    c.count.limit - c.count.reported = c.limit - c.reported - 1 := by
  simp only [count, isSilent, decide_eq_true_eq]
  split <;> omega

/-- The lines of a failure stand before those of the failures behind it. -/
theorem lines_append_reportWithin (c : FailureCount) (f : TagFailure) (cause : String)
    (rest : List (TagFailure × String)) :
    c.lines f cause ++ reportWithin c.limit (c.limit - c.reported - 1) rest =
      reportWithin c.limit (c.limit - c.reported) ((f, cause) :: rest) := by
  rcases room : c.limit - c.reported with _ | _ | more
  · have silent : c.isSilent = true := decide_eq_true (by omega)
    rw [lines, silent, reportWithin_zero, reportWithin_zero]
    rfl
  · have loud : c.isSilent = false := decide_eq_false (by omega)
    have last : c.reported + 1 = c.limit := by omega
    rw [lines, loud, if_pos last, reportWithin_one, reportWithin_zero]
    rfl
  · have loud : c.isSilent = false := decide_eq_false (by omega)
    have early : ¬ c.reported + 1 = c.limit := by omega
    rw [lines, loud, if_neg early, reportWithin_succ]
    rfl

/-- The lines that a failure becomes are about failed tags. -/
theorem isAboutTags_of_mem_lines {c : FailureCount} {f : TagFailure} {cause : String}
    {line : LogLine} (mem : line ∈ c.lines f cause) : line.isAboutTags = true := by
  unfold lines at mem
  split at mem
  · cases mem
  · split at mem
    · simp only [List.mem_cons, List.not_mem_nil, or_false] at mem
      rcases mem with rfl | rfl <;> rfl
    · obtain rfl := List.mem_singleton.mp mem
      rfl

/-- Entries make the log say about failed tags what the room that is left allows. -/
theorem filter_log (c : FailureCount) (entries : List LogEntry) :
    (c.log entries).filter LogLine.isAboutTags =
      reportWithin c.limit (c.limit - c.reported) (told entries) := by
  induction entries generalizing c with
  | nil =>
    have nothing (room : Nat) : reportWithin c.limit room [] = [] := by
      cases room <;> simp [reportWithin]
    rw [log, told, nothing, List.filter_nil]
  | cons entry rest ih =>
    cases entry with
    | line l other =>
      rw [log, List.filter_cons_of_neg (by simp [other]), ih, told]
    | failed f cause =>
      have all : (c.lines f cause).filter LogLine.isAboutTags = c.lines f cause :=
        List.filter_eq_self.mpr fun _ mem => isAboutTags_of_mem_lines mem
      rw [log, List.filter_append, all, ih, room_count, limit_count, lines_append_reportWithin,
        told]

/-- The limit does not concern the other lines of the log. -/
theorem filter_not_log (c : FailureCount) (entries : List LogEntry) :
    (c.log entries).filter (fun line => !line.isAboutTags) = otherLines entries := by
  induction entries generalizing c with
  | nil => rfl
  | cons entry rest ih =>
    cases entry with
    | line l other =>
      rw [log, List.filter_cons_of_pos (by simp [other]), ih, otherLines]
    | failed f cause =>
      have none : (c.lines f cause).filter (fun line => !line.isAboutTags) = [] :=
        List.filter_eq_nil_iff.mpr fun line mem => by simp [isAboutTags_of_mem_lines mem]
      rw [log, List.filter_append, none, List.nil_append, ih, otherLines]

end FailureCount

/-- What happened in a session, irrespective of the limit. -/
structure Record where
  /-- The calls of collaborators in order. -/
  calls : List Call
  /-- What was put into the log, in order. -/
  entries : List LogEntry
  /-- The deferred properties under computation, innermost first. -/
  evaluating : List Nat
  /-- The number of the next deferred property. -/
  nextDeferred : Nat
  /-- How often the clock was read. -/
  ticks : Nat

namespace Record

/-- Nothing has happened. -/
def start : Record := ⟨[], [], [], 0, 0⟩

/-- The session in which the same happened under a limit. -/
def session (r : Record) (limit : Nat) : Session where
  calls := r.calls
  log := (FailureCount.start limit).log r.entries
  failures := (FailureCount.start limit).after r.entries
  evaluating := r.evaluating
  nextDeferred := r.nextDeferred
  ticks := r.ticks

/-- The record with a further entry. -/
def add (r : Record) (entry : LogEntry) : Record := { r with entries := r.entries ++ [entry] }

/-- A line that is not about failed tags is logged under every limit. -/
theorem session_addLine (r : Record) (limit : Nat) {line : LogLine}
    (other : line.isAboutTags = false) :
    (r.session limit).addLines [line] = (r.add (.line line other)).session limit := by
  simp only [session, add, Session.addLines, FailureCount.log_append, FailureCount.after_append]
  rfl

/-- A failure is counted under every limit. -/
theorem session_addFailure (r : Record) (limit : Nat) (f : TagFailure) (cause : String) :
    (r.session limit).addEvent (.failure f cause) = (r.add (.failed f cause)).session limit := by
  simp only [session, add, Session.addEvent, Session.addLines, FailureCount.log_append,
    FailureCount.after_append, FailureCount.log, FailureCount.after, List.append_nil]

end Record

/-- The computation gives the same, and lets the same happen, under every limit. -/
def Indifferent {α : Type} (x : StateM Session α) : Prop :=
  ∀ r : Record, ∃ (a : α) (after : Record), ∀ limit, x (r.session limit) = (a, after.session limit)

namespace Indifferent

variable {α β : Type}

/-- A mere result does not depend on the limit. -/
theorem pure (a : α) : Indifferent (Pure.pure a : StateM Session α) :=
  fun r => ⟨a, r, fun _ => rfl⟩

/-- Computations that are indifferent to the limit are so in sequence. -/
theorem bind {x : StateM Session α} {f : α → StateM Session β} (first : Indifferent x)
    (onward : ∀ a, Indifferent (f a)) : Indifferent (x >>= f) := by
  intro r
  obtain ⟨a, middle, ran⟩ := first r
  obtain ⟨b, after, ranOn⟩ := onward a middle
  refine ⟨b, after, fun limit => ?_⟩
  rw [Session.bind_apply, ran, ranOn]

/-- Events become known under every limit. -/
theorem addEvent (e : Event) : Indifferent (modify (·.addEvent e) : StateM Session Unit) := by
  intro r
  cases e with
  | call c => exact ⟨(), { r with calls := r.calls ++ [c] }, fun _ => rfl⟩
  | failure f cause =>
    exact ⟨(), r.add (.failed f cause), fun limit =>
      congrArg ((), ·) (r.session_addFailure limit f cause)⟩

/-- Lines that are not about failed tags are logged under every limit. -/
theorem writeLine {line : LogLine} (other : line.isAboutTags = false) :
    Indifferent (writeLine line) :=
  fun r => ⟨(), r.add (.line line other), fun limit =>
    congrArg ((), ·) (r.session_addLine limit other)⟩

/-- The clock is read under every limit. -/
theorem tick : Indifferent tick :=
  fun r => ⟨r.ticks, { r with ticks := r.ticks + 1 }, fun _ => rfl⟩

/-- Numbers are taken under every limit. -/
theorem newDeferred : Indifferent newDeferred :=
  fun r => ⟨r.nextDeferred, { r with nextDeferred := r.nextDeferred + 1 }, fun _ => rfl⟩

/-- From a fresh session on, an indifferent computation gives the same, makes the same
calls and writes the same other lines under every limit. All its failures are counted, as
many are reported as the limit allows, and the log says of them what the limit allows. -/
theorem of_start {x : StateM Session α} (indifferent : Indifferent x) :
    ∃ (a : α) (calls : List Call) (others : List LogLine)
      (failures : List (TagFailure × String)), ∀ limit,
      (x (.start limit)).1 = a ∧ (x (.start limit)).2.calls = calls ∧
        (x (.start limit)).2.log.filter (fun line => !line.isAboutTags) = others ∧
        (x (.start limit)).2.failures = ⟨limit, failures.length, min failures.length limit⟩ ∧
        (x (.start limit)).2.log.filter LogLine.isAboutTags =
          FailureCount.reportWithin limit limit failures := by
  obtain ⟨a, after, ran⟩ := indifferent .start
  refine ⟨a, after.calls, LogEntry.otherLines after.entries, LogEntry.told after.entries,
    fun limit => ?_⟩
  have start : Session.start limit = Record.start.session limit := rfl
  have counted := FailureCount.after_eq (c := .start limit) (Nat.zero_le _) after.entries
  have logged := FailureCount.filter_log (.start limit) after.entries
  simp only [FailureCount.start, Nat.zero_add] at counted
  rw [start, ran]
  exact ⟨rfl, rfl, FailureCount.filter_not_log _ _, counted, logged⟩

end Indifferent

end DerivedTags
