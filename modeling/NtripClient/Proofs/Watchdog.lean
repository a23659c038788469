import NtripClient.Watchdog

/-!
# `NtripClient.Proofs.Watchdog`: a timer that is set again only when it goes off

A watchdog sets its timer as seldom as it can: progress moves the deadline and leaves the timer
behind, and a poll sets the timer to the deadline if it has gone off too early. So the timer may
have gone off long before it is looked at, while nobody waited for it. `Eager` is the plain way to
do the same: a timer that is set again with every sign of progress.

* `reset_spec` and `poll_spec` say all that progress and a poll do, as long as the timer is not
  later than the deadline. Both keep it so.
* `Keeps.take`: whatever is done with a watchdog, its deadline is the last progress and the limit.
* `keepsTime_takeAll` is the main statement: in every order of resets, polls and waits that are
  given up, a watchdog expires exactly when the eager one does.
* `Rearms` is one turn of the loop in a poll. There is at most one, even if the clock moves on
  while it is made (`Rearms.last`).
-/

set_option autoImplicit false

namespace NtripClient.Watchdog

/-! ### One use -/

/-- A watch has expired when both the timer and the deadline have passed. -/
theorem watch_fst (now deadline timer : Nat) :
    (watch now deadline timer).1 = decide (max timer deadline ≤ now) := by
  fun_induction watch now deadline timer with
  | case1 timer hlt => exact (decide_eq_false (by omega)).symm
  | case2 timer _ _ ih => exact ih.trans (decide_eq_decide.2 (by omega))
  | case3 timer _ _ => exact (decide_eq_true (by omega)).symm

/-- A watchdog has expired once its alarm has gone off. -/
theorem poll_fst (watchdog : Watchdog) (now : Nat) :
    (watchdog.poll now).1 = watchdog.alarm?.any fun alarm => decide (alarm ≤ now) := by
  unfold poll alarm?
  cases watchdog.timeout with
  | none => rfl
  | some limit => exact watch_fst now watchdog.deadline watchdog.timer

/-- A timer that is not later than the deadline announces it in time, and stays so. -/
theorem watch_spec (now : Nat) {deadline timer : Nat} (h : timer ≤ deadline) :
    (watch now deadline timer).1 = decide (deadline ≤ now) ∧
      (watch now deadline timer).2 ≤ deadline := by
  constructor
  · rw [watch_fst, Nat.max_eq_right h]
  · fun_induction watch now deadline timer with
    | case1 timer _ => exact h
    | case2 timer _ _ ih => exact ih (Nat.le_refl _)
    | case3 timer _ _ => exact h

/-- Progress moves the deadline, and leaves the timer behind. -/
theorem reset_spec {watchdog : Watchdog} {now : Nat} (h : watchdog.timer ≤ watchdog.deadline)
    (hdeadline : ∀ limit, watchdog.timeout = some limit → watchdog.deadline ≤ now + limit) :
    (watchdog.reset now).timer ≤ (watchdog.reset now).deadline ∧
      ∀ limit, watchdog.timeout = some limit →
        (watchdog.reset now).deadline = now + limit := by
  unfold reset
  cases htimeout : watchdog.timeout with
  | none => exact ⟨h, nofun⟩
  | some limit =>
    have hlater := hdeadline limit htimeout
    refine ⟨Nat.le_trans h hlater, ?_⟩
    intro other hother
    cases hother
    rfl

/-- Asking a watchdog moves its timer at most. -/
theorem poll_spec {watchdog watchdog' : Watchdog} {now : Nat} {expired : Bool}
    (h : watchdog.timer ≤ watchdog.deadline) (hpoll : watchdog.poll now = (expired, watchdog')) :
    watchdog'.timeout = watchdog.timeout ∧ watchdog'.deadline = watchdog.deadline ∧
      watchdog'.timer ≤ watchdog'.deadline ∧
      (expired = true ↔ watchdog.timeout ≠ none ∧ watchdog.deadline ≤ now) := by
  unfold poll at hpoll
  split at hpoll
  · rename_i hnone
    cases hpoll
    exact ⟨rfl, rfl, h, by simp [hnone]⟩
  · rename_i limit hsome
    obtain ⟨hexpired, htimer⟩ := watch_spec now h
    cases hpoll
    exact ⟨rfl, rfl, htimer, by simp [hsome, hexpired]⟩

/-- The alarm goes off at the deadline. -/
theorem alarm?_eq {watchdog : Watchdog} (h : watchdog.timer ≤ watchdog.deadline) :
    watchdog.alarm? = watchdog.timeout.map fun _ => watchdog.deadline := by
  rw [alarm?, Nat.max_eq_right h]

/-! ### The loop in a poll -/

/-- One turn of the loop: the timer has gone off, but the deadline lies ahead, so the timer is set
to it. -/
structure Rearms (now deadline timer set : Nat) : Prop where
  off : timer ≤ now
  ahead : now < deadline
  eq : set = deadline

/-- A timer that was set to the deadline is not set again, even if the clock has moved on. -/
theorem Rearms.last {now later deadline timer set next : Nat} (h : Rearms now deadline timer set) :
    ¬ Rearms later deadline set next := by
  intro hagain
  have hoff := hagain.off
  have hahead := hagain.ahead
  rw [h.eq] at hoff
  omega

/-- The loop makes one turn or none, and then no further one. -/
theorem watch_settles (now deadline timer : Nat) :
    ((watch now deadline timer).2 = timer ∨
        Rearms now deadline timer (watch now deadline timer).2) ∧
      ∀ next, ¬ Rearms now deadline (watch now deadline timer).2 next := by
  fun_induction watch now deadline timer with
  | case1 timer hlt =>
    refine ⟨.inl rfl, ?_⟩
    intro next hturn
    have hoff := hturn.off
    omega
  | case2 timer hoff hahead ih =>
    have hfirst : Rearms now deadline timer deadline := ⟨Nat.not_lt.1 hoff, hahead, rfl⟩
    -- The second turn finds the timer at the deadline, so it is none.
    have hset : (watch now deadline deadline).2 = deadline := by
      rcases ih.1 with hsame | hsecond
      · exact hsame
      · exact absurd hsecond hfirst.last
    refine ⟨.inr ?_, ih.2⟩
    rwa [hset]
  | case3 timer hoff hpassed =>
    refine ⟨.inl rfl, ?_⟩
    intro next hturn
    have hahead := hturn.ahead
    omega

/-! ### Many uses -/

/-- What is done with a watchdog. -/
inductive Use where
  /-- Progress is noted. -/
  | reset
  /-- A wait for the expiry is begun, or looks again. -/
  | poll
  /-- A wait that is pending is given up. -/
  | drop
deriving DecidableEq

/-- A watchdog after one use. A wait has nothing but the watchdog, so one that is given up leaves
the timer as it is set. -/
def take (watchdog : Watchdog) (now : Nat) : Use → Watchdog
  | .reset => watchdog.reset now
  | .poll => (watchdog.poll now).2
  | .drop => watchdog

/-- A watchdog after many uses, with their instants. -/
def takeAll (watchdog : Watchdog) (uses : List (Nat × Use)) : Watchdog :=
  uses.foldl (fun watchdog use => watchdog.take use.1 use.2) watchdog

/-- A timer that is set again with every sign of progress. -/
structure Eager where
  /-- How long progress may be missing. -/
  limit : Nat
  /-- The instant at which the timer goes off. -/
  timer : Nat

namespace Eager

/-- A timer that is set at an instant. -/
def new (limit now : Nat) : Eager :=
  { limit, timer := now + limit }

/-- The timer after one use. -/
def take (eager : Eager) (now : Nat) : Use → Eager
  | .reset => { eager with timer := now + eager.limit }
  | .poll | .drop => eager

/-- The timer after many uses. -/
def takeAll (eager : Eager) (uses : List (Nat × Use)) : Eager :=
  uses.foldl (fun eager use => eager.take use.1 use.2) eager

/-- The timer has gone off. -/
def hasExpired (eager : Eager) (now : Nat) : Bool :=
  decide (eager.timer ≤ now)

end Eager

/-- The instant of the last progress: of the last reset, or the start. -/
def lastProgress (start : Nat) (uses : List (Nat × Use)) : Nat :=
  ((uses.filter (·.2 = .reset)).map Prod.fst).getLast?.getD start

section
variable {watchdog : Watchdog} {limit start last now : Nat} {use : Use} {uses : List (Nat × Use)}

/-- A reset is the last progress until the next one. -/
theorem lastProgress_cons (now : Nat) (use : Use) (uses : List (Nat × Use)) :
    lastProgress start ((now, use) :: uses)
      = lastProgress (if use = .reset then now else start) uses := by
  unfold lastProgress
  cases use with
  | reset => simp [List.getLast?_cons]
  | poll => simp
  | drop => simp

/-- The deadline of a watchdog is the last progress and the limit, and its timer is not later. -/
structure Keeps (limit last : Nat) (watchdog : Watchdog) : Prop where
  timeout : watchdog.timeout = some limit
  deadline : watchdog.deadline = last + limit
  timer : watchdog.timer ≤ watchdog.deadline

/-- A new watchdog has its first deadline, and its timer is set to it. -/
theorem keeps_new (hlimit : 0 < limit) (start : Nat) :
    Keeps limit start (new (some limit) start) := by
  have htimeout : (some limit).filter (· != 0) = some limit := by
    rw [Option.filter_some, if_pos]
    simp
    omega
  constructor
  · exact htimeout
  · simp [new, htimeout]
  · exact Nat.le_refl _

/-- Every use keeps them so, with the progress that it makes. -/
theorem Keeps.take (h : Keeps limit last watchdog) (hnow : last ≤ now) :
    Keeps limit (if use = .reset then now else last) (watchdog.take now use) := by
  cases use with
  | reset =>
    -- Time has not run backwards since the last progress, so the deadline moves forward, and the
    -- timer that is left behind is still not later.
    have hlater : ∀ other, watchdog.timeout = some other → watchdog.deadline ≤ now + other := by
      intro other hother
      rw [h.timeout] at hother
      cases hother
      rw [h.deadline]
      omega
    obtain ⟨htimer, hdeadline⟩ := reset_spec h.timer hlater
    have htimeout : (watchdog.reset now).timeout = watchdog.timeout := by
      simp only [reset, h.timeout]
    exact ⟨htimeout.trans h.timeout, hdeadline limit h.timeout, htimer⟩
  | poll =>
    obtain ⟨htimeout, hdeadline, htimer, -⟩ := poll_spec h.timer (Eq.refl (watchdog.poll now))
    exact ⟨htimeout.trans h.timeout, hdeadline.trans h.deadline, htimer⟩
  | drop => exact h

/-- Any number of uses does, if time does not run backwards. -/
theorem Keeps.takeAll {clock : Nat} (h : Keeps limit last watchdog) (hlast : last ≤ clock)
    (huses : (clock :: uses.map Prod.fst).Pairwise (· ≤ ·)) :
    Keeps limit (lastProgress last uses) (watchdog.takeAll uses) := by
  -- Over the uses, with the instant of the one before. The last progress is not later than it.
  induction uses generalizing watchdog last clock with
  | nil => exact h
  | cons use uses ih =>
    obtain ⟨now, use⟩ := use
    obtain ⟨hfirst, hrest⟩ := List.pairwise_cons.1 huses
    have hnow : clock ≤ now := hfirst now List.mem_cons_self
    rw [lastProgress_cons]
    refine ih (h.take (by omega)) ?_ hrest
    split <;> omega

/-- The eager timer is always that of the last progress. -/
theorem Eager.takeAll_new (uses : List (Nat × Use)) :
    (Eager.new limit start).takeAll uses = Eager.new limit (lastProgress start uses) := by
  induction uses generalizing start with
  | nil => rfl
  | cons use uses ih =>
    obtain ⟨now, use⟩ := use
    rw [lastProgress_cons, ← ih]
    cases use <;> rfl

end

/-- What comes of a watchdog with a limit that was set at some instant and then used. -/
structure KeepsTime (limit start : Nat) (uses : List (Nat × Use)) (watchdog : Watchdog) :
    Prop where
  /-- It expires exactly if the last progress is as long ago as the limit. -/
  expires : ∀ now, (watchdog.poll now).1 = true ↔ lastProgress start uses + limit ≤ now
  /-- A timer that is set with every sign of progress does the same. -/
  eager : ∀ now,
    (watchdog.poll now).1 = ((Eager.new limit start).takeAll uses).hasExpired now
  /-- The timer is not set later than the deadline. -/
  inTime : watchdog.timer ≤ watchdog.deadline ∧
    watchdog.deadline = lastProgress start uses + limit
  /-- A wait that goes on has a timer that will go off, and not later than the deadline. -/
  wakes : ∀ now, (watchdog.poll now).1 = false → now < (watchdog.poll now).2.timer ∧
    (watchdog.poll now).2.timer ≤ lastProgress start uses + limit
  /-- The loop in a poll makes at most one turn, and none is left when it ends. -/
  settles : ∀ now,
    ((watchdog.poll now).2.timer = watchdog.timer ∨
        Rearms now watchdog.deadline watchdog.timer (watchdog.poll now).2.timer) ∧
      ∀ next, ¬ Rearms now watchdog.deadline (watchdog.poll now).2.timer next
  /-- So it is even if the clock moves on between two turns. -/
  once : ∀ now later set next, Rearms now watchdog.deadline watchdog.timer set →
    ¬ Rearms later watchdog.deadline set next

/-- **A timer that is set as seldom as possible is as good as one that is set every time.** For
every limit and every order of resets, polls and waits that are given up, at instants that do not
run backwards, a watchdog expires exactly when the limit has passed since the last progress. -/
theorem keepsTime_takeAll {limit start : Nat} {uses : List (Nat × Use)} (hlimit : 0 < limit)
    (huses : (start :: uses.map Prod.fst).Pairwise (· ≤ ·)) :
    KeepsTime limit start uses ((new (some limit) start).takeAll uses) := by
  have hkeeps := (keeps_new hlimit start).takeAll (Nat.le_refl start) huses
  generalize (new (some limit) start).takeAll uses = watchdog at hkeeps
  -- The lazy timer is never late, so polling it compares the clock with the true deadline.
  have hexpires : ∀ now, (watchdog.poll now).1 = true ↔ lastProgress start uses + limit ≤ now := by
    intro now
    rw [poll_fst, alarm?_eq hkeeps.timer, hkeeps.timeout, hkeeps.deadline]
    simp
  have hpoll : ∀ now, watchdog.poll now
      = ((watch now watchdog.deadline watchdog.timer).1,
        { watchdog with timer := (watch now watchdog.deadline watchdog.timer).2 }) := by
    intro now
    simp only [poll, hkeeps.timeout]
  constructor
  case expires => exact hexpires
  case eager =>
    intro now
    rw [Eager.takeAll_new, Bool.eq_iff_iff, hexpires]
    exact decide_eq_true_iff.symm
  case inTime => exact ⟨hkeeps.timer, hkeeps.deadline⟩
  case wakes =>
    intro now hwaits
    rw [hpoll] at hwaits ⊢
    rw [← hkeeps.deadline]
    exact ⟨lt_of_watch (Prod.ext hwaits rfl), (watch_spec now hkeeps.timer).2⟩
  case settles =>
    intro now
    rw [hpoll]
    exact watch_settles now watchdog.deadline watchdog.timer
  case once => exact fun now later set next hturn => hturn.last

/-- With a limit of five, the timer goes off at five while nobody waits. A wait that is given up
sets it to nine, and progress at eight moves the deadline past that. -/
def forgottenUses : List (Nat × Use) :=
  [(1, .poll), (1, .drop), (4, .reset), (7, .poll), (7, .drop), (8, .reset), (10, .poll)]

/-- A wait goes on at twelve, though the timer went off at nine, and it ends at thirteen. -/
theorem keepsTime_takeAll_forgottenUses :
    (0 :: forgottenUses.map Prod.fst).Pairwise (· ≤ ·) ∧
      (((new (some 5) 0).takeAll forgottenUses).poll 12).1 = false ∧
      (((new (some 5) 0).takeAll forgottenUses).poll 13).1 = true ∧
      ((new (some 5) 0).takeAll forgottenUses).deadline = 13 := by
  have htimely : (0 :: forgottenUses.map Prod.fst).Pairwise (· ≤ ·) := by decide
  have hkeeps := keepsTime_takeAll (show 0 < 5 by decide) htimely
  have hlast : lastProgress 0 forgottenUses = 8 := by decide
  refine ⟨htimely, ?_, ?_, ?_⟩
  · simp [Bool.eq_false_iff, hkeeps.expires, hlast]
  · simp [hkeeps.expires, hlast]
  · rw [hkeeps.inTime.2, hlast]

end NtripClient.Watchdog
