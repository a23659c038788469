/-!
# `NtripClient.Watchdog`: the limit on idle time

A watchdog has a deadline, which moves with every sign of progress, and a timer,
which does not. The timer is set again only when it goes off too early: if the
deadline has moved past the present by then, the timer is set to the deadline and
the watchdog sleeps on.

Instants and times are natural numbers, in milliseconds. Without a timeout a
watchdog never expires.
-/

set_option autoImplicit false

namespace NtripClient

/-- The state of an idle limit. -/
structure Watchdog where
  /-- How long progress may be missing. -/
  timeout : Option Nat
  /-- The instant at which it will have been missing too long. -/
  deadline : Nat
  /-- The instant at which the timer goes off. -/
  timer : Nat
deriving DecidableEq, Repr

namespace Watchdog

/-- A watchdog set at an instant. A timeout of zero is none. -/
def new (timeout : Option Nat) (now : Nat) : Watchdog :=
  let timeout := timeout.filter (· != 0)
  let deadline := now + timeout.getD 0
  { timeout, deadline, timer := deadline }

/-- Notes progress at an instant. The timer stays as it is. -/
def reset (watchdog : Watchdog) (now : Nat) : Watchdog :=
  match watchdog.timeout with
  | some timeout => { watchdog with deadline := now + timeout }
  | none => watchdog

/-- The timer, watched at one instant: if it has gone off before the deadline it
is set to the deadline and watched again. Returns whether the deadline has passed,
and the instant the timer is set to. -/
def watch (now deadline timer : Nat) : Bool × Nat :=
  if now < timer then (false, timer)
  else if now < deadline then watch now deadline deadline
  else (true, timer)
termination_by now + 1 - timer

/-- Asks at an instant whether the watchdog has expired. -/
def poll (watchdog : Watchdog) (now : Nat) : Bool × Watchdog :=
  match watchdog.timeout with
  | none => (false, watchdog)
  | some _ =>
    let (expired, timer) := watch now watchdog.deadline watchdog.timer
    (expired, { watchdog with timer })

/-- The instant at which the watchdog would wake a sleeper with an expiry, if no
progress were made until then. -/
def alarm? (watchdog : Watchdog) : Option Nat :=
  watchdog.timeout.map fun _ => max watchdog.timer watchdog.deadline

/-- A timer that has not announced the deadline is set to a later instant. -/
theorem lt_of_watch {now deadline timer set : Nat}
    (h : watch now deadline timer = (false, set)) : now < set := by
  fun_induction watch now deadline timer with
  | case1 timer hlt => simp_all
  | case2 timer _ _ ih => exact ih h
  | case3 timer _ _ => simp at h

/-- Setting the timer again does not change which of timer and deadline is later. -/
theorem max_watch {now deadline timer set : Nat}
    (h : watch now deadline timer = (false, set)) : max set deadline = max timer deadline := by
  fun_induction watch now deadline timer with
  | case1 timer _ => cases h; rfl
  | case2 timer _ _ ih => have := ih h; omega
  | case3 timer _ _ => simp at h

/-- A watchdog that has not expired will do so later, if ever. -/
theorem lt_alarm_of_poll {watchdog watchdog' : Watchdog} {now alarm : Nat}
    (h : watchdog.poll now = (false, watchdog')) (ha : watchdog'.alarm? = some alarm) :
    now < alarm := by
  unfold poll at h
  split at h
  · rename_i hnone
    cases h
    simp [alarm?, hnone] at ha
  · rename_i timeout hsome
    cases hw : watch now watchdog.deadline watchdog.timer with
    | mk expired timer =>
      rw [hw] at h
      cases h
      have hlt := lt_of_watch hw
      simp only [alarm?, hsome, Option.map_some, Option.some.injEq] at ha
      omega

/-- Asking a watchdog that has not expired does not move its alarm. -/
theorem alarm?_poll {watchdog watchdog' : Watchdog} {now : Nat}
    (h : watchdog.poll now = (false, watchdog')) : watchdog'.alarm? = watchdog.alarm? := by
  unfold poll at h
  split at h
  · cases h; rfl
  · rename_i timeout hsome
    cases hw : watch now watchdog.deadline watchdog.timer with
    | mk expired timer =>
      rw [hw] at h
      cases h
      simp only [alarm?, hsome, Option.map_some, max_watch hw]

end Watchdog

end NtripClient
