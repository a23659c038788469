import NtripClient.Proofs.Session.Clock

/-!
# `NtripClient.Proofs.Session.Selective`: the same plan with fewer actions of the owner

`Plan.restrict` takes out of a plan the actions of the owner that are not allowed, wherever they
stand: before the start, at an instant, in the scripts, on a call, after the end. Everything else
happens as before. A script says the same at every instant (`Script.turn_restrict`), and what is
left of a schedule is in the same order (`Plan.schedule_restrict`). Two runs that differ in some
actions only are compared in this way.
-/

set_option autoImplicit false

namespace NtripClient

/-- The owner acts. -/
def Event.isAction : Event → Bool
  | .acted _ _ => true
  | _ => false

/-! ### Scripts and plans -/

section
variable {α : Type} (allows : Action → Bool)

/-- The cue, with the allowed actions only. A result is changed as well, since it may bring
further scripts. -/
def Cue.restrict (change : α → α) : Cue α → Cue α
  | .delay ms => .delay ms
  | .due instant => .due instant
  | .never => .never
  | .act actions => .act (actions.filter allows)
  | .result value => .result (change value)

/-- The script, with the allowed actions only. -/
def Script.restrict (change : α → α) (script : Script α) : Script α :=
  script.map (Cue.restrict allows change)

/-- What a script says, with the allowed actions only. -/
def Turn.restrict (change : α → α) : Turn α → Turn α
  | .result value rest => .result (change value) (rest.restrict allows change)
  | .act actions rest => .act (actions.filter allows) (rest.restrict allows change)
  | .proceed script => .proceed (script.restrict allows change)
  | .wait until? => .wait until?

/-- The stream, with the allowed actions only. -/
def Peer.restrict (peer : Peer) : Peer where
  reads := peer.reads.restrict allows id
  writes := peer.writes.restrict allows id
  flushes := peer.flushes.restrict allows id
  closes := peer.closes.restrict allows id

/-- An attempt to connect, with the allowed actions only. -/
def restrictAttempt (script : Script (Except IoError Peer)) : Script (Except IoError Peer) :=
  script.restrict allows (Except.map (Peer.restrict allows))

/-- What the owner does when it is called, as far as it is allowed. -/
def Reactions.restrict (reactions : Reactions) : Reactions where
  headers := reactions.headers.filter allows
  data := reactions.data.map (List.filter allows)
  eof := reactions.eof.filter allows
  error := reactions.error.filter allows

/-- What the owner does at given instants, as far as it is allowed. -/
def restrictTimed (timed : List (Nat × Action)) : List (Nat × Action) :=
  timed.filter fun entry => allows entry.2

/-- The plan, with the allowed actions only. -/
def Plan.restrict (plan : Plan) : Plan :=
  { plan with
    before := plan.before.filter allows
    lookup := plan.lookup.restrict allows id
    attempts := plan.attempts.map (restrictAttempt allows)
    timed := restrictTimed allows plan.timed
    reactions := plan.reactions.restrict allows
    after := plan.after.filter allows }

/-- The session, with the allowed actions only in what is left of the plan. -/
def Session.restrict (s : Session) : Session :=
  { s with
    lookup := s.lookup.restrict allows id
    attempts := s.attempts.map (restrictAttempt allows)
    peer := s.peer.map (Peer.restrict allows)
    schedule := restrictTimed allows s.schedule
    reactions := s.reactions.restrict allows
    after := s.after.filter allows }

end

section
variable {α : Type} {allows : Action → Bool}

/-- A script says the same with fewer actions. -/
theorem Script.turn_restrict (allows : Action → Bool) (change : α → α) (script : Script α)
    (final : α) (now : Nat) :
    (script.restrict allows change).turn (change final) now
      = (script.turn final now).restrict allows change := by
  cases script with
  | nil => rfl
  | cons cue rest =>
    cases cue with
    | due instant =>
      show (if now < instant then _ else _) = (if now < instant then _ else _ : Turn α).restrict ..
      split <;> rfl
    | _ => rfl

/-- A script waits just as long with fewer actions. -/
theorem Script.waits_restrict (change : α → α) {script : Script α} {now : Nat}
    {until? : Option Nat} :
    (script.restrict allows change).Waits now until? ↔ script.Waits now until? := by
  cases script with
  | nil => cases until? <;> simp [Script.restrict, Script.Waits]
  | cons cue rest =>
    cases until? <;> cases cue <;> simp [Script.restrict, Script.Waits, Cue.restrict]

/-- A pause does not become a result with fewer actions, and a result does not become a pause. -/
theorem Script.essence_restrict_change (change : α → α) (script : Script α) :
    Script.essence (script.restrict allows change) = script.essence.restrict allows change := by
  have hlasting : Cue.isLasting ∘ Cue.restrict allows change = Cue.isLasting (α := α) :=
    funext fun cue => by cases cue <;> rfl
  rw [Script.essence, Script.restrict, List.filter_map, hlasting]
  rfl

/-- Fewer actions, the same results. -/
theorem Script.essence_restrict (script : Script α) :
    Script.essence (script.restrict allows id) = script.essence := by
  rw [Script.essence_restrict_change]
  refine (List.map_congr_left fun cue hmem => ?_).trans (List.map_id _)
  have hlasting := (List.mem_filter.1 hmem).2
  cases cue with
  | never => rfl
  | result value => rfl
  | _ => cases hlasting

/-- A stream has the same results with fewer actions. -/
theorem Peer.essence_restrict (peer : Peer) :
    (peer.restrict allows).essence = peer.essence := by
  simp only [Peer.essence, Peer.restrict, Script.essence_restrict]

/-- A script that gives a result gives it with fewer actions as well. -/
theorem Script.Gives.restrict {script rest : Script α} {final value : α}
    (h : script.Gives final value rest) (change : α → α) :
    (script.restrict allows change).Gives (change final) (change value)
      (rest.restrict allows change) := by
  rcases h with ⟨rfl, rfl, rfl⟩ | rfl
  · exact .inl ⟨rfl, rfl, rfl⟩
  · exact .inr rfl

/-- A call is answered with the allowed actions only, and so are those after it. -/
theorem Reactions.take_restrict (allows : Action → Bool) (reactions : Reactions)
    (notice : Notice) :
    (reactions.restrict allows).take notice
      = ((reactions.take notice).1.filter allows, (reactions.take notice).2.restrict allows) := by
  cases notice with
  | data bytes =>
    cases hdata : reactions.data with
    | nil => simp [Reactions.take, Reactions.restrict, hdata]
    | cons first rest => simp [Reactions.take, Reactions.restrict, hdata]
  | _ => rfl

end

/-! ### Fewer actions, and still fewer -/

section
variable {α : Type} (first second : Action → Bool)

/-- The actions that two restrictions leave. -/
def Action.both (action : Action) : Bool :=
  second action && first action

/-- Two restrictions, one after the other, leave the actions that both allow. -/
theorem filter_both (actions : List Action) :
    (actions.filter first).filter second = actions.filter (Action.both first second) :=
  List.filter_filter

/-- A script that is restricted twice. -/
theorem Script.restrict_restrict (change again : α → α) (script : Script α) :
    (script.restrict first change).restrict second again
      = script.restrict (Action.both first second) (again ∘ change) := by
  unfold Script.restrict
  rw [List.map_map]
  refine List.map_congr_left fun cue _ => ?_
  cases cue with
  | act actions => exact congrArg Cue.act (filter_both first second actions)
  | _ => rfl

/-- A stream that is restricted twice. -/
theorem Peer.restrict_restrict (peer : Peer) :
    (peer.restrict first).restrict second = peer.restrict (Action.both first second) := by
  simp only [Peer.restrict, Script.restrict_restrict, Function.id_comp]

/-- An attempt to connect that is restricted twice. -/
theorem restrictAttempt_restrictAttempt (script : Script (Except IoError Peer)) :
    restrictAttempt second (restrictAttempt first script)
      = restrictAttempt (Action.both first second) script := by
  have hpeer : Except.map (ε := IoError) (Peer.restrict second)
      ∘ Except.map (Peer.restrict first)
        = Except.map (Peer.restrict (Action.both first second)) := by
    funext result
    cases result with
    | error cause => rfl
    | ok peer => exact congrArg Except.ok (Peer.restrict_restrict first second peer)
  rw [restrictAttempt, restrictAttempt, Script.restrict_restrict, hpeer]
  rfl

/-- Reactions that are restricted twice. -/
theorem Reactions.restrict_restrict (reactions : Reactions) :
    (reactions.restrict first).restrict second
      = reactions.restrict (Action.both first second) := by
  simp only [Reactions.restrict, List.map_map, filter_both]
  congr 1
  exact List.map_congr_left fun actions _ => filter_both first second actions

/-- A plan that is restricted twice is restricted to the actions that both restrictions allow. -/
theorem Plan.restrict_restrict (plan : Plan) :
    (plan.restrict first).restrict second = plan.restrict (Action.both first second) := by
  have hattempts : (plan.attempts.map (restrictAttempt first)).map (restrictAttempt second)
      = plan.attempts.map (restrictAttempt (Action.both first second)) := by
    rw [List.map_map]
    exact List.map_congr_left fun script _ => restrictAttempt_restrictAttempt first second script
  have htimed : restrictTimed second (restrictTimed first plan.timed)
      = restrictTimed (Action.both first second) plan.timed := List.filter_filter
  unfold Plan.restrict
  rw [filter_both, filter_both, hattempts, htimed, Reactions.restrict_restrict,
    Script.restrict_restrict]
  rfl

/-- It does not matter what is taken out first. -/
theorem Plan.restrict_comm (plan : Plan) :
    (plan.restrict first).restrict second = (plan.restrict second).restrict first := by
  have hboth : Action.both first second = Action.both second first :=
    funext fun action => Bool.and_comm _ _
  rw [Plan.restrict_restrict, Plan.restrict_restrict, hboth]

/-- What was taken out is not there any more. -/
theorem Plan.restrict_again (plan : Plan) :
    (plan.restrict first).restrict first = plan.restrict first := by
  have hboth : Action.both first first = first := funext fun action => Bool.and_self _
  rw [Plan.restrict_restrict, hboth]

end

/-! ### Schedules -/

/-- The actions are in the order of time. -/
def IsTimely (schedule : List (Nat × Action)) : Prop :=
  schedule.Pairwise fun earlier later => earlier.1 ≤ later.1

section
variable {allows : Action → Bool} {schedule : List (Nat × Action)} {entry : Nat × Action}

/-- An action that is put on a schedule joins those that are there. -/
theorem mem_insertTimed {other : Nat × Action} :
    other ∈ insertTimed entry schedule ↔ other = entry ∨ other ∈ schedule := by
  induction schedule with
  | nil => simp [insertTimed]
  | cons first rest ih =>
    unfold insertTimed
    split
    · rw [List.mem_cons, ih, List.mem_cons]
      exact or_left_comm
    · rw [List.mem_cons]

/-- An action is put on a schedule at its place. -/
theorem IsTimely.insertTimed (h : IsTimely schedule) : IsTimely (insertTimed entry schedule) := by
  induction schedule with
  | nil => exact List.pairwise_singleton _ _
  | cons first rest ih =>
    obtain ⟨hfirst, hrest⟩ := List.pairwise_cons.1 h
    unfold NtripClient.insertTimed
    split
    · rename_i hle
      refine List.pairwise_cons.2 ⟨?_, ih hrest⟩
      intro other hmem
      rcases mem_insertTimed.1 hmem with rfl | hmem
      · exact hle
      · exact hfirst other hmem
    · rename_i hlt
      refine List.pairwise_cons.2 ⟨?_, h⟩
      intro other hmem
      -- The new action comes before the first one, and that before the others.
      rcases List.mem_cons.1 hmem with rfl | hmem
      · omega
      · have := hfirst other hmem
        omega

/-- An action that is allowed finds the same place. -/
theorem restrictTimed_insertTimed (h : IsTimely schedule) (hallows : allows entry.2 = true) :
    restrictTimed allows (insertTimed entry schedule)
      = insertTimed entry (restrictTimed allows schedule) := by
  induction schedule with
  | nil => simp [restrictTimed, insertTimed, hallows]
  | cons first rest ih =>
    obtain ⟨hfirst, hrest⟩ := List.pairwise_cons.1 h
    have hcons : ∀ (one : Nat × Action) (others : List (Nat × Action)),
        restrictTimed allows (one :: others)
          = if allows one.2 then one :: restrictTimed allows others
            else restrictTimed allows others :=
      fun one others => List.filter_cons
    rw [insertTimed]
    split
    · rename_i hle
      rw [hcons, hcons, ih hrest]
      split
      · rw [insertTimed, if_pos hle]
      · rfl
    · rename_i hlt
      rw [hcons, if_pos hallows]
      -- Everything that is left comes after the new action.
      have hlater : ∀ other ∈ restrictTimed allows (first :: rest), ¬ other.1 ≤ entry.1 := by
        intro other hmem
        rcases List.mem_cons.1 (List.mem_filter.1 hmem).1 with rfl | hmem
        · exact hlt
        · have := hfirst other hmem
          omega
      cases hleft : restrictTimed allows (first :: rest) with
      | nil => rfl
      | cons other others =>
        rw [insertTimed, if_neg (hlater other (by rw [hleft]; exact List.mem_cons_self ..))]

/-- An action that is not allowed leaves no trace. -/
theorem restrictTimed_insertTimed_of_not (hallows : allows entry.2 = false) :
    restrictTimed allows (insertTimed entry schedule) = restrictTimed allows schedule := by
  induction schedule with
  | nil => simp [restrictTimed, insertTimed, hallows]
  | cons first rest ih =>
    unfold restrictTimed at ih ⊢
    rw [insertTimed]
    split
    · rw [List.filter_cons, List.filter_cons, ih]
    · rw [List.filter_cons, if_neg (by rw [hallows]; decide)]

/-- Inserting timed actions keeps a schedule in order. -/
theorem isTimely_foldl (timed : List (Nat × Action)) (h : IsTimely schedule) :
    IsTimely (timed.foldl (fun schedule entry => insertTimed entry schedule) schedule) := by
  induction timed generalizing schedule with
  | nil => exact h
  | cons entry rest ih => exact ih h.insertTimed

/-- Inserting timed actions, with the allowed ones only. -/
theorem restrictTimed_foldl (timed : List (Nat × Action)) (h : IsTimely schedule) :
    restrictTimed allows (timed.foldl (fun schedule entry => insertTimed entry schedule) schedule)
      = (restrictTimed allows timed).foldl (fun schedule entry => insertTimed entry schedule)
          (restrictTimed allows schedule) := by
  induction timed generalizing schedule with
  | nil => rfl
  | cons entry rest ih =>
    refine (ih h.insertTimed).trans ?_
    cases hallows : allows entry.2 with
    | true =>
      have hkept : restrictTimed allows (entry :: rest) = entry :: restrictTimed allows rest :=
        List.filter_cons_of_pos hallows
      rw [hkept, restrictTimed_insertTimed h hallows]
      rfl
    | false =>
      have hdropped : restrictTimed allows (entry :: rest) = restrictTimed allows rest :=
        List.filter_cons_of_neg (by rw [hallows]; decide)
      rw [hdropped, restrictTimed_insertTimed_of_not hallows]

/-- The schedule of a plan is in the order of time, whatever order the plan lists its actions in. -/
theorem isTimely_schedule (plan : Plan) : IsTimely plan.schedule :=
  isTimely_foldl plan.timed List.Pairwise.nil

/-- The schedule of a plan with fewer actions. -/
theorem Plan.schedule_restrict (plan : Plan) :
    (plan.restrict allows).schedule = restrictTimed allows plan.schedule :=
  (restrictTimed_foldl plan.timed List.Pairwise.nil).symm

/-! ### What is due -/

/-- What is left of a schedule is in the order of time. -/
theorem IsTimely.dropWhile (h : IsTimely schedule) (instant : Nat) :
    IsTimely (schedule.dropWhile (·.1 ≤ instant)) :=
  h.sublist (List.dropWhile_sublist _)

/-- The first action of a schedule is the earliest one. -/
theorem IsTimely.first_le {first : Nat × Action} (h : IsTimely (first :: schedule)) :
    ∀ entry ∈ first :: schedule, first.1 ≤ entry.1 := by
  intro entry hmem
  rcases List.mem_cons.1 hmem with rfl | hmem
  · exact Nat.le_refl _
  · exact (List.pairwise_cons.1 h).1 entry hmem

/-- What lies ahead of an instant lies ahead as a whole. -/
theorem IsTimely.ahead (h : IsTimely schedule) {instant : Nat}
    (hahead : Session.IsAhead schedule instant) : ∀ entry ∈ schedule, instant < entry.1 := by
  cases schedule with
  | nil => exact fun entry hmem => by cases hmem
  | cons first rest =>
    intro entry hmem
    exact Nat.lt_of_lt_of_le (hahead first rfl) (h.first_le entry hmem)

/-- Where nothing is due, nothing is with fewer actions. -/
theorem isAhead_restrictTimed (h : IsTimely schedule) {instant : Nat}
    (hahead : Session.IsAhead schedule instant) :
    Session.IsAhead (restrictTimed allows schedule) instant := by
  intro entry hhead
  have hmem := List.mem_of_mem_head? hhead
  exact h.ahead hahead entry (List.mem_filter.1 hmem).1

/-- What is due with fewer actions, and what is left. -/
theorem IsTimely.due_restrictTimed (h : IsTimely schedule) (allows : Action → Bool)
    (instant : Nat) :
    (restrictTimed allows schedule).takeWhile (·.1 ≤ instant)
        = restrictTimed allows (schedule.takeWhile (·.1 ≤ instant)) ∧
      (restrictTimed allows schedule).dropWhile (·.1 ≤ instant)
        = restrictTimed allows (schedule.dropWhile (·.1 ≤ instant)) := by
  -- The schedule is what is due, followed by what lies ahead.
  have hdue : ∀ entry ∈ restrictTimed allows (schedule.takeWhile (·.1 ≤ instant)),
      decide (entry.1 ≤ instant) = true := by
    intro entry hmem
    exact List.all_eq_true.1 List.all_takeWhile entry (List.mem_filter.1 hmem).1
  have hahead : Session.IsAhead
      (restrictTimed allows (schedule.dropWhile (·.1 ≤ instant))) instant :=
    isAhead_restrictTimed (h.dropWhile instant) (Session.isAhead_dropWhile schedule instant)
  have hsplit : restrictTimed allows schedule
      = restrictTimed allows (schedule.takeWhile (·.1 ≤ instant))
        ++ restrictTimed allows (schedule.dropWhile (·.1 ≤ instant)) := by
    unfold restrictTimed
    rw [← List.filter_append, List.takeWhile_append_dropWhile]
  rw [hsplit, List.takeWhile_append_of_pos hdue, List.dropWhile_append_of_pos hdue]
  cases hrest : restrictTimed allows (schedule.dropWhile (·.1 ≤ instant)) with
  | nil => exact ⟨List.append_nil _, rfl⟩
  | cons entry rest =>
    have hlt := hahead entry (by rw [hrest]; rfl)
    have hnot : ¬ decide (entry.1 ≤ instant) = true := by simpa using hlt
    rw [List.takeWhile_cons, if_neg hnot, List.dropWhile_cons, if_neg hnot, List.append_nil]
    exact ⟨rfl, rfl⟩

end

end NtripClient
