import Kernelet.Proofs.Kernel.Reaping
import Kernelet.Proofs.Kernel.Seating

/-!
Which numbers processes get. A request takes the next number if it creates a
process, and also if a full table turns the process away at the last moment; no
other request takes one, failed or not. So as long as no number comes round, the
number of a process tells how many requests took one before it (`pid_of_created`), and
the processes of a run are numbered without a gap exactly if nobody was created any
more after one was turned away (`numberedFrom_one_iff`).
-/

namespace Kernelet.Kernel

namespace Served

/-- The number of the process that the request created. -/
def created? (event : Served) : Option Pid :=
  match event.result with
  | .ok (.created pid) => some pid
  | _ => none

/-- The request was to create a process, and there was no slot for it. -/
def turnedAway (event : Served) : Bool :=
  event.request.creates && decide (event.result = .error .processTableFull)

/-- The request used up a number. -/
def takesNumber (event : Served) : Bool :=
  event.created?.isSome || event.turnedAway

/-- What becomes of the next number while a request is served. -/
inductive Numbering (event : Served) : Prop where
  | given (hcreated : event.created? = some event.before.sched.nextPid)
      (hturned : event.turnedAway = false)
      (hnext : event.after.sched.nextPid = event.before.sched.nextPid + 1)
  | wasted (hcreated : event.created? = none) (hturned : event.turnedAway = true)
      (hnext : event.after.sched.nextPid = event.before.sched.nextPid + 1)
  | kept (hcreated : event.created? = none) (hturned : event.turnedAway = false)
      (hnext : event.after.sched.nextPid = event.before.sched.nextPid)

theorem created?_eq_some_iff {event : Served} {pid : Pid} :
    event.created? = some pid ↔ event.result = .ok (.created pid) := by
  unfold created?
  split
  · rename_i hresult
    rw [hresult]
    simp
  · rename_i hother
    constructor
    · intro h
      cases h
    · intro h
      exact absurd h (hother pid)

theorem created?_of_error {event : Served} {e : KernelError} (h : event.result = .error e) :
    event.created? = none := by
  simp [created?, h]

end Served

/-- The processes that were created got the numbers from `first` on, in order and
without a gap. -/
def NumberedFrom (first : Pid) (history : List Served) : Prop :=
  history.filterMap Served.created? =
    List.range' first (history.filterMap Served.created?).length

variable {k : Kernel} {event : Served} {pid : Pid}

/-- The number of a process is a word of 32 bits, even where numbers come round. -/
theorem created_lt_size {request : Request} (h : Dispatched k)
    (hrun : (k.serve request).result = .ok (.created pid)) : pid < UInt32.size := by
  have hcourse := serve_course h.proper request
  rw [hrun] at hcourse
  rw [hcourse.of_created.1]
  exact k.sched.nextNumber_lt_size

/-- A process gets the next number, and a process that is turned away wastes it. -/
theorem Served.Sound.numbering (h : event.Sound) (hfit : event.after.NumbersFit) :
    event.Numbering := by
  have hbefore := h.before_fit hfit
  have hseating := serve_seating h.dispatched event.request
  rw [h.serve_eq] at hseating
  cases hseating with
  | seated _ _ _ _ _ _ _ hnext _ hresult =>
      have hok : event.result = .ok (.created event.before.sched.nextPid) := by
        rw [← Scheduler.nextNumber_eq hbefore]
        exact hresult
      apply Served.Numbering.given
      · exact Served.created?_eq_some_iff.mpr hok
      · simp [Served.turnedAway, hok]
      · exact hnext
  | turnedAway _ e hcreates _ haway _ hnext _ hresult =>
      obtain ⟨rfl, -⟩ := haway.full_of_fit hbefore
      apply Served.Numbering.wasted
      · exact Served.created?_of_error hresult
      · have hfull : event.result = .error .processTableFull := hresult
        simp [Served.turnedAway, hcreates, hfull]
      · exact hnext
  | unchanged hpaced hresult =>
      have hnext := hpaced.sched.nextPid_eq
      apply Served.Numbering.kept
      · cases hcreated : event.created? with
        | none => rfl
        | some pid =>
            -- A process that is created takes a number.
            have hcourse := h.course
            rw [Served.created?_eq_some_iff.mp hcreated] at hcourse
            have hlater := hcourse.of_created.2.2
            rw [hnext] at hlater
            exact absurd hlater (Nat.ne_of_lt (Nat.lt_succ_self _))
      · cases hcreates : event.request.creates with
        | false => simp [Served.turnedAway, hcreates]
        | true =>
            obtain ⟨e, hfailed, he⟩ := hresult hcreates
            have herror : event.result = .error e := hfailed
            simp [Served.turnedAway, herror, he]
      · exact hnext

theorem Served.Sound.pid_of_created (h : event.Sound) (hfit : event.after.NumbersFit)
    (hcreated : event.created? = some pid) : pid = event.before.sched.nextPid := by
  have hcourse := h.course
  rw [Served.created?_eq_some_iff.mp hcreated] at hcourse
  rw [hcourse.of_created.1]
  exact Scheduler.nextNumber_eq (h.before_fit hfit)

theorem Served.Sound.nextPid_after (h : event.Sound) (hfit : event.after.NumbersFit) :
    event.after.sched.nextPid =
      event.before.sched.nextPid + (if event.takesNumber = true then 1 else 0) := by
  unfold Served.takesNumber
  cases h.numbering hfit with
  | given hcreated _ hnext => simp [hcreated, hnext]
  | wasted hcreated hturned hnext => simp [hcreated, hturned, hnext]
  | kept hcreated hturned hnext => simp [hcreated, hturned, hnext]

/-- The next number counts the requests that took one. -/
theorem nextPid_serveAll (h : Dispatched k) {requests : List Request}
    (hfit : (k.serveAll requests).2.NumbersFit) :
    (k.serveAll requests).2.sched.nextPid =
      k.sched.nextPid + (k.history requests).countP Served.takesNumber := by
  induction requests generalizing k with
  | nil => rfl
  | cons request rest ih =>
      have hsound : (k.served request).Sound := ⟨h, rfl⟩
      have hafter := serve_dispatched h request
      have hrest := ih hafter hfit
      have hfirst : (k.serve request).state.sched.nextPid =
          k.sched.nextPid + (if (k.served request).takesNumber = true then 1 else 0) :=
        hsound.nextPid_after (numbersFit_of_serveAll hafter hfit)
      show ((k.serve request).state.serveAll rest).2.sched.nextPid =
        k.sched.nextPid + (k.served request :: _).countP Served.takesNumber
      rw [hrest, hfirst, List.countP_cons, Nat.add_assoc, Nat.add_comm (List.countP _ _)]

/-- The number of a process tells how many requests took a number before it. -/
theorem pid_of_created {requests : List Request} {past rest : List Served} (h : Dispatched k)
    (hfit : (k.serveAll requests).2.NumbersFit)
    (hsplit : k.history requests = past ++ event :: rest) (hcreated : event.created? = some pid) :
    pid = k.sched.nextPid + past.countP Served.takesNumber := by
  have hmem : event ∈ k.history requests := by
    rw [hsplit]
    exact List.mem_append_right _ List.mem_cons_self
  have hsound := sound_of_mem_history h hmem
  have hafter := fits_of_mem_history h hfit hmem
  have hpid := hsound.pid_of_created hafter hcreated
  have hbefore := hsound.before_fit hafter
  obtain ⟨done, request, -, rfl, rfl⟩ := history_split hsplit
  rw [← nextPid_serveAll h hbefore]
  exact hpid

theorem nextPid_le_of_created {requests : List Request} (h : Dispatched k)
    (hfit : (k.serveAll requests).2.NumbersFit)
    (hmem : pid ∈ (k.history requests).filterMap Served.created?) : k.sched.nextPid ≤ pid := by
  obtain ⟨event, hevent, hcreated⟩ := List.mem_filterMap.mp hmem
  obtain ⟨past, rest, hsplit⟩ := List.append_of_mem hevent
  rw [pid_of_created h hfit hsplit hcreated]
  exact Nat.le_add_right _ _

theorem numberedFrom_cons_of_created {first : Pid} {history : List Served}
    (h : event.created? = some first) :
    NumberedFrom first (event :: history) ↔ NumberedFrom (first + 1) history := by
  unfold NumberedFrom
  rw [List.filterMap_cons_some h, List.length_cons, List.range'_succ, List.cons.injEq]
  exact and_iff_right rfl

theorem numberedFrom_cons_of_none {first : Pid} {history : List Served}
    (h : event.created? = none) :
    NumberedFrom first (event :: history) ↔ NumberedFrom first history := by
  unfold NumberedFrom
  rw [List.filterMap_cons_none h]

/-- Numbers without a gap do not start before the next number, unless there are none. -/
theorem numberedFrom_pred_iff {first : Pid} {requests : List Request} (h : Dispatched k)
    (hfit : (k.serveAll requests).2.NumbersFit) (hlt : first < k.sched.nextPid) :
    NumberedFrom first (k.history requests) ↔
      ∀ event ∈ k.history requests, event.created? = none := by
  rw [← List.filterMap_eq_nil_iff]
  unfold NumberedFrom
  constructor
  · intro hnumbered
    cases hcreated : (k.history requests).filterMap Served.created? with
    | nil => rfl
    | cons pid others =>
        rw [hcreated, List.length_cons, List.range'_succ] at hnumbered
        obtain ⟨rfl, -⟩ := List.cons.inj hnumbered
        have hle := nextPid_le_of_created h hfit (hcreated ▸ List.mem_cons_self)
        exact absurd hlt (Nat.not_lt_of_le hle)
  · intro hnone
    rw [hnone]
    rfl

/-- The numbers of a run have a gap exactly if a process is turned away and another is
created after it. -/
theorem numberedFrom_nextPid_iff (h : Dispatched k) {requests : List Request}
    (hfit : (k.serveAll requests).2.NumbersFit) :
    NumberedFrom k.sched.nextPid (k.history requests) ↔
      (k.history requests).Pairwise fun earlier later =>
        earlier.turnedAway = true → later.created? = none := by
  induction requests generalizing k with
  | nil => exact iff_of_true rfl List.Pairwise.nil
  | cons request rest ih =>
      have hsound : (k.served request).Sound := ⟨h, rfl⟩
      have hafter := serve_dispatched h request
      have hrest := ih hafter hfit
      show NumberedFrom k.sched.nextPid (k.served request :: (k.serve request).state.history rest) ↔
        List.Pairwise _ (k.served request :: (k.serve request).state.history rest)
      rw [List.pairwise_cons]
      -- A request that turns nobody away has no say in what comes after it.
      have hquiet : (k.served request).turnedAway = false →
          ∀ later ∈ (k.serve request).state.history rest,
            (k.served request).turnedAway = true → later.created? = none := by
        intro hturned later _ hfull
        rw [hturned] at hfull
        cases hfull
      cases hsound.numbering (numbersFit_of_serveAll hafter hfit) with
      | given hcreated hturned hnext =>
          have hlater : (k.serve request).state.sched.nextPid = k.sched.nextPid + 1 := hnext
          have hfirst : (k.served request).created? = some k.sched.nextPid := hcreated
          rw [hlater] at hrest
          rw [numberedFrom_cons_of_created hfirst, hrest]
          exact (and_iff_right (hquiet hturned)).symm
      | wasted hcreated hturned hnext =>
          have hlater : (k.serve request).state.sched.nextPid = k.sched.nextPid + 1 := hnext
          have hlt : k.sched.nextPid < (k.serve request).state.sched.nextPid := by
            rw [hlater]
            exact Nat.lt_succ_self _
          rw [numberedFrom_cons_of_none hcreated,
            numberedFrom_pred_iff hafter hfit hlt]
          constructor
          · intro hnone
            refine ⟨fun later hmem _ => hnone later hmem, ?_⟩
            exact List.pairwise_iff_forall_sublist.mpr fun hsub _ =>
              hnone _ (hsub.subset (by simp))
          · rintro ⟨hnone, -⟩ later hmem
            exact hnone later hmem hturned
      | kept hcreated hturned hnext =>
          have hlater : (k.serve request).state.sched.nextPid = k.sched.nextPid := hnext
          rw [hlater] at hrest
          rw [numberedFrom_cons_of_none hcreated, hrest]
          exact (and_iff_right (hquiet hturned)).symm

/-- In every run from a start in which no number comes round, the number of a process is
1 and one more for every request before it that created a process or had one turned away
by a full table. The processes of the run are numbered without a gap exactly if nobody
is created after one has been turned away. -/
theorem numberedFrom_one_iff {config : Config} {k : Kernel} (hboot : boot config = .ok k)
    {requests : List Request} (hfit : (k.serveAll requests).2.NumbersFit) :
    (∀ past event rest, k.history requests = past ++ event :: rest → ∀ pid,
      event.result = .ok (.created pid) → pid = 1 + past.countP Served.takesNumber) ∧
    (NumberedFrom 1 (k.history requests) ↔
      (k.history requests).Pairwise fun earlier later =>
        earlier.turnedAway = true → later.created? = none) := by
  obtain ⟨-, rfl⟩ := boot_eq_ok_iff.mp hboot
  have hstart := ofConfig_dispatched config
  refine ⟨?_, numberedFrom_nextPid_iff hstart hfit⟩
  intro past event rest hsplit pid hcreated
  exact pid_of_created hstart hfit hsplit (Served.created?_eq_some_iff.mpr hcreated)

/-- Creations that fail for another reason than a full table leave no gap. -/
theorem numberedFrom_one_failed_creations :
    let requests : List Request :=
      [.fork 1, .spawn "a" 0 0, .createInit, .spawn "b" 9 0, .fork 1, .exit 2 0, .fork 2,
        .spawn "c" 1 0]
    boot Config.small = .ok (ofConfig Config.small) ∧
    ((ofConfig Config.small).serveAll requests).2.NumbersFit ∧
    ((ofConfig Config.small).history requests).filterMap Served.created? = [1, 2, 3] ∧
    (∀ past event rest, (ofConfig Config.small).history requests = past ++ event :: rest →
      ∀ pid, event.result = .ok (.created pid) →
        pid = 1 + past.countP Served.takesNumber) ∧
    (NumberedFrom 1 ((ofConfig Config.small).history requests) ↔
      ((ofConfig Config.small).history requests).Pairwise fun earlier later =>
        earlier.turnedAway = true → later.created? = none) := by
  have hboot : boot Config.small = .ok (ofConfig Config.small) :=
    boot_eq_ok_iff.mpr ⟨by decide, rfl⟩
  intro requests
  have hfit : ((ofConfig Config.small).serveAll requests).2.NumbersFit :=
    ofConfig_numbersFit Config.small (by decide)
  refine ⟨hboot, hfit, ?_, numberedFrom_one_iff hboot hfit⟩
  decide +kernel

/-- With room for two processes, a third is turned away. When one of the two has been
reaped, the next child gets number 4, and nobody ever had number 3. -/
theorem not_numberedFrom_one_of_full_table :
    let config : Config := { Config.small with maxTasks := 2 }
    let history := (ofConfig config).history
      [.spawn "a" 0 0, .fork 1, .fork 1, .exit 2 0, .wait 1, .fork 1]
    boot config = .ok (ofConfig config) ∧
      history.filterMap Served.created? = [1, 2, 4] ∧ ¬ NumberedFrom 1 history := by
  intro config history
  have hcreated : history.filterMap Served.created? = [1, 2, 4] := by
    decide +kernel
  refine ⟨boot_eq_ok_iff.mpr ⟨by decide, rfl⟩, hcreated, ?_⟩
  unfold NumberedFrom
  rw [hcreated]
  decide

end Kernelet.Kernel
