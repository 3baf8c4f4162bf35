import Kernelet.Proofs.Kernel.Course

/-!
What happens behind the gate. The kernel hands the token on and nothing else: who
runs goes on running, and the gate stays open or shut (`SameTurn`). Everything but
a shutdown, and the passing and leaving of bodies, is of that kind (`Inside`). What a
process does by itself moreover ends nobody else (`Own`).
-/

namespace Kernelet.Kernel

/-- The gate is as open as it was, and the same body runs. Those who wait may have been
called. -/
structure SameTurn (k after : Kernel) : Prop where
  closed_eq : after.gate.closed = k.gate.closed
  running_eq : after.gate.running = k.gate.running
  calls_le : k.gate.calls ≤ after.gate.calls

variable {k mid after : Kernel} {pid : Pid}

theorem SameTurn.of_gate (h : after.gate = k.gate) : SameTurn k after :=
  ⟨by rw [h], by rw [h], by rw [h]⟩

/-- What was done before at the same gate does not matter. -/
theorem SameTurn.since (h : SameTurn mid after) (hgate : mid.gate = k.gate) :
    SameTurn k after := by
  obtain ⟨hclosed, hrunning, hcalls⟩ := h
  rw [hgate] at hclosed hrunning hcalls
  exact ⟨hclosed, hrunning, hcalls⟩

theorem schedule_sameTurn (k : Kernel) : SameTurn k k.schedule.2 :=
  ⟨Gate.closed_grant _ _, Gate.running_grant _ _, Gate.calls_le_grant _ _⟩

theorem reselect_sameTurn (k : Kernel) (pid : Pid) : SameTurn k (k.reselect pid) := by
  unfold reselect
  split
  · exact schedule_sameTurn k
  · exact SameTurn.of_gate rfl

theorem timerTick_sameTurn (k : Kernel) : SameTurn k k.timerTick.2 := by
  unfold timerTick
  split
  · exact ⟨Gate.closed_grant _ _, Gate.running_grant _ _, Gate.calls_le_grant _ _⟩
  · exact SameTurn.of_gate rfl

theorem sleep_sameTurn (k : Kernel) (interruptible : Bool) :
    SameTurn k (k.sleep interruptible).state := by
  unfold sleep
  split
  · exact SameTurn.of_gate rfl
  · exact ⟨Gate.closed_grant _ _, Gate.running_grant _ _, Gate.calls_le_grant _ _⟩

theorem gate_spawn (k : Kernel) (name : String) (parent : Pid) (pages : Nat) :
    (k.spawn name parent pages).state.gate = k.gate := by
  rcases spawn_cases k name parent pages with
    ⟨⟨e, hrun⟩, -⟩ | ⟨-, m, ⟨e, -, hrun⟩ | ⟨-, hrun⟩⟩
  · rw [hrun]
  · rw [hrun]
  · rw [hrun]
    rfl

theorem gate_createInit (k : Kernel) : k.createInit.state.gate = k.gate := by
  unfold createInit
  split
  · rfl
  · exact gate_spawn k "init" 0 initPages

theorem gate_fork (k : Kernel) (parent : Pid) : (k.fork parent).state.gate = k.gate := by
  rcases fork_cases k parent with
    ⟨⟨e, hrun⟩, -⟩ | ⟨task, space, m, -, -, -, ⟨e, -, hrun⟩ | ⟨child, -, hrun⟩⟩
  · rw [hrun]
  · rw [hrun]
  · rw [hrun]
    rfl

theorem exit_sameTurn {code : Int} (hrun : k.exit pid code = .ok after) : SameTurn k after := by
  obtain ⟨task, -, -, rfl⟩ := exit_eq_ok hrun
  exact (reselect_sameTurn (k.bury task code) pid).since rfl

theorem kill_sameTurn {signal : Signal} (hrun : k.kill pid signal = .ok after) :
    SameTurn k after := by
  obtain ⟨task, -, ⟨-, rfl⟩ | ⟨-, ⟨rfl, hexit⟩ | ⟨-, rfl⟩ | ⟨-, -, rfl⟩⟩⟩ := kill_eq_ok hrun
  · exact SameTurn.of_gate rfl
  · exact (exit_sameTurn hexit).since rfl
  · exact (reselect_sameTurn _ pid).since rfl
  · exact SameTurn.of_gate rfl

theorem gate_wait (k : Kernel) (parent : Pid) : (k.wait parent).state.gate = k.gate := by
  rcases wait_cases k parent with
    ⟨-, child, -, -, hrun⟩ | ⟨⟨e, hrun, -⟩, -⟩ | ⟨-, -, -, hrun⟩
  · rw [hrun]
    rfl
  · rw [hrun]
  · rw [hrun]

theorem blockProcess_sameTurn (k : Kernel) (pid : Pid) :
    SameTurn k (k.blockProcess pid).state := by
  rcases blockProcess_cases k pid with ⟨e, hrun⟩ | ⟨task, blocked, -, -, hrun⟩
  · rw [hrun]
    exact SameTurn.of_gate rfl
  · rw [hrun]
    exact (reselect_sameTurn _ pid).since rfl

theorem waitOrBlock_sameTurn (k : Kernel) (parent : Pid) :
    SameTurn k (k.waitOrBlock parent).state := by
  have hwait := gate_wait k parent
  rcases waitOrBlock_cases k parent with ⟨-, hrun⟩ | ⟨-, hrun⟩
  · rw [hrun]
    exact SameTurn.of_gate hwait
  · rw [hrun]
    exact (blockProcess_sameTurn _ parent).since hwait

theorem gate_accessSpace {α : Type} (k : Kernel) (pid : Pid) (act : Memory → α × Memory) :
    (k.accessSpace pid act).state.gate = k.gate := by
  rcases accessSpace_cases k pid act with ⟨e, hrun, -⟩ | ⟨task, space, -, -, hrun⟩
  · rw [hrun]
  · rw [hrun]

theorem commit_sameTurn {result : Except KernelError Kernel}
    (h : ∀ after, result = .ok after → SameTurn k after) : SameTurn k (k.commit result).state := by
  cases result with
  | error e => exact SameTurn.of_gate rfl
  | ok after => exact h after rfl

/-- Every request but one leaves the gate to those who pass it. -/
theorem serve_sameTurn {request : Request} (h : request ≠ .shutdown) :
    SameTurn k (k.serve request).state := by
  cases request with
  | createInit => exact SameTurn.of_gate (gate_createInit k)
  | spawn name parent pages => exact SameTurn.of_gate (gate_spawn k name parent pages)
  | schedule => exact schedule_sameTurn k
  | timerTick => exact timerTick_sameTurn k
  | sleep interruptible => exact sleep_sameTurn k interruptible
  | wakeAll => exact SameTurn.of_gate rfl
  | fork parent => exact SameTurn.of_gate (gate_fork k parent)
  | exit pid code => exact commit_sameTurn fun after hrun => exit_sameTurn hrun
  | wait parent => exact SameTurn.of_gate (gate_wait k parent)
  | waitOrBlock parent => exact waitOrBlock_sameTurn k parent
  | kill pid signal => exact commit_sameTurn fun after hrun => kill_sameTurn hrun
  | exec pid =>
      apply commit_sameTurn
      intro after hrun
      obtain ⟨task, -, -, rfl⟩ := exec_eq_ok hrun
      exact SameTurn.of_gate rfl
  | access pid request => exact SameTurn.of_gate (gate_accessSpace k pid _)
  | shutdown => exact absurd rfl h

/-- What may become of a kernel while nobody passes the gate, leaves the CPU, or
shuts the gate. -/
inductive Inside (k : Kernel) : Kernel → Prop where
  | idle : Inside k k
  | served (request : Request) (h : request ≠ .shutdown) : Inside k (k.serve request).state
  | accessed {α : Type} (pid : Pid) (act : Memory → α × Memory) :
      Inside k (k.accessSpace pid act).state

namespace Inside

theorem sameTurn (h : Inside k after) : SameTurn k after := by
  cases h with
  | idle => exact SameTurn.of_gate rfl
  | served request hrequest => exact serve_sameTurn hrequest
  | accessed pid act => exact SameTurn.of_gate (gate_accessSpace k pid act)

theorem dispatched (h : Inside k after) (hk : Dispatched k) : Dispatched after := by
  cases h with
  | idle => exact hk
  | served request _ => exact serve_dispatched hk request
  | accessed pid act => exact accessSpace_dispatched hk pid act

theorem nextPid_le (h : Inside k after) (hk : Dispatched k) :
    k.sched.nextPid ≤ after.sched.nextPid := by
  cases h with
  | idle => exact Nat.le_refl _
  | served request _ => exact (serve_course hk.proper request).nextPid_le
  | accessed pid act => exact (sameFates_accessSpace hk.proper pid act).nextPid_eq.ge

theorem over_after (h : Inside k after) (hk : Dispatched k) (hover : Over k pid)
    (hfit : after.NumbersFit) : Over after pid := by
  cases h with
  | idle => exact hover
  | served request _ => exact serve_over hk.proper hover hfit
  | accessed other act => exact (sameFates_accessSpace hk.proper other act).over_after hover

/-- Who has terminated by now had terminated before, or lived. -/
theorem fate?_of_dead {code : Int} (h : Inside k after) (hk : Dispatched k)
    (hafter : after.sched.fate? pid = some (some code)) :
    k.sched.fate? pid = some (some code) ∨ k.sched.fate? pid = some none := by
  cases h with
  | idle => exact Or.inl hafter
  | accessed other act =>
      rw [(sameFates_accessSpace hk.proper other act).fate?_eq] at hafter
      exact Or.inl hafter
  | served request _ =>
      cases (serve_course hk.proper request).fares pid with
      | unchanged hsame => exact Or.inl (hsame.symm.trans hafter)
      | born _ _ _ hborn =>
          rw [hborn] at hafter
          cases hafter
      | died _ _ _ hbefore _ => exact Or.inr hbefore
      | buried _ _ _ hgone =>
          rw [hgone] at hafter
          cases hafter

end Inside

/-- What may become of a kernel by the doing of process `pid`, which can end nobody but
itself. -/
inductive Own (k : Kernel) (pid : Pid) : Kernel → Prop where
  | idle : Own k pid k
  | served (request : Request) (h : request ≠ .shutdown)
      (hending : ∀ q code, request.ending? = some (q, code) → q = pid) :
      Own k pid (k.serve request).state
  | accessed {α : Type} (act : Memory → α × Memory) : Own k pid (k.accessSpace pid act).state

namespace Own

/-- To exit is its own doing, whether or not it succeeds. -/
theorem exit (k : Kernel) (pid : Pid) (code : Int) :
    Own k pid (k.commit (k.exit pid code)).state := by
  refine Own.served (.exit pid code) (by simp) ?_
  rintro q _ ⟨rfl, rfl⟩
  rfl

theorem inside (h : Own k pid after) : Inside k after := by
  cases h with
  | idle => exact Inside.idle
  | served request hrequest _ => exact Inside.served request hrequest
  | accessed act => exact Inside.accessed pid act

/-- Whoever else lives goes on living. -/
theorem spares {q : Pid} (h : Own k pid after) (hk : Dispatched k) (hne : q ≠ pid)
    (hlives : k.sched.fate? q = some none) : after.sched.fate? q = some none := by
  cases h with
  | idle => exact hlives
  | accessed act => exact ((sameFates_accessSpace hk.proper pid act).fate?_eq q).trans hlives
  | served request _ hending =>
      cases (serve_course hk.proper request).fares q with
      | unchanged hsame => exact hsame.trans hlives
      | born _ _ _ hborn => exact hborn
      | died code hrequest _ _ _ => exact absurd (hending q code hrequest) hne
      | buried code _ hbefore _ =>
          rw [hlives] at hbefore
          cases hbefore

end Own

end Kernelet.Kernel
