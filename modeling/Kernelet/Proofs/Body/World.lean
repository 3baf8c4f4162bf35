import Kernelet.Body.Call
import Kernelet.Proofs.Kernel.Turns

/-!
A kernel with any number of bodies whose code may do anything. A body makes
whatever calls it likes and stops when it likes; the way through a call is that of
the kernel, one critical section at a time. In between, others make requests to
the kernel from outside and start more bodies. A history of such a world is any
list of moves.

Whatever the moves are, the selected process can run and has the token as long as
the gate is open (`current_holds_token`).
-/

namespace Kernelet

variable {ρ : Type}

/-- The body of process `pid`. It executes once it has passed the gate, until it
gives up the CPU. -/
structure Actor (ρ : Type) where
  pid : Pid
  point : Point ρ
  executing : Bool

/-- A kernel and the bodies of its processes, in the order in which they were
started. -/
structure World (ρ : Type) where
  kernel : Kernel
  actors : List (Actor ρ)

namespace Point

/-- Whether it is up to the body's own code what comes next. -/
def isFree : Point ρ → Bool
  | .ready | .returned _ => true
  | _ => false

/-- Whether the body has passed the gate at some time, and is not gone. -/
def isUnderWay : Point ρ → Bool
  | .turning .start _ | .ended _ => false
  | _ => true

end Point

namespace Actor

/-- A body that has not started yet. -/
def new (pid : Pid) : Actor ρ where
  pid := pid
  point := .start
  executing := false

/-- Whether the body executes after its next critical section. -/
def executesNext (actor : Actor ρ) (k : Kernel) : Bool :=
  match actor.point with
  | .turning _ _ =>
    match k.gate.look actor.pid with
    | .passed _ => true
    | .closed | .wait => actor.executing
  | .leaving _ | .departing _ => false
  | _ => actor.executing

/-- One critical section of the body. -/
def advance (actor : Actor ρ) (k : Kernel) : Kernel × Actor ρ :=
  ((actor.point.advance k actor.pid).1,
    { actor with
      point := (actor.point.advance k actor.pid).2
      executing := actor.executesNext k })

/-- The body's own code goes on to `point`, if it is up to it. -/
def choose (actor : Actor ρ) (point : Point ρ) : Actor ρ :=
  if actor.point.isFree then { actor with point } else actor

end Actor

namespace World

/-- A kernel that has no bodies yet. -/
def new (k : Kernel) : World ρ where
  kernel := k
  actors := []

/-- What may happen next. -/
inductive Move (ρ : Type) where
  /-- Somebody asks the kernel for something from outside. -/
  | request (request : Kernel.Request)
  /-- A body is started for process `pid`. -/
  | launch (pid : Pid)
  /-- The code of body `i` makes a call. -/
  | call (i : Nat) (call : Call ρ)
  /-- The code of body `i` comes to its end. -/
  | stop (i : Nat) (outcome : Except KernelError Unit)
  /-- Body `i` goes through its next critical section. -/
  | advance (i : Nat)

/-- The process for which a move starts a body. -/
def Move.launched? : Move ρ → Option Pid
  | .launch pid => some pid
  | _ => none

/-- The world after a move. A move that is not possible changes nothing. -/
def move (world : World ρ) : Move ρ → World ρ
  | .request request => { world with kernel := (world.kernel.serve request).state }
  | .launch pid => { world with actors := world.actors ++ [Actor.new pid] }
  | .call i call =>
    { world with actors := world.actors.modify i fun actor => actor.choose (.entering call) }
  | .stop i outcome =>
    { world with actors := world.actors.modify i fun actor => actor.choose (.stopping outcome) }
  | .advance i =>
    match world.actors[i]? with
    | none => world
    | some actor =>
      { kernel := (actor.advance world.kernel).1
        actors := world.actors.set i (actor.advance world.kernel).2 }

/-- The world after some moves. -/
def run (world : World ρ) (moves : List (Move ρ)) : World ρ :=
  moves.foldl move world

/-- What every move keeps holds after every history. -/
theorem run_invariant (holds : World ρ → Prop)
    (hmove : ∀ world m, holds world → holds (world.move m))
    {world : World ρ} (h : holds world) (moves : List (Move ρ)) : holds (world.run moves) := by
  induction moves generalizing world with
  | nil => exact h
  | cons m rest ih => exact ih (hmove world m h)

end World

open Kernel (Inside Own Dispatched)

/-- A call that takes effect is the process's own doing, and its body goes on
executing. -/
theorem Call.run_own (call : Call ρ) (k : Kernel) (pid : Pid) :
    Own k pid (call.run k pid).1 ∧ (call.run k pid).2.isExecuting = true := by
  cases call with
  | yield => exact ⟨Own.served .schedule (by simp) (by simp [Kernel.Request.ending?]), rfl⟩
  | sleep interruptible =>
      have hserved : Own k pid (k.sleep interruptible).state :=
        Own.served (.sleep interruptible) (by simp) (by simp [Kernel.Request.ending?])
      simp only [run]
      rcases hrun : k.sleep interruptible with ⟨_ | _, after⟩
      · rw [hrun] at hserved
        exact ⟨hserved, rfl⟩
      · rw [hrun] at hserved
        exact ⟨hserved, rfl⟩
  | tick => exact ⟨Own.served .timerTick (by simp) (by simp [Kernel.Request.ending?]), rfl⟩
  | fork => exact ⟨Own.served (.fork pid) (by simp) (by simp [Kernel.Request.ending?]), rfl⟩
  | wait =>
      have hserved : Own k pid (k.waitOrBlock pid).state :=
        Own.served (.waitOrBlock pid) (by simp) (by simp [Kernel.Request.ending?])
      simp only [run]
      rcases hrun : k.waitOrBlock pid with ⟨_ | _ | _, after⟩
      · rw [hrun] at hserved
        exact ⟨hserved, rfl⟩
      · rw [hrun] at hserved
        exact ⟨hserved, rfl⟩
      · rw [hrun] at hserved
        exact ⟨hserved, rfl⟩
  | exit code =>
      have hserved := Own.exit k pid code
      simp only [run]
      cases hrun : k.exit pid code with
      | error e => exact ⟨Own.idle, rfl⟩
      | ok after =>
          rw [hrun] at hserved
          exact ⟨hserved, rfl⟩
  | memory act => exact ⟨Own.accessed act, rfl⟩

theorem Call.enter_own (call : Call ρ) (k : Kernel) (pid : Pid) :
    Own k pid (call.enter k pid).1 ∧ (call.enter k pid).2.isExecuting = true := by
  unfold enter
  split
  · exact ⟨Own.idle, rfl⟩
  · split
    · exact ⟨Own.idle, rfl⟩
    · split
      · exact call.run_own k pid
      · exact ⟨Own.idle, rfl⟩

/-- A body passes the gate, gives up the CPU, or does something inside. -/
inductive Actor.Advances (actor : Actor ρ) (k : Kernel) : Prop where
  | passed (resume : Resume ρ) (seen : Option Nat) (gate : Gate)
      (hpoint : actor.point = .turning resume seen)
      (hlook : k.gate.look actor.pid = .passed gate)
      (hrun : actor.advance k =
        ({ k with gate }, { actor with point := resume.passed, executing := true }))
  | left
      (hkernel : (actor.advance k).1 = { k with gate := k.gate.release actor.pid })
      (hexecuting : (actor.advance k).2.executing = false)
      (hpoint : (actor.advance k).2.point.isExecuting = false)
      (hway : actor.point.isUnderWay = true)
  | inside
      (hkernel : Own k actor.pid (actor.advance k).1)
      (hexecuting : (actor.advance k).2.executing = actor.executing)
      (hpoint : k.gate.closed = false →
        (actor.advance k).2.point.isExecuting = actor.point.isExecuting)
      (hway : (actor.advance k).2.point.isUnderWay = true → actor.point.isUnderWay = true)

theorem Actor.advances (actor : Actor ρ) (k : Kernel) : actor.Advances k := by
  obtain ⟨pid, point, executing⟩ := actor
  cases point with
  | turning resume seen =>
      cases hlook : k.gate.look pid with
      | passed gate =>
          refine Advances.passed resume seen gate rfl hlook ?_
          simp [advance, executesNext, Point.advance, hlook]
      | closed =>
          have hclosed : k.gate.closed = true := Gate.look_eq_closed_iff.mp hlook
          apply Advances.inside
          · simpa [advance, Point.advance, hlook] using Own.idle
          · simp [advance, executesNext, hlook]
          · simp [hclosed]
          · cases resume <;>
              simp [advance, Point.advance, hlook, Resume.turnedAway, Point.isUnderWay]
      | wait =>
          apply Advances.inside
          · simpa [advance, Point.advance, hlook] using Own.idle
          · simp [advance, executesNext, hlook]
          · simp [advance, Point.advance, hlook, Point.isExecuting]
          · cases resume <;> simp [advance, Point.advance, hlook, Point.isUnderWay]
  | leaving resume => exact Advances.left rfl rfl rfl rfl
  | departing outcome => exact Advances.left rfl rfl rfl rfl
  | entering call =>
      obtain ⟨hown, hexecuting⟩ := call.enter_own k pid
      exact Advances.inside hown rfl (fun _ => hexecuting) fun _ => rfl
  | exiting outcome =>
      have hserved := Own.exit k pid (bodyExitCode outcome)
      cases hrun : k.exit pid (bodyExitCode outcome) with
      | error e =>
          apply Advances.inside
          · simpa [advance, Point.advance, hrun] using Own.idle
          · rfl
          · simp [advance, Point.advance, hrun, Point.isExecuting]
          · exact fun _ => rfl
      | ok after =>
          rw [hrun] at hserved
          have hafter : Own k pid after := hserved
          apply Advances.inside
          · simpa [advance, Point.advance, hrun] using hafter
          · rfl
          · simp [advance, Point.advance, hrun, Point.isExecuting]
          · exact fun _ => rfl
  | stopping outcome =>
      refine Advances.inside Own.idle rfl (fun _ => ?_) fun _ => rfl
      simp only [advance, Point.advance]
      split <;> rfl
  | ready => exact Advances.inside Own.idle rfl (fun _ => rfl) fun h => h
  | returned result => exact Advances.inside Own.idle rfl (fun _ => rfl) fun h => h
  | ended outcome => exact Advances.inside Own.idle rfl (fun _ => rfl) fun h => h

namespace World

variable {world : World ρ} {m : Move ρ}

theorem move_advance {i : Nat} {actor : Actor ρ} (h : world.actors[i]? = some actor) :
    world.move (.advance i) =
      { kernel := (actor.advance world.kernel).1
        actors := world.actors.set i (actor.advance world.kernel).2 } := by
  simp only [move, h]

theorem move_advance_none {i : Nat} (h : world.actors[i]? = none) :
    world.move (.advance i) = world := by
  simp only [move, h]

/-- A move has its effect inside, unless somebody shuts the gate, passes it, or
gives up the CPU. -/
inductive Affects (world : World ρ) (m : Move ρ) : Prop where
  | inside
      (hkernel : Inside world.kernel (world.move m).kernel)
  | shut
      (hm : m = .request .shutdown)
      (hkernel : (world.move m).kernel = world.kernel.shutdown)
  | passed (pid : Pid) (gate : Gate)
      (hlook : world.kernel.gate.look pid = .passed gate)
      (hkernel : (world.move m).kernel = { world.kernel with gate })
  | left (pid : Pid)
      (hkernel : (world.move m).kernel =
        { world.kernel with gate := world.kernel.gate.release pid })

theorem affects (world : World ρ) (m : Move ρ) : world.Affects m := by
  cases m with
  | request request =>
      by_cases hshutdown : request = .shutdown
      · rw [hshutdown]
        exact Affects.shut rfl rfl
      · exact Affects.inside (Inside.served request hshutdown)
  | launch pid => exact Affects.inside Inside.idle
  | call i call => exact Affects.inside Inside.idle
  | stop i outcome => exact Affects.inside Inside.idle
  | advance i =>
      cases hactor : world.actors[i]? with
      | none =>
          apply Affects.inside
          rw [move_advance_none hactor]
          exact Inside.idle
      | some actor =>
          have hmove := congrArg World.kernel (move_advance hactor)
          cases actor.advances world.kernel with
          | passed resume seen gate _ hlook hrun =>
              exact Affects.passed actor.pid gate hlook (hmove.trans (congrArg Prod.fst hrun))
          | left hkernel _ _ _ => exact Affects.left actor.pid (hmove.trans hkernel)
          | inside hkernel _ _ _ =>
              apply Affects.inside
              rw [hmove]
              exact hkernel.inside

theorem move_dispatched (m : Move ρ) (h : Dispatched world.kernel) :
    Dispatched (world.move m).kernel := by
  cases world.affects m with
  | inside hkernel => exact hkernel.dispatched h
  | shut _ hkernel =>
      rw [hkernel]
      exact Kernel.shutdown_dispatched h
  | passed pid gate hlook hkernel =>
      rw [hkernel]
      exact Kernel.look_dispatched h hlook
  | left pid hkernel =>
      rw [hkernel]
      exact Kernel.release_dispatched h pid

/-- The gate stays open as long as nobody shuts it. -/
theorem closed_move (hm : m ≠ .request .shutdown) :
    (world.move m).kernel.gate.closed = world.kernel.gate.closed := by
  cases world.affects m with
  | inside hkernel => exact hkernel.sameTurn.closed_eq
  | shut hshutdown _ => exact absurd hshutdown hm
  | passed pid gate hlook hkernel =>
      rw [hkernel]
      obtain ⟨-, -, -, rfl⟩ := Gate.look_eq_passed_iff.mp hlook
      rfl
  | left pid hkernel =>
      rw [hkernel]
      exact Gate.closed_release _ _

theorem closed_run {moves : List (Move ρ)} (h : .request .shutdown ∉ moves) :
    (world.run moves).kernel.gate.closed = world.kernel.gate.closed := by
  induction moves generalizing world with
  | nil => rfl
  | cons m rest ih =>
      rw [List.mem_cons, not_or] at h
      exact (ih h.2).trans (closed_move (Ne.symm h.1))

/-- Whatever bodies do and others ask for, the token is with the selected process
until the gate is shut. The selected process is runnable, has some of its slice
left and owns its space, and so can be put to sleep. -/
theorem current_holds_token {config : Config} {k : Kernel} (hboot : Kernel.boot config = .ok k)
    (moves : List (Move ρ)) :
    let last := ((new k).run moves).kernel
    (.request .shutdown ∉ moves → last.gate.holder = last.current) ∧
    (∀ pid, last.current = some pid → ∃ task, last.find? pid = some task ∧
      task.state = .runnable ∧ 0 < task.counter ∧ task.space.isSome = true) ∧
    ∀ interruptible, ∃ next, (last.sleep interruptible).result = .ok next := by
  obtain ⟨-, rfl⟩ := Kernel.boot_eq_ok_iff.mp hboot
  intro last
  have hlast : Dispatched last :=
    run_invariant (fun world : World ρ => Dispatched world.kernel)
      (fun world m h => move_dispatched m h) (Kernel.ofConfig_dispatched config) moves
  refine ⟨?_, ?_, Kernel.exists_sleep_ok hlast⟩
  · intro hopen
    exact hlast.holder_eq (closed_run hopen)
  · intro pid hcurrent
    obtain ⟨task, hmem, hpid, hruns⟩ := hlast.canRun pid hcurrent (by simp)
    obtain ⟨hstate, hcounter⟩ := Task.isRunnable_iff.mp hruns
    refine ⟨task, (Scheduler.find?_eq_some_iff hlast.proper).mpr ⟨hmem, hpid⟩, hstate, hcounter, ?_⟩
    exact hlast.housed task hmem (Task.isZombie_of_state (by simp [hstate]))

/-- The body of the first process exits while it runs, and its child is selected. -/
theorem current_holds_token_exit :
    let moves : List (Move Unit) :=
      [.request .createInit, .request (.spawn "a" initPid 0), .request .schedule,
        .launch initPid, .advance 0, .call 0 (.exit 3), .advance 0]
    let last := ((new (Kernel.ofConfig Config.small)).run moves).kernel
    Kernel.boot Config.small = .ok (Kernel.ofConfig Config.small) ∧
    last.current = some 2 ∧ last.gate.holder = last.current ∧
    (∃ task, last.find? 2 = some task ∧ task.state = .runnable ∧ 0 < task.counter ∧
      task.space.isSome = true) ∧
    ∃ next, (last.sleep true).result = .ok next := by
  intro moves last
  have hboot : Kernel.boot Config.small = .ok (Kernel.ofConfig Config.small) :=
    Kernel.boot_eq_ok_iff.mpr ⟨by decide, rfl⟩
  have hcurrent : last.current = some 2 := by decide +kernel
  obtain ⟨hholder, hruns, hsleep⟩ := current_holds_token hboot moves
  exact ⟨hboot, hcurrent, hholder (by simp [moves]), hruns 2 hcurrent, hsleep true⟩

end World

end Kernelet
