import Mathlib.Data.List.Nodup
import Kernelet.Proofs.Body.World

/-!
Bodies never overlap, and act in their own turn only. At most one body executes at
a time, and a call of a body has an effect only while its process is the selected
one, lives, and has passed the gate. A process that has ended has no effect at
all: its calls are refused, unless numbers come round and another process has got its own.
All this holds through every history in which no process is given a second body
(`takeTurns_of_boot`).
-/

namespace Kernelet

open Kernel (Inside Dispatched Over)

variable {ρ : Type}

namespace Actor

/-- The body goes on, and executes after that if and only if it did before. -/
structure Goes (k : Kernel) (actor next : Actor ρ) : Prop where
  pid_eq : next.pid = actor.pid
  executing_eq : next.executing = actor.executing
  isExecuting_eq : k.gate.closed = false → next.point.isExecuting = actor.point.isExecuting
  isUnderWay : next.point.isUnderWay = true → actor.point.isUnderWay = true

theorem Goes.refl (k : Kernel) (actor : Actor ρ) : actor.Goes k actor :=
  ⟨rfl, rfl, fun _ => rfl, fun h => h⟩

theorem pid_advance (actor : Actor ρ) (k : Kernel) : (actor.advance k).2.pid = actor.pid :=
  rfl

/-- Whatever the code of a body chooses to do, the body goes on. -/
theorem choose_goes (actor : Actor ρ) (k : Kernel) {point : Point ρ}
    (h : point.isExecuting = true) : actor.Goes k (actor.choose point) := by
  unfold choose
  split
  · rename_i hfree
    obtain ⟨pid, current, executing⟩ := actor
    cases current <;> cases hfree
    · exact ⟨rfl, rfl, fun _ => h, fun _ => rfl⟩
    · exact ⟨rfl, rfl, fun _ => h, fun _ => rfl⟩
  · exact Goes.refl k actor

end Actor

theorem Point.isUnderWay_of_isFree {point : Point ρ} (h : point.isFree = true) :
    point.isUnderWay = true := by
  cases point <;> cases h <;> rfl

namespace World

/-- It is the turn of process `pid`: it is the selected one and lives, and it runs
unless the gate is shut. -/
structure OnTurn (k : Kernel) (pid : Pid) : Prop where
  current : k.current = some pid
  lives : ∃ task, k.find? pid = some task ∧ task.isZombie = false
  running : k.gate.closed = false → k.gate.running = some pid

/-- The error for a process that is gone, or has terminated. -/
def Refusal (k : Kernel) (pid : Pid) (e : KernelError) : Prop :=
  (k.find? pid = none ∧ e = .noSuchProcess pid) ∨
    ∃ task, k.find? pid = some task ∧ task.isZombie = true ∧ e = .invalidState pid .zombie

/-- What becomes of a call with which process `pid` enters the kernel: the kernel
after that, and how far the body has come. -/
inductive Enters (k : Kernel) (pid : Pid) (call : Call ρ) : Kernel → Point ρ → Prop where
  /-- The call takes effect. -/
  | acts (h : OnTurn k pid) : Enters k pid call (call.run k pid).1 (call.run k pid).2
  | refused (e : KernelError) (h : Refusal k pid e) : Enters k pid call k (.returned (.error e))
  /-- The body gives up the CPU, and makes the call once more when it has it. -/
  | delayed (h : k.current ≠ some pid) : Enters k pid call k (.leaving (.again call))

/-- At most one body executes. A call takes effect in the turn of its process, and
otherwise changes nothing. If the process had ended when the call was made, then the
call is refused, whatever happens before it gets into the kernel, as long as no number
comes round. -/
structure TakeTurns (world : World ρ) : Prop where
  alone : ∀ (i j : Nat) (a b : Actor ρ), world.actors[i]? = some a →
    world.actors[j]? = some b → a.executing = true → b.executing = true → i = j
  enters : ∀ (i : Nat) (actor : Actor ρ) (call : Call ρ), world.actors[i]? = some actor →
    actor.point = .entering call →
      ∃ after point, Enters world.kernel actor.pid call after point ∧
        world.move (.advance i) = ⟨after, world.actors.set i { actor with point }⟩
  refused : ∀ (i : Nat) (actor : Actor ρ) (call : Call ρ), world.actors[i]? = some actor →
    actor.point.isFree = true →
    (∀ task, world.kernel.find? actor.pid = some task → task.isZombie = true) →
    ∀ more, .advance i ∉ more →
      let before := world.run (.call i call :: more)
      let after := before.move (.advance i)
      before.kernel.NumbersFit →
      ∃ e, Refusal before.kernel actor.pid e ∧ after.kernel = before.kernel ∧
        after.actors[i]? = some { actor with point := .returned (.error e) }

/-- One body for each process at most. At most one of them executes, and that is the
one that runs, as long as the gate is open. -/
structure Orderly (world : World ρ) : Prop where
  dispatched : Dispatched world.kernel
  nodup : (world.actors.map Actor.pid).Nodup
  executing_eq : world.kernel.gate.closed = false →
    ∀ (i : Nat) (actor : Actor ρ), world.actors[i]? = some actor →
      actor.executing = actor.point.isExecuting
  runner : ∃ runner, (world.kernel.gate.closed = false → world.kernel.gate.running = runner) ∧
    ∀ (i : Nat) (actor : Actor ρ), world.actors[i]? = some actor → actor.executing = true →
      runner = some actor.pid
  created : ∀ (i : Nat) (actor : Actor ρ), world.actors[i]? = some actor →
    actor.point.isUnderWay = true → actor.pid < world.kernel.sched.nextPid

variable {world : World ρ} {m : Move ρ}

theorem pid_choose (actor : Actor ρ) (point : Point ρ) : (actor.choose point).pid = actor.pid := by
  unfold Actor.choose
  split <;> rfl

theorem pids_modify (actors : List (Actor ρ)) (i : Nat) (point : Point ρ) :
    (actors.modify i fun actor => actor.choose point).map Actor.pid = actors.map Actor.pid := by
  apply List.ext_getElem?
  intro j
  rw [List.getElem?_map, List.getElem?_map, List.getElem?_modify]
  cases actors[j]? with
  | none => rfl
  | some actor =>
      simp only [Option.map_some, Option.map_eq_map]
      split
      · rw [pid_choose]
      · rfl

theorem pids_set {actors : List (Actor ρ)} {i : Nat} {actor next : Actor ρ}
    (h : actors[i]? = some actor) (hpid : next.pid = actor.pid) :
    (actors.set i next).map Actor.pid = actors.map Actor.pid := by
  obtain ⟨hlt, hget⟩ := List.getElem?_eq_some_iff.mp h
  have hlen : i < (actors.map Actor.pid).length := by simpa using hlt
  have hself : (actors.map Actor.pid)[i] = actor.pid := by simp [hget]
  rw [List.map_set, hpid, ← hself]
  exact List.set_getElem_self _

theorem mem_set_cases {actors : List (Actor ρ)} {i j : Nat} {next other : Actor ρ}
    (h : (actors.set i next)[j]? = some other) :
    (i = j ∧ other = next) ∨ (i ≠ j ∧ actors[j]? = some other) := by
  rw [List.getElem?_set] at h
  split at h
  · rename_i heq
    split at h
    · exact Or.inl ⟨heq, (Option.some.inj h).symm⟩
    · cases h
  · rename_i hne
    exact Or.inr ⟨hne, h⟩

/-- A move starts the body that it launches, and no other. -/
theorem pids_move (world : World ρ) (m : Move ρ) :
    (world.move m).actors.map Actor.pid = world.actors.map Actor.pid ++ m.launched?.toList := by
  cases m with
  | request request => simp [move, Move.launched?]
  | launch pid => simp [move, Move.launched?, Actor.new]
  | call i call => simpa [move, Move.launched?] using pids_modify world.actors i _
  | stop i outcome => simpa [move, Move.launched?] using pids_modify world.actors i _
  | advance i =>
      cases hactor : world.actors[i]? with
      | none => simp [move_advance_none hactor, Move.launched?]
      | some actor =>
          rw [move_advance hactor, show (Move.advance i : Move ρ).launched?.toList = [] from rfl,
            List.append_nil]
          exact pids_set hactor (actor.pid_advance world.kernel)

/-- Two bodies of one process are the same body. -/
theorem index_eq {actors : List (Actor ρ)} (h : (actors.map Actor.pid).Nodup) {i j : Nat}
    {a b : Actor ρ} (ha : actors[i]? = some a) (hb : actors[j]? = some b) (hpid : a.pid = b.pid) :
    i = j := by
  have hi : (actors.map Actor.pid)[i]? = some a.pid := by simp [ha]
  have hj : (actors.map Actor.pid)[j]? = some a.pid := by simp [hb, hpid]
  have hlt : i < (actors.map Actor.pid).length := (List.getElem?_eq_some_iff.mp hi).1
  exact (List.getElem?_inj hlt h).mp (hi.trans hj.symm)

namespace Orderly

theorem of_new {k : Kernel} (h : Dispatched k) : Orderly (new k : World ρ) where
  dispatched := h
  nodup := List.nodup_nil
  executing_eq := by simp [new]
  runner := ⟨k.gate.running, fun _ => rfl, by simp [new]⟩
  created := by simp [new]

/-- Bodies go on, and what happens to the kernel is inside. -/
theorem go (h : Orderly world) {after : Kernel} {actors : List (Actor ρ)}
    (hkernel : Inside world.kernel after) (hnodup : (actors.map Actor.pid).Nodup)
    (hgo : ∀ (i : Nat) (next : Actor ρ), actors[i]? = some next →
      ∃ actor : Actor ρ, world.actors[i]? = some actor ∧ actor.Goes world.kernel next) :
    Orderly ⟨after, actors⟩ := by
  have hturn := hkernel.sameTurn
  refine ⟨hkernel.dispatched h.dispatched, hnodup, ?_, ?_, ?_⟩
  · intro hopen i next hnext
    obtain ⟨actor, hactor, hgoes⟩ := hgo i next hnext
    have hbefore : world.kernel.gate.closed = false := hturn.closed_eq.symm.trans hopen
    rw [hgoes.executing_eq, hgoes.isExecuting_eq hbefore]
    exact h.executing_eq hbefore i actor hactor
  · obtain ⟨runner, hrunning, hrunner⟩ := h.runner
    refine ⟨runner, ?_, ?_⟩
    · intro hopen
      exact hturn.running_eq.trans (hrunning (hturn.closed_eq.symm.trans hopen))
    · intro i next hnext hexecuting
      obtain ⟨actor, hactor, hgoes⟩ := hgo i next hnext
      rw [hgoes.pid_eq]
      exact hrunner i actor hactor (hgoes.executing_eq.symm.trans hexecuting)
  · intro i next hnext hway
    obtain ⟨actor, hactor, hgoes⟩ := hgo i next hnext
    rw [hgoes.pid_eq]
    exact Nat.lt_of_lt_of_le (h.created i actor hactor (hgoes.isUnderWay hway))
      (hkernel.nextPid_le h.dispatched)

theorem choose (h : Orderly world) (i : Nat) {point : Point ρ} (hpoint : point.isExecuting = true) :
    Orderly { world with
      actors := world.actors.modify i fun actor => actor.choose point } := by
  apply h.go Inside.idle
  · rw [pids_modify]
    exact h.nodup
  · intro j next hnext
    rw [List.getElem?_modify, Option.map_eq_map, Option.map_eq_some_iff] at hnext
    obtain ⟨actor, hactor, rfl⟩ := hnext
    refine ⟨actor, hactor, ?_⟩
    split
    · exact actor.choose_goes world.kernel hpoint
    · exact Actor.Goes.refl _ actor

/-- Once the gate is shut it does not matter who runs. -/
theorem shutdown (h : Orderly world) : Orderly { world with kernel := world.kernel.shutdown } := by
  obtain ⟨runner, -, hrunner⟩ := h.runner
  refine ⟨Kernel.shutdown_dispatched h.dispatched, h.nodup, ?_, ⟨runner, ?_, hrunner⟩, h.created⟩
  · intro hopen
    cases hopen
  · intro hopen
    cases hopen

theorem launch (h : Orderly world) (pid : Pid)
    (hnodup : ((world.move (.launch pid)).actors.map Actor.pid).Nodup) :
    Orderly (world.move (.launch pid)) := by
  have hold : ∀ (i : Nat) (actor : Actor ρ), (world.move (.launch pid)).actors[i]? = some actor →
      world.actors[i]? = some actor ∨ actor = Actor.new pid := by
    intro i actor hactor
    simp only [move] at hactor
    rw [List.getElem?_append] at hactor
    split at hactor
    · exact Or.inl hactor
    · exact Or.inr (List.mem_singleton.mp (List.mem_of_getElem? hactor))
  obtain ⟨runner, hrunning, hrunner⟩ := h.runner
  refine ⟨h.dispatched, hnodup, ?_, ⟨runner, hrunning, ?_⟩, ?_⟩
  · intro hopen i actor hactor
    rcases hold i actor hactor with hactor | rfl
    · exact h.executing_eq hopen i actor hactor
    · rfl
  · intro i actor hactor hexecuting
    rcases hold i actor hactor with hactor | rfl
    · exact hrunner i actor hactor hexecuting
    · cases hexecuting
  · intro i actor hactor hway
    rcases hold i actor hactor with hactor | rfl
    · exact h.created i actor hactor hway
    · cases hway

/-- A body that passes finds nobody else running. -/
theorem pass (h : Orderly world) {i : Nat} {actor next : Actor ρ} {gate : Gate}
    (hactor : world.actors[i]? = some actor)
    (hlook : world.kernel.gate.look actor.pid = .passed gate)
    (hpid : next.pid = actor.pid) (hnext : next.executing = true)
    (hpoint : next.point.isExecuting = true) :
    Orderly ⟨{ world.kernel with gate }, world.actors.set i next⟩ := by
  obtain ⟨hopen, hholder, hfree, rfl⟩ := Gate.look_eq_passed_iff.mp hlook
  have hk := h.dispatched
  have hcurrent : world.kernel.current = some actor.pid := (hk.holder_eq hopen).symm.trans hholder
  obtain ⟨runner, hrunning, hrunner⟩ := h.runner
  refine ⟨Kernel.look_dispatched hk hlook, ?_, ?_, ⟨some actor.pid, ?_, ?_⟩, ?_⟩
  · rw [pids_set hactor hpid]
    exact h.nodup
  · intro _ j other hother
    rcases mem_set_cases hother with ⟨-, rfl⟩ | ⟨-, hold⟩
    · rw [hnext, hpoint]
    · exact h.executing_eq hopen j other hold
  · intro _
    rfl
  · intro j other hother hexecuting
    rcases mem_set_cases hother with ⟨-, rfl⟩ | ⟨-, hold⟩
    · rw [hpid]
    · -- Whoever executed before is the one that the gate let pass.
      have hsame := (hrunning hopen).trans (hrunner j other hold hexecuting)
      rcases hfree with hnone | hsome
      · rw [hnone] at hsame
        cases hsame
      · exact hsome.symm.trans hsame
  · intro j other hother hway
    rcases mem_set_cases hother with ⟨-, rfl⟩ | ⟨-, hold⟩
    · obtain ⟨task, hmem, htask, -⟩ := hk.canRun actor.pid hcurrent (by simp)
      rw [hpid, ← htask]
      exact hk.proper.pid_lt task hmem
    · exact h.created j other hold hway

/-- A body that gives up the CPU leaves the others alone. -/
theorem leave (h : Orderly world) {i : Nat} {actor next : Actor ρ}
    (hactor : world.actors[i]? = some actor) (hpid : next.pid = actor.pid)
    (hnext : next.executing = false) (hpoint : next.point.isExecuting = false)
    (hway : actor.point.isUnderWay = true) :
    Orderly ⟨{ world.kernel with gate := world.kernel.gate.release actor.pid },
      world.actors.set i next⟩ := by
  obtain ⟨runner, hrunning, hrunner⟩ := h.runner
  refine ⟨Kernel.release_dispatched h.dispatched actor.pid, ?_, ?_,
    ⟨if runner = some actor.pid then none else runner, ?_, ?_⟩, ?_⟩
  · rw [pids_set hactor hpid]
    exact h.nodup
  · rw [Gate.closed_release]
    intro hopen j other hother
    rcases mem_set_cases hother with ⟨-, rfl⟩ | ⟨-, hold⟩
    · rw [hnext, hpoint]
    · exact h.executing_eq hopen j other hold
  · rw [Gate.closed_release]
    intro hopen
    have hrun := hrunning hopen
    split
    · rename_i hself
      exact Gate.running_release_self (hrun.trans hself)
    · rename_i hother
      dsimp only
      rw [Gate.release_of_ne (by rw [hrun]; exact hother), hrun]
  · intro j other hother hexecuting
    rcases mem_set_cases hother with ⟨-, rfl⟩ | ⟨hne, hold⟩
    · rw [hnext] at hexecuting
      cases hexecuting
    · have hsome := hrunner j other hold hexecuting
      rw [if_neg, hsome]
      rw [hsome]
      intro heq
      exact hne (index_eq h.nodup hactor hold (Option.some.inj heq).symm)
  · intro j other hother hother_way
    rcases mem_set_cases hother with ⟨-, rfl⟩ | ⟨-, hold⟩
    · rw [hpid]
      exact h.created i actor hactor hway
    · exact h.created j other hold hother_way

theorem advance (h : Orderly world) (i : Nat) : Orderly (world.move (.advance i)) := by
  cases hactor : world.actors[i]? with
  | none =>
      rw [move_advance_none hactor]
      exact h
  | some actor =>
      rw [move_advance hactor]
      cases actor.advances world.kernel with
      | passed resume seen gate _ hlook hrun =>
          rw [hrun]
          exact h.pass hactor hlook rfl rfl (by cases resume <;> rfl)
      | left hkernel hexecuting hpoint hway =>
          rw [hkernel]
          exact h.leave hactor rfl hexecuting hpoint hway
      | inside hkernel hexecuting hpoint hway =>
          apply h.go hkernel.inside
          · rw [pids_set hactor (actor.pid_advance world.kernel)]
            exact h.nodup
          · intro j next hnext
            rcases mem_set_cases hnext with ⟨rfl, rfl⟩ | ⟨-, hold⟩
            · exact ⟨actor, hactor, actor.pid_advance _, hexecuting, hpoint, hway⟩
            · exact ⟨next, hold, Actor.Goes.refl _ next⟩

/-- Every move keeps order, as long as no process gets a second body. -/
theorem move (h : Orderly world) (m : Move ρ)
    (hnodup : ((world.move m).actors.map Actor.pid).Nodup) : Orderly (world.move m) := by
  cases m with
  | request request =>
      by_cases hshutdown : request = .shutdown
      · subst hshutdown
        exact h.shutdown
      · exact h.go (Inside.served request hshutdown) hnodup
          fun i actor hactor => ⟨actor, hactor, Actor.Goes.refl _ actor⟩
  | launch pid => exact h.launch pid hnodup
  | call i call => exact h.choose i rfl
  | stop i outcome => exact h.choose i rfl
  | advance i => exact h.advance i

theorem run (h : Orderly world) {moves : List (Move ρ)}
    (hnodup : (world.actors.map Actor.pid ++ moves.filterMap Move.launched?).Nodup) :
    Orderly (world.run moves) := by
  induction moves generalizing world with
  | nil => exact h
  | cons m rest ih =>
      have hsplit : world.actors.map Actor.pid ++ (m :: rest).filterMap Move.launched? =
          (world.move m).actors.map Actor.pid ++ rest.filterMap Move.launched? := by
        rw [pids_move, List.append_assoc]
        cases hlaunched : m.launched? <;> simp [hlaunched]
      rw [hsplit] at hnodup
      exact ih (h.move m (List.nodup_append.mp hnodup).1) hnodup

/-- At most one body executes. -/
theorem eq_of_executing (h : Orderly world) {i j : Nat} {a b : Actor ρ}
    (ha : world.actors[i]? = some a) (hb : world.actors[j]? = some b)
    (haexecuting : a.executing = true) (hbexecuting : b.executing = true) : i = j := by
  obtain ⟨runner, -, hrunner⟩ := h.runner
  have hsame := (hrunner i a ha haexecuting).symm.trans (hrunner j b hb hbexecuting)
  exact index_eq h.nodup ha hb (Option.some.inj hsame)

/-- A body that enters the kernel runs, unless the gate is shut. -/
theorem running_of_entering (h : Orderly world) {i : Nat} {actor : Actor ρ} {call : Call ρ}
    (hactor : world.actors[i]? = some actor) (hpoint : actor.point = .entering call)
    (hopen : world.kernel.gate.closed = false) : world.kernel.gate.running = some actor.pid := by
  obtain ⟨runner, hrunning, hrunner⟩ := h.runner
  have hexecuting : actor.executing = true := by
    rw [h.executing_eq hopen i actor hactor, hpoint]
    rfl
  exact (hrunning hopen).trans (hrunner i actor hactor hexecuting)

end Orderly

theorem Refusal.of_isZombie {k : Kernel} {pid : Pid} {task : Task} (hfind : k.find? pid = some task)
    (hdead : task.isZombie = true) : Refusal k pid task.invalidState := by
  refine Or.inr ⟨task, hfind, hdead, ?_⟩
  have hstate : task.state = .zombie := by simpa [Task.isZombie] using hdead
  unfold Task.invalidState
  rw [hstate, Scheduler.pid_of_find? hfind]

/-- A call is refused, delayed, or takes effect, and that only in its turn. -/
theorem enters_enter (call : Call ρ) {k : Kernel} {pid : Pid}
    (hrunning : k.gate.closed = false → k.gate.running = some pid) :
    Enters k pid call (call.enter k pid).1 (call.enter k pid).2 := by
  unfold Call.enter
  cases hfind : k.find? pid with
  | none => exact Enters.refused _ (Or.inl ⟨hfind, rfl⟩)
  | some task =>
      dsimp only
      split
      · rename_i hdead
        exact Enters.refused _ (Refusal.of_isZombie hfind hdead)
      · rename_i hlive
        split
        · rename_i hcurrent
          exact Enters.acts ⟨hcurrent, ⟨task, hfind, by simpa using hlive⟩, hrunning⟩
        · rename_i hother
          exact Enters.delayed hother

/-- A process that has ended is refused. -/
theorem enter_of_over (call : Call ρ) {k : Kernel} {pid : Pid} (h : Over k pid) :
    ∃ e, Refusal k pid e ∧ call.enter k pid = (k, .returned (.error e)) := by
  unfold Call.enter
  cases hfind : k.find? pid with
  | none => exact ⟨_, Or.inl ⟨hfind, rfl⟩, rfl⟩
  | some task =>
      have hdead : task.isZombie = true := by
        by_contra hlive
        apply h.ended
        rw [Scheduler.fate?_of_find? hfind, Task.fate_of_live (by simpa using hlive)]
      dsimp only
      rw [if_pos hdead]
      exact ⟨_, Refusal.of_isZombie hfind hdead, rfl⟩

theorem advance_of_entering {i : Nat} {actor : Actor ρ} {call : Call ρ}
    (hactor : world.actors[i]? = some actor) (hpoint : actor.point = .entering call) :
    world.move (.advance i) = ⟨(call.enter world.kernel actor.pid).1,
      world.actors.set i { actor with point := (call.enter world.kernel actor.pid).2 }⟩ := by
  rw [move_advance hactor]
  simp [Actor.advance, Actor.executesNext, Point.advance, hpoint]

theorem nextPid_le_move (h : Dispatched world.kernel) (m : Move ρ) :
    world.kernel.sched.nextPid ≤ (world.move m).kernel.sched.nextPid := by
  cases world.affects m with
  | inside hkernel => exact hkernel.nextPid_le h
  | shut _ hkernel =>
      rw [hkernel]
      exact Nat.le_refl _
  | passed _ _ _ hkernel => rw [hkernel]
  | left _ hkernel => rw [hkernel]

/-- Numbers are given out in order, whatever moves there are. -/
theorem nextPid_le_run (h : Dispatched world.kernel) (moves : List (Move ρ)) :
    world.kernel.sched.nextPid ≤ (world.run moves).kernel.sched.nextPid := by
  induction moves generalizing world with
  | nil => exact Nat.le_refl _
  | cons m rest ih => exact (nextPid_le_move h m).trans (ih (move_dispatched m h))

theorem move_over {pid : Pid} (h : Dispatched world.kernel) (hover : Over world.kernel pid)
    (hfit : (world.move m).kernel.NumbersFit) : Over (world.move m).kernel pid := by
  cases world.affects m with
  | inside hkernel => exact hkernel.over_after h hover hfit
  | shut _ hkernel =>
      rw [hkernel]
      exact ⟨hover.created, hover.ended⟩
  | passed _ _ _ hkernel =>
      rw [hkernel]
      exact ⟨hover.created, hover.ended⟩
  | left _ hkernel =>
      rw [hkernel]
      exact ⟨hover.created, hover.ended⟩

/-- A body that has entered a call stays where it is until it goes on by itself. -/
theorem getElem?_move {i : Nat} {actor : Actor ρ} (hactor : world.actors[i]? = some actor)
    (hbusy : actor.point.isFree = false) (hm : m ≠ .advance i) :
    (world.move m).actors[i]? = some actor := by
  have hchoose : ∀ point, actor.choose point = actor := by
    intro point
    simp [Actor.choose, hbusy]
  cases m with
  | request request => exact hactor
  | launch pid =>
      simp only [move]
      rw [List.getElem?_append_left (List.getElem?_eq_some_iff.mp hactor).1]
      exact hactor
  | call j call => simp [move, List.getElem?_modify, hactor, hchoose]
  | stop j outcome => simp [move, List.getElem?_modify, hactor, hchoose]
  | advance j =>
      have hne : j ≠ i := by
        rintro rfl
        exact hm rfl
      cases hother : world.actors[j]? with
      | none =>
          rw [move_advance_none hother]
          exact hactor
      | some other =>
          rw [move_advance hother]
          dsimp only
          rw [List.getElem?_set_ne hne]
          exact hactor

/-- While a body of a process that has ended waits to get into the kernel, nothing
changes for it. -/
theorem run_over {i : Nat} {actor : Actor ρ} {more : List (Move ρ)}
    (hactor : world.actors[i]? = some actor) (hbusy : actor.point.isFree = false)
    (h : Dispatched world.kernel) (hover : Over world.kernel actor.pid)
    (hmore : .advance i ∉ more) (hfit : (world.run more).kernel.NumbersFit) :
    Over (world.run more).kernel actor.pid ∧ (world.run more).actors[i]? = some actor := by
  induction more generalizing world with
  | nil => exact ⟨hover, hactor⟩
  | cons m rest ih =>
      rw [List.mem_cons, not_or] at hmore
      have hafter := move_dispatched m h
      exact ih (getElem?_move hactor hbusy (Ne.symm hmore.1)) hafter
        (move_over h hover (hfit.of_le (nextPid_le_run hafter rest))) hmore.2 hfit

theorem Orderly.takeTurns (h : Orderly world) : TakeTurns world := by
  refine ⟨?_, ?_, ?_⟩
  · intro i j a b ha hb
    exact h.eq_of_executing ha hb
  · intro i actor call hactor hpoint
    exact ⟨_, _, enters_enter call (h.running_of_entering hactor hpoint),
      advance_of_entering hactor hpoint⟩
  · intro i actor call hactor hfree hended more hmore before after hfit
    have hover : Over world.kernel actor.pid := by
      refine ⟨h.created i actor hactor (Point.isUnderWay_of_isFree hfree), ?_⟩
      intro hlives
      obtain ⟨task, hfind, hfate⟩ := Option.map_eq_some_iff.mp hlives
      have hlive := Task.fate_eq_none_iff.mp hfate
      rw [hended task hfind] at hlive
      cases hlive
    have hcalled : (world.move (.call i call)).actors[i]? =
        some { actor with point := .entering call } := by
      simp [World.move, hactor, Actor.choose, hfree]
    obtain ⟨hstill, hthere⟩ := run_over hcalled rfl h.dispatched hover hmore hfit
    obtain ⟨e, hrefusal, henter⟩ := enter_of_over call hstill
    have hafter : after = ⟨before.kernel,
        before.actors.set i { actor with point := .returned (.error e) }⟩ := by
      have hadvance := advance_of_entering hthere rfl
      rw [henter] at hadvance
      exact hadvance
    refine ⟨e, hrefusal, ?_, ?_⟩
    · rw [hafter]
    · rw [hafter]
      exact List.getElem?_set_self (List.getElem?_eq_some_iff.mp hthere).1

/-- Bodies take turns, whatever they do and whatever is asked for from outside, if
no process is given a second body. -/
theorem takeTurns_of_boot {config : Config} {k : Kernel} (hboot : Kernel.boot config = .ok k)
    {moves : List (Move ρ)} (hlaunched : (moves.filterMap Move.launched?).Nodup) :
    TakeTurns ((new k).run moves) := by
  obtain ⟨-, rfl⟩ := Kernel.boot_eq_ok_iff.mp hboot
  have hstart := Orderly.of_new (ρ := ρ) (Kernel.ofConfig_dispatched config)
  exact (hstart.run (by simpa [new] using hlaunched)).takeTurns

/-- The body of the first process runs on when the process is stopped, and that of
its child waits although it has the token. -/
theorem takeTurns_stopped :
    let moves : List (Move Unit) :=
      [.request .createInit, .request (.spawn "a" initPid 0), .launch initPid, .launch 2,
        .request .schedule, .advance 0, .request (.kill initPid .stop), .advance 1]
    let world := (new (Kernel.ofConfig Config.small)).run moves
    Kernel.boot Config.small = .ok (Kernel.ofConfig Config.small) ∧
    (moves.filterMap Move.launched?).Nodup ∧
    world.kernel.gate.holder = some 2 ∧ world.kernel.gate.running = some initPid ∧
    world.actors.map Actor.executing = [true, false] ∧ TakeTurns world := by
  intro moves world
  have hboot : Kernel.boot Config.small = .ok (Kernel.ofConfig Config.small) :=
    Kernel.boot_eq_ok_iff.mpr ⟨by decide, rfl⟩
  have hlaunched : (moves.filterMap Move.launched?).Nodup := by decide
  refine ⟨hboot, hlaunched, ?_, ?_, ?_, takeTurns_of_boot hboot hlaunched⟩
  · decide +kernel
  · decide +kernel
  · decide +kernel

end World

end Kernelet
