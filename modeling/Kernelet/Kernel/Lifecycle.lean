import Kernelet.Kernel.Basic

/-!
The life of a process after its creation: fork, exit, wait, kill and exec.
-/

namespace Kernelet.Kernel

/-- Duplicates process `parent`, which shares its memory copy-on-write with the
child, and returns the number of the child. If the table is full the child is
let go again. -/
def fork (k : Kernel) (parent : Pid) : Outcome Kernel Pid :=
  match k.find? parent with
  | none => ⟨.error (.noSuchProcess parent), k⟩
  | some task =>
    if task.isZombie then
      ⟨.error task.invalidState, k⟩
    else
      match task.space with
      | none => ⟨.error task.invalidState, k⟩
      | some space =>
        match (Memory.mk space k.pool).fork with
        | ⟨.error e, m⟩ =>
          ⟨.error e,
            { k with sched := k.sched.put { task with space := some m.space }, pool := m.pool }⟩
        | ⟨.ok childSpace, m⟩ =>
          let task := { task with space := some m.space }
          let (pid, sched) := (k.sched.put task).allocatePid
          let child := (task.forkChild pid childSpace).startedAt sched.jiffies
          match Machine.add ⟨sched, m.pool⟩ child with
          | ⟨result, machine⟩ => ⟨result.map fun () => pid, k.withMachine machine⟩

/-- The process that inherits the children of `pid`: the first process, unless
that is the one that terminates. -/
def heir (pid : Pid) : Pid :=
  if pid = initPid then 0 else initPid

/-- The children of `pid` go to its heir. -/
def reparent (sched : Scheduler) (pid : Pid) : Scheduler :=
  sched.mapTasks fun task => if task.ppid = pid then { task with ppid := heir pid } else task

/-- A task learns that one of its children has terminated. If it waited for
that it wakes. -/
def notifyParent (task : Task) : Task :=
  let task := task.send .chld
  if task.waitingForChild then { task with waitingForChild := false }.wake else task

/-- Terminates process `pid` with exit code `code`. Its memory is released, its
children go to the first process, its parent is told, and if it was running
another task is selected. -/
def exit (k : Kernel) (pid : Pid) (code : Int) : Except KernelError Kernel :=
  match k.find? pid with
  | none => .error (.noSuchProcess pid)
  | some task =>
    match task.exit code with
    | .error e => .error e
    | .ok task =>
      let (task, pool) := task.releaseSpace k.pool
      let sched := reparent (k.sched.put task) pid
      let sched := sched.update task.ppid notifyParent
      let k := { k with sched, pool }
      .ok (if k.current = some pid then k.schedule.2 else k)

/-- Reaps the first terminated child of `parent` and returns its number and
exit code. If there are children and none has terminated, the parent is marked
as waiting; whether it sleeps is for the caller to decide. -/
def wait (k : Kernel) (parent : Pid) : Outcome Kernel (Pid × Int) :=
  if k.sched.contains parent then
    let children := k.sched.childrenOf parent
    let mark (waiting : Bool) (sched : Scheduler) : Scheduler :=
      sched.update parent fun task => { task with waitingForChild := waiting }
    match children.find? Task.isZombie with
    | some child =>
      let machine : Machine := { k.toMachine with sched := mark false k.sched }
      ⟨.ok (child.pid, child.exitCode.getD 0), k.withMachine (machine.remove child.pid).2⟩
    | none =>
      if children.isEmpty then
        ⟨.error (.noChildren parent), k⟩
      else
        ⟨.error .wouldBlock, { k with sched := mark true k.sched }⟩
  else
    ⟨.error (.noSuchProcess parent), k⟩

/-- Puts process `pid` to sleep until a signal or a wake, and selects another
task if it was running. -/
def blockProcess (k : Kernel) (pid : Pid) : Outcome Kernel Unit :=
  match k.find? pid with
  | none => ⟨.error (.noSuchProcess pid), k⟩
  | some task =>
    match task.block true with
    | .error e => ⟨.error e, k⟩
    | .ok task =>
      let k := { k with sched := k.sched.put task }
      ⟨.ok (), if k.current = some pid then k.schedule.2 else k⟩

/-- Reaps a terminated child of `parent`, or puts `parent` to sleep until one
terminates and returns `none`. -/
def waitOrBlock (k : Kernel) (parent : Pid) : Outcome Kernel (Option (Pid × Int)) :=
  match k.wait parent with
  | ⟨.ok reaped, k⟩ => ⟨.ok (some reaped), k⟩
  | ⟨.error .wouldBlock, k⟩ => (k.blockProcess parent).map fun () => none
  | ⟨.error e, k⟩ => ⟨.error e, k⟩

/-- Sends a signal to process `pid`. A kill terminates it, and a stop takes the
CPU away from it. A terminated process takes no notice. -/
def kill (k : Kernel) (pid : Pid) (signal : Signal) : Except KernelError Kernel :=
  match k.find? pid with
  | none => .error (.noSuchProcess pid)
  | some task =>
    if task.isZombie then
      .ok k
    else
      let k := { k with sched := k.sched.put (task.send signal) }
      match signal with
      | .kill => k.exit pid signal.exitCode
      | .stop => .ok (if k.current = some pid then k.schedule.2 else k)
      | _ => .ok k

/-- Replaces the program image of process `pid`: signals and time spent start
over, only the standard descriptors stay open, and the memory is empty. -/
def exec (k : Kernel) (pid : Pid) : Except KernelError Kernel :=
  match k.find? pid with
  | none => .error (.noSuchProcess pid)
  | some task =>
    if task.isZombie then
      .error task.invalidState
    else
      let (task, pool) := task.execReset.replaceSpace k.newSpace k.pool
      .ok { k with sched := k.sched.put task, pool }

end Kernelet.Kernel
