import Kernelet.Kernel.Request
import Kernelet.Words.Memory

/-!
The kernel on words. Requests that create a process or work with its memory are followed step
by step, since they work out addresses, sizes and numbers of frames and pages. The others work
out none of these, and are served as they are. Clocks, counts of selections and counts of
references have no bound here. Neither has the count of numbers of processes, of which only the
remainder is handed out (`Scheduler.nextNumber`).
-/

namespace Kernelet.Kernel

def boot? (config : Config) : Option (Except KernelError Kernel) :=
  match config.validate with
  | .error e => some (.error e)
  | .ok () => do
    let pool ← FramePool.new? config.totalFrames config.reservedFrames
    pure (.ok {
      sched := Scheduler.new config.maxTasks.toNat
      pool := pool
      config := config
      gate := Gate.new })

/-- The size of the data segment is worked out once all pages are mapped. -/
def newImage? (k : Kernel) (pages : Nat) : Option (Outcome Memory Unit) := do
  match ← (Memory.mk k.newSpace k.pool).mapPages? 0 .userData pages with
  | ⟨.error e, m⟩ => pure ⟨.error e, m.release⟩
  | ⟨.ok (), m⟩ => do
    let stop ← Word.mul? pages pageSize
    pure ⟨.ok (), { m with space := m.space.setData 0 stop }⟩

def spawn? (k : Kernel) (name : String) (parent : Pid) (pages : Nat) :
    Option (Outcome Kernel Pid) :=
  if parent ≠ 0 ∧ k.sched.contains parent = false then
    some ⟨.error (.noSuchProcess parent), k⟩
  else do
    match ← k.newImage? pages with
    | ⟨.error e, m⟩ => pure ⟨.error e, { k with pool := m.pool }⟩
    | ⟨.ok (), m⟩ =>
      let (pid, sched) := k.sched.allocatePid
      let task := ((Task.new pid parent name m.space).withTimeSlice
        k.config.defaultPriority.toNat k.config.defaultCounter.toNat).startedAt sched.jiffies
      match Machine.add ⟨sched, m.pool⟩ task with
      | ⟨result, machine⟩ => pure ⟨result.map fun () => pid, k.withMachine machine⟩

def createInit? (k : Kernel) : Option (Outcome Kernel Pid) :=
  if k.sched.contains initPid then
    some ⟨.error (.alreadyExists initPid), k⟩
  else
    k.spawn? "init" 0 initPages

def fork? (k : Kernel) (parent : Pid) : Option (Outcome Kernel Pid) :=
  match k.find? parent with
  | none => some ⟨.error (.noSuchProcess parent), k⟩
  | some task =>
    if task.isZombie then
      some ⟨.error task.invalidState, k⟩
    else
      match task.space with
      | none => some ⟨.error task.invalidState, k⟩
      | some space => do
        match ← (Memory.mk space k.pool).fork? with
        | ⟨.error e, m⟩ =>
          pure ⟨.error e,
            { k with sched := k.sched.put { task with space := some m.space }, pool := m.pool }⟩
        | ⟨.ok childSpace, m⟩ =>
          let task := { task with space := some m.space }
          let (pid, sched) := (k.sched.put task).allocatePid
          let child := (task.forkChild pid childSpace).startedAt sched.jiffies
          match Machine.add ⟨sched, m.pool⟩ child with
          | ⟨result, machine⟩ => pure ⟨result.map fun () => pid, k.withMachine machine⟩

def accessSpace? {α : Type} (k : Kernel) (pid : Pid) (act : Memory → Option (α × Memory)) :
    Option (Outcome Kernel α) :=
  match k.find? pid with
  | none => some ⟨.error (.noSuchProcess pid), k⟩
  | some task =>
    match task.space with
    | none => some ⟨.error task.invalidState, k⟩
    | some space => do
      let (answer, m) ← act ⟨space, k.pool⟩
      let sched := k.sched.put { task with space := some m.space }
      pure ⟨.ok answer, { k with sched, pool := m.pool }⟩

def access? (k : Kernel) (pid : Pid) (request : Memory.Request) :
    Option (Outcome Kernel Reply) := do
  let asked ← k.accessSpace? pid fun m => do
    match ← m.serve? request with
    | ⟨result, m⟩ => pure (result, m)
  pure ⟨asked.result.bind fun result => result.map .access, asked.state⟩

def serve? (k : Kernel) : Request → Option (Outcome Kernel Reply)
  | .createInit => k.createInit?.map (·.map .created)
  | .spawn name parent pages => (k.spawn? name parent pages).map (·.map .created)
  | .fork parent => (k.fork? parent).map (·.map .created)
  | .access pid request => k.access? pid request
  | request => some (k.serve request)

def serveAll? (k : Kernel) : List Request → Option (List (Except KernelError Reply) × Kernel)
  | [] => some ([], k)
  | request :: rest => do
    let ⟨result, k⟩ ← k.serve? request
    let (results, k) ← k.serveAll? rest
    pure (result :: results, k)

end Kernelet.Kernel
