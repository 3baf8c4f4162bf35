import Kernelet.Kernel.Lifecycle

/-!
What may be asked of a kernel from outside, as data, and the answers. A history
of a kernel is a list of these requests. One that fails may have left a trace,
and then the kernel goes on from there.
-/

namespace Kernelet.Kernel

/-- A request to the kernel. -/
inductive Request where
  | createInit
  | spawn (name : String) (parent : Pid) (pages : Nat)
  | schedule
  | timerTick
  | sleep (interruptible : Bool)
  | wakeAll
  | fork (parent : Pid)
  | exit (pid : Pid) (code : Int)
  /-- Reap a child, if one has terminated. -/
  | wait (parent : Pid)
  /-- Reap a child, or sleep until one has terminated. -/
  | waitOrBlock (parent : Pid)
  | kill (pid : Pid) (signal : Signal)
  | exec (pid : Pid)
  /-- Ask something of the address space of a process. -/
  | access (pid : Pid) (request : Memory.Request)
  | shutdown
deriving DecidableEq

/-- The answer to a request that succeeds. -/
inductive Reply where
  | done
  /-- The number of a process that is new. -/
  | created (pid : Pid)
  | selected (next : Option Pid)
  /-- Whether a tick led to a new selection. -/
  | ticked (selected : Bool)
  /-- How many tasks were asleep. -/
  | woken (count : Nat)
  | reaped (pid : Pid) (code : Int)
  /-- No child has terminated yet, and the process sleeps. -/
  | asleep
  /-- The answer of an address space. -/
  | access (reply : Memory.Reply)
deriving DecidableEq

/-- Asks something of the address space of process `pid`. -/
def access (k : Kernel) (pid : Pid) (request : Memory.Request) : Outcome Kernel Reply :=
  let asked := k.accessSpace pid fun m =>
    match m.serve request with
    | ⟨result, m⟩ => (result, m)
  ⟨asked.result.bind fun result => result.map .access, asked.state⟩

/-- An operation that changes the kernel only if it succeeds. -/
def commit (k : Kernel) (result : Except KernelError Kernel) : Outcome Kernel Reply :=
  match result with
  | .ok k => ⟨.ok .done, k⟩
  | .error e => ⟨.error e, k⟩

def serve (k : Kernel) : Request → Outcome Kernel Reply
  | .createInit => k.createInit.map .created
  | .spawn name parent pages => (k.spawn name parent pages).map .created
  | .schedule =>
    let (next, k) := k.schedule
    ⟨.ok (.selected next), k⟩
  | .timerTick =>
    let (selected, k) := k.timerTick
    ⟨.ok (.ticked selected), k⟩
  | .sleep interruptible => (k.sleep interruptible).map .selected
  | .wakeAll =>
    let (count, k) := k.wakeAll
    ⟨.ok (.woken count), k⟩
  | .fork parent => (k.fork parent).map .created
  | .exit pid code => k.commit (k.exit pid code)
  | .wait parent => (k.wait parent).map fun (pid, code) => .reaped pid code
  | .waitOrBlock parent =>
    (k.waitOrBlock parent).map fun
      | some (pid, code) => .reaped pid code
      | none => .asleep
  | .kill pid signal => k.commit (k.kill pid signal)
  | .exec pid => k.commit (k.exec pid)
  | .access pid request => k.access pid request
  | .shutdown => ⟨.ok .done, k.shutdown⟩

/-- Serves requests in turn and returns the results in the same order. -/
def serveAll (k : Kernel) : List Request → List (Except KernelError Reply) × Kernel
  | [] => ([], k)
  | request :: rest =>
    match k.serve request with
    | ⟨result, k⟩ =>
      let (results, k) := k.serveAll rest
      (result :: results, k)

end Kernelet.Kernel
