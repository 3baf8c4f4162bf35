import Kernelet.Process.Task

/-!
What may be asked of a task by itself, apart from its place in the table, as data. A history of
a task is a list of these requests.
-/

namespace Kernelet.Task

/-- A request that changes the state or the signals of a task. -/
inductive Request where
  | send (signal : Signal)
  | clearSignal (signal : Signal)
  | blockSignal (signal : Signal)
  | unblockSignal (signal : Signal)
  | execReset
  | block (interruptible : Bool)
  | wake
  | stop
  | resume
  | exit (code : Int)
deriving DecidableEq

/-- An operation that fails leaves the task alone. -/
def commit (task : Task) : Except KernelError Task → Outcome Task Unit
  | .ok after => ⟨.ok (), after⟩
  | .error e => ⟨.error e, task⟩

def serve (task : Task) : Request → Outcome Task Unit
  | .send signal => ⟨.ok (), task.send signal⟩
  | .clearSignal signal => ⟨.ok (), task.clearSignal signal⟩
  | .blockSignal signal => ⟨.ok (), task.blockSignal signal⟩
  | .unblockSignal signal => ⟨.ok (), task.unblockSignal signal⟩
  | .execReset => ⟨.ok (), task.execReset⟩
  | .block interruptible => task.commit (task.block interruptible)
  | .wake => ⟨.ok (), task.wake⟩
  | .stop => task.commit task.stop
  | .resume => ⟨.ok (), task.resume⟩
  | .exit code => task.commit (task.exit code)

/-- The task after requests that were served in turn. -/
def serveAll (task : Task) (requests : List Request) : Task :=
  requests.foldl (fun task request => (task.serve request).state) task

end Kernelet.Task
