import Kernelet.Memory.Fork
import Kernelet.Memory.Request
import Kernelet.Words.Basic

/-!
An address space on words. Each operation goes step by step as it does without a limit, and
stops where one of its steps stops.
-/

namespace Kernelet.Memory

def mapPage? (m : Memory) (a : VirtAddr) (flags : PageFlags) : Option (Outcome Memory Unit) :=
  if m.space.table.isMapped a.page then
    some ⟨.ok (), m⟩
  else if a.page < m.space.table.maxPages then do
    match ← m.pool.allocate? with
    | .error e => pure ⟨.error e, m⟩
    | .ok (frame, pool) =>
      match m.space.table.map a.page frame flags with
      | .error e => pure ⟨.error e, { m with pool }⟩
      | .ok table => pure ⟨.ok (), { space := { m.space with table }, pool }⟩
  else
    some ⟨.error (.addressOutOfRange a), m⟩

def mapPages? (m : Memory) (first : Nat) (flags : PageFlags) : Nat → Option (Outcome Memory Unit)
  | 0 => some ⟨.ok (), m⟩
  | count + 1 => do
    match ← m.mapPage? (VirtAddr.ofPage first) flags with
    | ⟨.error e, m⟩ => pure ⟨.error e, m⟩
    | ⟨.ok (), m⟩ => m.mapPages? (first + 1) flags count

def growPages? (m : Memory) (first : Nat) : Nat → Option (Option Nat × Memory)
  | 0 => some (none, m)
  | count + 1 => do
    match ← m.mapPage? (VirtAddr.ofPage first) .userData with
    | ⟨.error _, m⟩ => pure (some (VirtAddr.ofPage first).toNat, m)
    | ⟨.ok (), m⟩ => m.growPages? (first + 1) count

def expandBrk? (m : Memory) (newBrk : VirtAddr) : Option (Nat × Memory) :=
  let brk := m.space.brk
  if newBrk.toNat < m.space.dataEnd then
    some (brk, m)
  else
    match newBrk.alignUp? with
    | none => some (brk, m)
    | some target =>
      if m.space.size < target.toNat || target.toNat ≤ brk then
        some (brk, m)
      else do
        let first := brk / pageSize
        match ← m.growPages? first (target.page - first) with
        | (some stopped, m) =>
          let reached := max brk stopped
          pure (reached, { m with space := { m.space with brk := reached } })
        | (none, m) =>
          pure (target.toNat, { m with space := { m.space with brk := target.toNat } })

def readByte? (m : Memory) (a : VirtAddr) : Option (Except KernelError UInt8) := do
  match ← m.space.table.translate? a with
  | none => pure (.error (.pageFault a))
  | some address => pure (m.pool.readByte address)

def makePrivate? (m : Memory) (p : Nat) (entry : PageEntry) : Option (Outcome Memory Unit) :=
  if m.pool.refCount entry.frame = 1 then
    some (m.makePrivate p entry)
  else do
    match ← m.pool.allocate? with
    | .error e => pure ⟨.error e, m⟩
    | .ok (frame, pool) =>
      match ← pool.copyFrame? entry.frame frame with
      | .error e => pure ⟨.error e, { m with pool := pool.free frame }⟩
      | .ok pool =>
        let pool := pool.free entry.frame
        match m.space.table.map p frame entry.flags.owned with
        | .error e => pure ⟨.error e, { m with pool }⟩
        | .ok table => pure ⟨.ok (), { space := { m.space with table }, pool }⟩

def storeByte? (m : Memory) (a : VirtAddr) (byte : UInt8) : Option (Outcome Memory Unit) := do
  match ← m.space.table.translate? a with
  | none => pure ⟨.error (.pageFault a), m⟩
  | some address =>
    match m.pool.writeByte address byte with
    | .error e => pure ⟨.error e, m⟩
    | .ok pool => pure ⟨.ok (), { m with pool }⟩

def writeByte? (m : Memory) (a : VirtAddr) (byte : UInt8) : Option (Outcome Memory Unit) :=
  match m.space.table.lookup a.page with
  | none => some ⟨.error (.pageFault a), m⟩
  | some entry =>
    if entry.flags.copyOnWrite then do
      match ← m.makePrivate? a.page entry with
      | ⟨.error e, m⟩ => pure ⟨.error e, m⟩
      | ⟨.ok (), m⟩ => m.storeByte? a byte
    else if entry.flags.writable then
      m.storeByte? a byte
    else
      some ⟨.error (.permissionFault a), m⟩

def readFrom? (m : Memory) (a : VirtAddr) (i : Nat) :
    Nat → Option (Except KernelError (List UInt8))
  | 0 => some (.ok [])
  | count + 1 =>
    match rangeAddress a i with
    | .error e => some (.error e)
    | .ok b => do
      match ← m.readByte? b with
      | .error e => pure (.error e)
      | .ok byte => do
        let rest ← m.readFrom? a (i + 1) count
        pure (rest.map (byte :: ·))

def writeFrom? (m : Memory) (a : VirtAddr) (i : Nat) :
    List UInt8 → Option (Outcome Memory Unit)
  | [] => some ⟨.ok (), m⟩
  | byte :: rest =>
    match rangeAddress a i with
    | .error e => some ⟨.error e, m⟩
    | .ok b => do
      match ← m.writeByte? b byte with
      | ⟨.error e, m⟩ => pure ⟨.error e, m⟩
      | ⟨.ok (), m⟩ => m.writeFrom? a (i + 1) rest

/-- The table of a child without the pages that it could not share. -/
def withoutPages? (table : PageTable) : List (Nat × PageEntry) → Option PageTable
  | [] => some table
  | (p, _) :: rest => do
    let (_, after) ← table.unmap? p
    withoutPages? after rest

def Sharing.pages? (s : Sharing) : List (Nat × PageEntry) → Option (Outcome Sharing Unit)
  | [] => some ⟨.ok (), s⟩
  | (p, entry) :: rest =>
    match s.page p entry with
    | .ok s => s.pages? rest
    | .error e => do
      let kept ← withoutPages? s.child ((p, entry) :: rest)
      pure ⟨.error e, { s with child := kept }⟩

def fork? (m : Memory) : Option (Outcome Memory AddressSpace) := do
  let start : Sharing := ⟨m.space.table, m.space.table, m.pool⟩
  match ← start.pages? m.space.table.entries with
  | ⟨.ok (), s⟩ =>
    pure ⟨.ok { m.space with table := s.child },
      { space := { m.space with table := s.parent }, pool := s.pool }⟩
  | ⟨.error e, s⟩ =>
    let child : AddressSpace := { m.space with table := s.child }
    pure ⟨.error e,
      { space := { m.space with table := s.parent }, pool := child.releaseFrames s.pool }⟩

def serve? (m : Memory) : Request → Option (Outcome Memory Reply)
  | .map a flags => (m.mapPage? a flags).map (·.map fun () => .done)
  | .expandBrk newBrk => (m.expandBrk? newBrk).map fun (stop, m) => ⟨.ok (.brk stop), m⟩
  | .readByte a => (m.readByte? a).map fun answer => ⟨answer.map .byte, m⟩
  | .writeByte a byte => (m.writeByte? a byte).map (·.map fun () => .done)
  | .readRange a length => (m.readFrom? a 0 length).map fun answer => ⟨answer.map .bytes, m⟩
  | .writeRange a bytes => (m.writeFrom? a 0 bytes).map (·.map fun () => .done)
  -- nothing is worked out
  | .release => some (m.serve .release)
  | .setCode start stop => some (m.serve (.setCode start stop))
  | .setData start stop => some (m.serve (.setData start stop))

end Kernelet.Memory
