import Kernelet.Memory.AddressSpace

/-!
Operations of an address space on the memory that backs it: mapping pages,
growing the heap, reading and writing bytes, and giving everything back.

A write to a copy-on-write page first makes the page private. If another space
still refers to the frame the page moves to a copy of it, and otherwise the
page is simply marked writable, which needs no free frame.

Ranges are read and written byte by byte, so that a range may cross pages and
a fault in the middle leaves the bytes before it written.
-/

namespace Kernelet.Memory

/-- Backs the page of `a` with a zeroed frame. A page that is mapped already
is left alone. -/
def mapPage (m : Memory) (a : VirtAddr) (flags : PageFlags) : Outcome Memory Unit :=
  if m.space.table.isMapped a.page then
    ⟨.ok (), m⟩
  else if a.page < m.space.table.maxPages then
    match m.pool.allocate with
    | .error e => ⟨.error e, m⟩
    | .ok (frame, pool) =>
      match m.space.table.map a.page frame flags with
      | .error e => ⟨.error e, { m with pool }⟩
      | .ok table => ⟨.ok (), { space := { m.space with table }, pool }⟩
  else
    ⟨.error (.addressOutOfRange a), m⟩

/-- Maps `count` pages from page `first` on, and stops at the first page that
cannot be mapped. -/
def mapPages (m : Memory) (first : Nat) (flags : PageFlags) : Nat → Outcome Memory Unit
  | 0 => ⟨.ok (), m⟩
  | count + 1 =>
    match m.mapPage (VirtAddr.ofPage first) flags with
    | ⟨.error e, m⟩ => ⟨.error e, m⟩
    | ⟨.ok (), m⟩ => m.mapPages (first + 1) flags count

/-- Maps the data pages from `first` up to `last`, and returns the end of the
heap that results: the start of the first page that could not be mapped, but
never less than `brk`, or `none` if all could. -/
def growPages (m : Memory) (first : Nat) : Nat → Option Nat × Memory
  | 0 => (none, m)
  | count + 1 =>
    match m.mapPage (VirtAddr.ofPage first) .userData with
    | ⟨.error _, m⟩ => (some (VirtAddr.ofPage first).toNat, m)
    | ⟨.ok (), m⟩ => m.growPages (first + 1) count

/-- Grows the heap to cover `newBrk`, by whole pages, and returns its end. A
request below the data segment, not above the present end, or past the end of
the space changes nothing. Where memory runs out the pages mapped so far stay
mapped, and the heap ends at the first page that is not. -/
def expandBrk (m : Memory) (newBrk : VirtAddr) : Nat × Memory :=
  let brk := m.space.brk
  if newBrk.toNat < m.space.dataEnd then
    (brk, m)
  else
    match newBrk.alignUp? with
    | none => (brk, m)
    | some target =>
      if m.space.size < target.toNat || target.toNat ≤ brk then
        (brk, m)
      else
        let first := brk / pageSize
        match m.growPages first (target.page - first) with
        | (some stopped, m) =>
          let reached := max brk stopped
          (reached, { m with space := { m.space with brk := reached } })
        | (none, m) =>
          (target.toNat, { m with space := { m.space with brk := target.toNat } })

def readByte (m : Memory) (a : VirtAddr) : Except KernelError UInt8 :=
  match m.space.table.translate a with
  | none => .error (.pageFault a)
  | some address => m.pool.readByte address

/-- Makes copy-on-write page `p`, whose entry is `entry`, private and
writable. -/
def makePrivate (m : Memory) (p : Nat) (entry : PageEntry) : Outcome Memory Unit :=
  if m.pool.refCount entry.frame = 1 then
    let (_, table) := m.space.table.setFlags p entry.flags.owned
    ⟨.ok (), { m with space := { m.space with table } }⟩
  else
    match m.pool.allocate with
    | .error e => ⟨.error e, m⟩
    | .ok (frame, pool) =>
      match pool.copyFrame entry.frame frame with
      | .error e => ⟨.error e, { m with pool := pool.free frame }⟩
      | .ok pool =>
        let pool := pool.free entry.frame
        match m.space.table.map p frame entry.flags.owned with
        | .error e => ⟨.error e, { m with pool }⟩
        | .ok table => ⟨.ok (), { space := { m.space with table }, pool }⟩

/-- Stores a byte at `a`, whose page is known to be private. -/
def storeByte (m : Memory) (a : VirtAddr) (byte : UInt8) : Outcome Memory Unit :=
  match m.space.table.translate a with
  | none => ⟨.error (.pageFault a), m⟩
  | some address =>
    match m.pool.writeByte address byte with
    | .error e => ⟨.error e, m⟩
    | .ok pool => ⟨.ok (), { m with pool }⟩

def writeByte (m : Memory) (a : VirtAddr) (byte : UInt8) : Outcome Memory Unit :=
  match m.space.table.lookup a.page with
  | none => ⟨.error (.pageFault a), m⟩
  | some entry =>
    if entry.flags.copyOnWrite then
      match m.makePrivate a.page entry with
      | ⟨.error e, m⟩ => ⟨.error e, m⟩
      | ⟨.ok (), m⟩ => m.storeByte a byte
    else if entry.flags.writable then
      m.storeByte a byte
    else
      ⟨.error (.permissionFault a), m⟩

/-- The address of byte `i` of a range from `a` on. A range that runs past the
top of the address range faults at the address that it wraps to. -/
def rangeAddress (a : VirtAddr) (i : Nat) : Except KernelError VirtAddr :=
  match a.add? i with
  | some b => .ok b
  | none => .error (.pageFault (a.wrappingAdd i))

/-- Reads bytes `i`, `i + 1`, … of the range from `a` on, `count` of them. -/
def readFrom (m : Memory) (a : VirtAddr) (i : Nat) : Nat → Except KernelError (List UInt8)
  | 0 => .ok []
  | count + 1 =>
    match rangeAddress a i with
    | .error e => .error e
    | .ok b =>
      match m.readByte b with
      | .error e => .error e
      | .ok byte => (m.readFrom a (i + 1) count).map (byte :: ·)

def readRange (m : Memory) (a : VirtAddr) (length : Nat) : Except KernelError (List UInt8) :=
  m.readFrom a 0 length

/-- Writes bytes `i`, `i + 1`, … of the range from `a` on. -/
def writeFrom (m : Memory) (a : VirtAddr) (i : Nat) : List UInt8 → Outcome Memory Unit
  | [] => ⟨.ok (), m⟩
  | byte :: rest =>
    match rangeAddress a i with
    | .error e => ⟨.error e, m⟩
    | .ok b =>
      match m.writeByte b byte with
      | ⟨.error e, m⟩ => ⟨.error e, m⟩
      | ⟨.ok (), m⟩ => m.writeFrom a (i + 1) rest

/-- Writes `bytes` from `a` on. Bytes before a fault stay written. -/
def writeRange (m : Memory) (a : VirtAddr) (bytes : List UInt8) : Outcome Memory Unit :=
  m.writeFrom a 0 bytes

/-- Unmaps every page and gives its frame back. The segments stay as they
are. -/
def release (m : Memory) : Memory where
  space := { m.space with table := m.space.table.clear }
  pool := m.space.releaseFrames m.pool

end Kernelet.Memory
