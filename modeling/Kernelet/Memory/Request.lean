import Kernelet.Memory.Access

/-!
What may be asked of an address space, as data, and the answers. A history of
a space is a list of these requests.
-/

namespace Kernelet.Memory

/-- A request to one address space. -/
inductive Request where
  | map (address : VirtAddr) (flags : PageFlags)
  | expandBrk (newBrk : VirtAddr)
  | readByte (address : VirtAddr)
  | writeByte (address : VirtAddr) (byte : UInt8)
  | readRange (address : VirtAddr) (length : Nat)
  | writeRange (address : VirtAddr) (bytes : List UInt8)
  | release
  | setCode (start stop : Nat)
  | setData (start stop : Nat)
deriving DecidableEq

/-- The answer to a request that succeeds. -/
inductive Reply where
  | done
  /-- The end of the heap. -/
  | brk (stop : Nat)
  | byte (value : UInt8)
  | bytes (values : List UInt8)
deriving DecidableEq

def serve (m : Memory) : Request → Outcome Memory Reply
  | .map a flags => (m.mapPage a flags).map fun () => .done
  | .expandBrk newBrk =>
    let (stop, m) := m.expandBrk newBrk
    ⟨.ok (.brk stop), m⟩
  | .readByte a => ⟨(m.readByte a).map .byte, m⟩
  | .writeByte a byte => (m.writeByte a byte).map fun () => .done
  | .readRange a length => ⟨(m.readRange a length).map .bytes, m⟩
  | .writeRange a bytes => (m.writeRange a bytes).map fun () => .done
  | .release => ⟨.ok .done, m.release⟩
  | .setCode start stop => ⟨.ok .done, { m with space := m.space.setCode start stop }⟩
  | .setData start stop => ⟨.ok .done, { m with space := m.space.setData start stop }⟩

end Kernelet.Memory
