import Kernelet.Proofs.Memory.PageUpdates

/-!
What exactly comes of writing a byte. Beyond `writeByte_cases`, which says how a page
changes for those who can read it, this tells apart where the byte goes: into the frame
that the page has, or into a copy, and then a frame is taken from the pool.
-/

namespace Kernelet.Memory

variable {total reserved : Nat} {m after : Memory} {others : List PageTable} {a : VirtAddr}
  {byte : UInt8}

/-- What a write of one byte comes to. -/
inductive WriteCase (m : Memory) (a : VirtAddr) : Outcome Memory Unit → Prop
  | unmapped (hpage : m.space.table.lookup a.page = none) :
      WriteCase m a ⟨.error (.pageFault a), m⟩
  | readOnly {entry : PageEntry} (hpage : m.space.table.lookup a.page = some entry)
      (hwritable : entry.flags.writable = false) (hcow : entry.flags.copyOnWrite = false) :
      WriteCase m a ⟨.error (.permissionFault a), m⟩
  /-- The page may be written directly. -/
  | direct {entry : PageEntry} {after : Memory} (hpage : m.space.table.lookup a.page = some entry)
      (hwritable : entry.flags.writable = true) (hcow : entry.flags.copyOnWrite = false)
      (hafter : after.space.table.lookup a.page = some entry)
      (hcount : after.pool.freeCount = m.pool.freeCount) : WriteCase m a ⟨.ok (), after⟩
  /-- Nobody else names the frame of the page. -/
  | promoted {entry : PageEntry} {after : Memory}
      (hpage : m.space.table.lookup a.page = some entry)
      (hcow : entry.flags.copyOnWrite = true) (hone : m.pool.refCount entry.frame = 1)
      (hafter : after.space.table.lookup a.page =
        some ⟨entry.frame, entry.flags.owned.normalized⟩)
      (hcount : after.pool.freeCount = m.pool.freeCount) : WriteCase m a ⟨.ok (), after⟩
  | full {entry : PageEntry} (hpage : m.space.table.lookup a.page = some entry)
      (hcow : entry.flags.copyOnWrite = true) (hmany : m.pool.refCount entry.frame ≠ 1)
      (hfull : m.pool.freeCount = 0) : WriteCase m a ⟨.error .outOfMemory, m⟩
  | copied {entry : PageEntry} {after : Memory} {copy : FrameId}
      (hpage : m.space.table.lookup a.page = some entry)
      (hcow : entry.flags.copyOnWrite = true) (hmany : m.pool.refCount entry.frame ≠ 1)
      (hafter : after.space.table.lookup a.page = some ⟨copy, entry.flags.owned.normalized⟩)
      (hfree : m.pool.refCount copy = 0)
      (hcount : after.pool.freeCount + 1 = m.pool.freeCount) : WriteCase m a ⟨.ok (), after⟩

/-- A stored byte changes no table and takes no frame. -/
theorem storeByte_ok (h : m.storeByte a byte = ⟨.ok (), after⟩) :
    after.space = m.space ∧ after.pool.freeCount = m.pool.freeCount := by
  unfold storeByte at h
  cases htranslate : m.space.table.translate a with
  | none =>
      rw [htranslate] at h
      cases h
  | some address =>
      rw [htranslate] at h
      dsimp only [FramePool.writeByte] at h
      split at h
      · cases h
      · rename_i pool hwrite
        split at hwrite
        · cases hwrite
          cases h
          exact ⟨rfl, m.pool.freeCount_setByte address byte⟩
        · cases hwrite

/-- A write into a page that was just made private finds it writable. -/
theorem storeByte_of_private {mid : Memory}
    (hmid : Balanced total reserved mid.pool (mid.space.table :: others))
    {frame : FrameId} {flags : PageFlags}
    (hpage : mid.space.table.lookup a.page = some ⟨frame, flags.owned.normalized⟩)
    (byte : UInt8) :
    ∃ after, mid.storeByte a byte = ⟨.ok (), after⟩ ∧
      after.space.table.lookup a.page = some ⟨frame, flags.owned.normalized⟩ ∧
      after.pool.freeCount = mid.pool.freeCount := by
  obtain ⟨after, hstore, -, -⟩ := storeByte_of_writable hmid hpage rfl byte
  obtain ⟨hspace, hcount⟩ := storeByte_ok hstore
  rw [← hspace] at hpage
  exact ⟨after, hstore, hpage, hcount⟩

theorem writeByte_case (h : Balanced total reserved m.pool (m.space.table :: others))
    (a : VirtAddr) (byte : UInt8) : WriteCase m a (m.writeByte a byte) := by
  unfold writeByte
  cases hpage : m.space.table.lookup a.page with
  | none => exact WriteCase.unmapped hpage
  | some entry =>
      cases hcow : entry.flags.copyOnWrite with
      | false =>
          cases hwritable : entry.flags.writable with
          | false =>
              dsimp only
              rw [hcow, hwritable]
              exact WriteCase.readOnly hpage hwritable hcow
          | true =>
              obtain ⟨after, hstore, -, -⟩ := storeByte_of_writable h hpage hwritable byte
              obtain ⟨hspace, hcount⟩ := storeByte_ok hstore
              dsimp only
              rw [hcow, hwritable, if_neg (by simp), if_pos rfl, hstore]
              exact WriteCase.direct hpage hwritable hcow (hspace ▸ hpage) hcount
      | true =>
          dsimp only
          rw [hcow, if_pos rfl]
          by_cases hone : m.pool.refCount entry.frame = 1
          · obtain ⟨mid, hrun, hmid, -, hprivate, hpool⟩ := makePrivate_of_sole h hpage hone
            obtain ⟨after, hstore, hafter, hcount⟩ := storeByte_of_private hmid hprivate byte
            rw [hpool] at hcount
            rw [hrun]
            dsimp only
            rw [hstore]
            exact WriteCase.promoted hpage hcow hone hafter hcount
          · rcases makePrivate_of_shared h hpage hone with
              ⟨hfull, hrun⟩ | ⟨mid, copy, hrun, hmid, -, hprivate, hfree, htaken⟩
            · rw [hrun]
              exact WriteCase.full hpage hcow hone hfull
            · obtain ⟨after, hstore, hafter, hcount⟩ :=
                storeByte_of_private hmid hprivate byte
              rw [← hcount] at htaken
              rw [hrun]
              dsimp only
              rw [hstore]
              exact WriteCase.copied hpage hcow hone hafter hfree htaken

end Kernelet.Memory
