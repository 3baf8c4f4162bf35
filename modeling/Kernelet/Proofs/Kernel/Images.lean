import Kernelet.Proofs.Kernel.Balance
import Kernelet.Proofs.Kernel.Seating
import Kernelet.Proofs.Memory.HeapGrowth

/-!
The image of a new process, page by page. Two limits may stop the loop: the frames that are
free, and the pages that the space has. Whichever it meets first decides the error, and where
both would stop it at the same page it is the range that is found wanting
(`mapPages_cases`). A process is created exactly where the image keeps within both
(`SpawnLimits`).
-/

namespace Kernelet

namespace Memory

variable {total reserved : Nat} {others : List PageTable} {m : Memory}

/-- The next page of a row is mapped if there is a place and a frame for it. -/
theorem mapPage_next (h : Fits total reserved others m) {first : Nat}
    (hnew : ∀ p, first ≤ p → m.space.table.lookup p = none)
    (haddr : first * pageSize < UInt64.size) :
    (m.space.table.maxPages ≤ first ∧ m.mapPage (VirtAddr.ofPage first) .userData =
      ⟨.error (.addressOutOfRange (VirtAddr.ofPage first)), m⟩) ∨
    (first < m.space.table.maxPages ∧ m.pool.freeCount = 0 ∧
      m.mapPage (VirtAddr.ofPage first) .userData = ⟨.error .outOfMemory, m⟩) ∨
    (first < m.space.table.maxPages ∧ ∃ mid,
      m.mapPage (VirtAddr.ofPage first) .userData = ⟨.ok (), mid⟩ ∧
      Fits total reserved others mid ∧
      mid.space.table.maxPages = m.space.table.maxPages ∧
      mid.pool.freeCount + 1 = m.pool.freeCount ∧
      ∀ p, first + 1 ≤ p → mid.space.table.lookup p = none) := by
  have hpage := VirtAddr.page_ofPage haddr
  have hfree : m.space.table.isMapped (VirtAddr.ofPage first).page = false := by
    rw [hpage]
    exact PageTable.isMapped_eq_false_iff.mpr (hnew first (Nat.le_refl first))
  by_cases hend : m.space.table.maxPages ≤ first
  · left
    refine ⟨hend, ?_⟩
    unfold mapPage
    rw [hfree, if_neg Bool.false_ne_true, hpage, if_neg (Nat.not_lt_of_le hend)]
  right
  have hlt : (VirtAddr.ofPage first).page < m.space.table.maxPages := by
    rw [hpage]
    exact Nat.lt_of_not_le hend
  by_cases hfull : m.pool.freeCount = 0
  · exact Or.inl ⟨Nat.lt_of_not_le hend, hfull, mapPage_full h .userData hfree hlt hfull⟩
  right
  obtain ⟨mid, hrun, hmid, hgrown⟩ := mapPage_grown h hfree hlt hfull
  rw [hpage] at hgrown
  refine ⟨Nat.lt_of_not_le hend, mid, hrun, hmid, hgrown.maxPages_eq, hgrown.freeCount_eq, ?_⟩
  intro p hp
  have hother : p ∉ [first] := by
    rw [List.mem_singleton]
    omega
  exact (hgrown.lookup_eq p hother).trans (hnew p (by omega))

/-- Pages are mapped in a row from the first page on that is not mapped. Each takes a frame, and
the row ends where the table does. -/
theorem mapPages_cases (h : Fits total reserved others m) {first : Nat} (count : Nat)
    (hnew : ∀ p, first ≤ p → m.space.table.lookup p = none)
    (hfirst : first ≤ m.space.table.maxPages)
    (hwords : m.space.table.maxPages * pageSize < UInt64.size) :
    (first + count ≤ m.space.table.maxPages ∧ count ≤ m.pool.freeCount ∧
      ∃ after, m.mapPages first .userData count = ⟨.ok (), after⟩) ∨
    (m.pool.freeCount < count ∧ first + m.pool.freeCount < m.space.table.maxPages ∧
      (m.mapPages first .userData count).result = .error .outOfMemory) ∨
    (m.space.table.maxPages < first + count ∧
      m.space.table.maxPages ≤ first + m.pool.freeCount ∧
      (m.mapPages first .userData count).result =
        .error (.addressOutOfRange (VirtAddr.ofPage m.space.table.maxPages))) := by
  induction count generalizing m first with
  | zero => exact Or.inl ⟨hfirst, Nat.zero_le _, m, rfl⟩
  | succ count ih =>
      have haddr : first * pageSize < UInt64.size :=
        Nat.lt_of_le_of_lt (Nat.mul_le_mul_right pageSize hfirst) hwords
      unfold mapPages
      rcases mapPage_next h hnew haddr with
        ⟨hend, hrun⟩ | ⟨hlt, hfull, hrun⟩ | ⟨hlt, mid, hrun, hmid, hmax, hleft, hrest⟩
      · rw [hrun, Nat.le_antisymm hend hfirst]
        exact Or.inr (Or.inr ⟨by omega, by omega, rfl⟩)
      · rw [hrun]
        exact Or.inr (Or.inl ⟨by omega, by omega, rfl⟩)
      · rw [hrun, ← hmax]
        rw [← hmax] at hlt hwords
        rcases ih hmid hrest hlt hwords with
          ⟨hroom, hframes, hdone⟩ | ⟨hframes, hroom, hfailed⟩ | ⟨hroom, hframes, hfailed⟩
        · exact Or.inl ⟨by omega, by omega, hdone⟩
        · exact Or.inr (Or.inl ⟨by omega, by omega, hfailed⟩)
        · exact Or.inr (Or.inr ⟨by omega, by omega, hfailed⟩)

end Memory

namespace Kernel

variable {total reserved : Nat} {k : Kernel} {tables : List PageTable} {pages : Nat}

/-- How many pages the space of a process has. -/
def pageLimit (k : Kernel) : Nat :=
  k.config.taskSize.toNat / pageSize

theorem pageLimit_mul_le (k : Kernel) : k.pageLimit * pageSize ≤ k.config.taskSize.toNat :=
  Nat.div_mul_le_self _ _

theorem pageLimit_mul_lt (k : Kernel) : k.pageLimit * pageSize < UInt64.size :=
  Nat.lt_of_le_of_lt k.pageLimit_mul_le k.config.taskSize.toNat_lt

/-- The image starts from an empty table. -/
theorem newImage_cases (h : Balanced total reserved k.pool tables) (pages : Nat) :
    (pages ≤ k.pageLimit ∧ pages ≤ k.pool.freeCount ∧
      ∃ m, k.newImage pages = ⟨.ok (), m⟩) ∨
    (k.pool.freeCount < pages ∧ k.pool.freeCount < k.pageLimit ∧
      (k.newImage pages).result = .error .outOfMemory) ∨
    (k.pageLimit < pages ∧ k.pageLimit ≤ k.pool.freeCount ∧
      (k.newImage pages).result =
        .error (.addressOutOfRange (VirtAddr.ofPage k.pageLimit))) := by
  have hspace : Memory.Fits total reserved tables ⟨k.newSpace, k.pool⟩ :=
    h.cons_empty (PageTable.lookup_new _)
  have hcases := Memory.mapPages_cases hspace pages
    (fun p (_ : 0 ≤ p) => PageTable.lookup_new _ p) (Nat.zero_le _) k.pageLimit_mul_lt
  rw [Nat.zero_add, Nat.zero_add] at hcases
  unfold newImage
  rcases hcases with ⟨hroom, hframes, m, hrun⟩ | hfailed
  · rw [hrun]
    exact Or.inl ⟨hroom, hframes, _, rfl⟩
  · right
    rcases hrun : (Memory.mk k.newSpace k.pool).mapPages 0 .userData pages with ⟨e | _, m⟩
    · rw [hrun] at hfailed
      exact hfailed
    · rw [hrun] at hfailed
      rcases hfailed with ⟨-, -, hfailed⟩ | ⟨-, -, hfailed⟩
      · cases hfailed
      · cases hfailed

/-- An image that stands lies within the space. -/
theorem mul_le_taskSize_of_newImage (h : Balanced total reserved k.pool tables) {m : Memory}
    (hrun : k.newImage pages = ⟨.ok (), m⟩) : pages * pageSize ≤ k.config.taskSize.toNat := by
  rcases newImage_cases h pages with ⟨hroom, -⟩ | ⟨-, -, hfailed⟩ | ⟨-, -, hfailed⟩
  · exact Nat.le_trans (Nat.mul_le_mul_right pageSize hroom) k.pageLimit_mul_le
  · rw [hrun] at hfailed
    cases hfailed
  · rw [hrun] at hfailed
    cases hfailed

/-- What comes of creating a process with `pages` pages where a space has `limit` of them and
`free` frames are free. -/
structure SpawnLimits (limit free pages : Nat) (result : Except KernelError Pid) : Prop where
  ok_iff : (∃ pid, result = .ok pid) ↔ pages ≤ limit ∧ pages ≤ free
  outOfMemory_iff : result = .error .outOfMemory ↔ free < min pages limit
  addressOutOfRange_iff : result = .error (.addressOutOfRange (VirtAddr.ofPage limit)) ↔
    ¬(pages ≤ limit ∧ pages ≤ free) ∧ ¬free < min pages limit

namespace SpawnLimits

variable {limit free : Nat}

theorem ok (hlimit : pages ≤ limit) (hframes : pages ≤ free) (pid : Pid) :
    SpawnLimits limit free pages (.ok pid) where
  ok_iff := iff_of_true ⟨pid, rfl⟩ ⟨hlimit, hframes⟩
  outOfMemory_iff := iff_of_false (by simp) (by omega)
  addressOutOfRange_iff := iff_of_false (by simp) (by omega)

theorem outOfMemory (hframes : free < pages) (hlimit : free < limit) :
    SpawnLimits limit free pages (.error .outOfMemory) where
  ok_iff := iff_of_false (by simp) (by omega)
  outOfMemory_iff := iff_of_true rfl (by omega)
  addressOutOfRange_iff := iff_of_false (by simp) (by omega)

theorem addressOutOfRange (hlimit : limit < pages) (hframes : limit ≤ free) :
    SpawnLimits limit free pages (.error (.addressOutOfRange (VirtAddr.ofPage limit))) where
  ok_iff := iff_of_false (by simp) (by omega)
  outOfMemory_iff := iff_of_false (by simp) (by omega)
  addressOutOfRange_iff := iff_of_true rfl (by omega)

end SpawnLimits

/-- With a parent, a slot and a number that has not come round only the image can fail. -/
theorem spawn_limits (h : Fits total reserved k) (hroom : none ∈ k.sched.slots)
    (hfit : k.NumbersFit) (name : String) {parent : Pid}
    (hparent : parent = 0 ∨ k.sched.contains parent = true) (pages : Nat) :
    SpawnLimits k.pageLimit k.pool.freeCount pages (k.spawn name parent pages).result := by
  have himage := newImage_cases h.balanced pages
  rcases spawn_cases k name parent pages with
    ⟨-, hsome, hnone⟩ | ⟨-, m, ⟨e, hfailed, hrun⟩ | ⟨hbuilt, hrun⟩⟩
  · rcases hparent with rfl | hthere
    · exact absurd rfl hsome
    · rw [hthere] at hnone
      cases hnone
  · rw [hfailed] at himage
    rw [hrun]
    rcases himage with ⟨-, -, other, hbuilt⟩ | ⟨hframes, hlimit, herror⟩ | ⟨hlimit, hframes, herror⟩
    · cases hbuilt
    · cases herror
      exact .outOfMemory hframes hlimit
    · cases herror
      exact .addressOutOfRange hlimit hframes
  · rw [hbuilt] at himage
    rw [hrun]
    rcases himage with ⟨hlimit, hframes, -⟩ | ⟨-, -, herror⟩ | ⟨-, -, herror⟩
    · let task := ((Task.new k.sched.nextNumber parent name m.space).withTimeSlice
        k.config.defaultPriority.toNat k.config.defaultCounter.toNat).startedAt k.sched.jiffies
      have hpid : task.pid = k.sched.nextNumber := rfl
      rcases enlist_seats (k := { k with pool := m.pool }) h.proper hpid with
        ⟨slots, -, hresult, -⟩ | ⟨e, haway, -⟩
      · dsimp only
        rw [hresult]
        exact .ok hlimit hframes _
      · exact absurd hroom (haway.full_of_fit hfit).2
    · cases herror
    · cases herror

end Kernel

end Kernelet
